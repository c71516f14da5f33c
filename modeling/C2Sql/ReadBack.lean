import C2Sql.RowIdentity
import C2Sql.RowRoundTrip
import C2Sql.StoreRuns

/-!
# Reading back what was written

A row that `SqlRDBWrite` has stored stays in its table until a call names its key, and `SqlRDBRead`
then returns its members and its null bits: a round trip through the statements, the cache, the
transactions and the configurations of a handle, over every run of calls in between.

* `HoldsKey`: a table has a row with a key and some values;
* `Call.Spares`: the calls that do not reach such a row, with `StoreStep.holdsKey` and
  `StoreRun.holdsKey` for what they keep;
* `Meant.write_holdsKey`, `read_holdsKey`: what a write puts into the table, and what a read finds;
* `written_row_read_back`: the round trip.
-/

namespace C2Sql

open SnapshotStack SqlText StateLogic

/-! ## Rows with a key -/

section Key

variable (sem : SqlSemantics) (schema : SqlRDBSchema)

/-- A row has these values in the columns of a struct. -/
def RowIs (vals : ℕ → SqlValue) (r : Row SqlValue) : Prop :=
  ∀ j c, schema.cols[j]? = some c → (r (sem.fold c.name)).Same (vals j)

/-- A table of the struct has a row with a key and these values. -/
structure HoldsKey (key : SqlValue) (vals : ℕ → SqlValue) (t : Table SqlValue) : Prop where
  tableOf : TableOf sem schema t
  row : ∃ r ∈ t.rows, hasKey sem (pkName schema, key) r = true ∧ RowIs sem schema vals r

variable {sem schema} {key : SqlValue} {vals : ℕ → SqlValue} {t : Table SqlValue}

theorem hasKey_iff {r : Row SqlValue} :
    hasKey sem (pkName schema, key) r = true ↔
      sem.cmp .eq (r (sem.fold (pkName schema))) key = some true := by
  rw [hasKey, beq_iff_eq]

/-- Of two rows, the first has the key of the second. -/
theorem hasKey_iff_sameKeyOf {r x : Row SqlValue}
    (hr : hasKey sem (pkName schema, key) r = true) :
    hasKey sem (pkName schema, key) x = sameKeyOf sem schema x r := by
  rw [hasKey_iff] at hr
  rw [sameKeyOf_eq, Bool.eq_iff_iff, hasKey_iff, hasKey_iff]
  exact ⟨fun hx => sem.eq_trans hx (sem.eq_symm hr), fun hx => sem.eq_trans hx hr⟩

/-- A table without some of its rows. -/
theorem TableOf.delete (ht : TableOf sem schema t) (p : Row SqlValue → Bool) :
    TableOf sem schema { t with rows := t.rows.filter p } where
  has_col := ht.has_col
  nodup := ht.nodup
  key_eq := ht.key_eq
  unique := ht.unique.filter p
  held r hr := ht.held r (List.mem_filter.1 hr).1
  typed r hr := ht.typed r (List.mem_filter.1 hr).1

/-- A table with another value in one column of some rows. -/
theorem TableOf.update (ht : TableOf sem schema t) {cond : Option Expr} {us : List SqlValue}
    {col : SqlRDBColumnDef} (hcol : col ∈ schema.cols) {u : SqlValue}
    (hu : u.Holdable sem.keepsNaN) (htype : u = .null ∨ u.type = col.type.valueType)
    (hunique : sem.KeysUnique { t with
      rows := sem.order t (sem.updated cond us col.name u t.rows) }) :
    TableOf sem schema { t with rows := sem.order t (sem.updated cond us col.name u t.rows) } := by
  refine ⟨ht.has_col, ht.nodup, ht.key_eq, hunique, fun r hr n => ?_, fun r hr c hc => ?_⟩ <;>
    obtain ⟨r, hold, rfl⟩ := List.mem_map.1 ((sem.order_perm t _).mem_iff.1 hr) <;>
    split_ifs
  · rw [Function.update_apply]
    split_ifs
    · exact hu
    · exact ht.held r hold n
  · exact ht.held r hold n
  · rw [Function.update_apply]
    split_ifs with hname
    · rwa [List.inj_on_of_nodup_map ht.nodup hc hcol hname]
    · exact ht.typed r hold c hc
  · exact ht.typed r hold c hc

/-- A table with another BLOB in one column of some rows. -/
theorem TableOf.setBlob (ht : TableOf sem schema t) {cond : Option Expr} {us : List SqlValue}
    {col : CStr} {c : SqlRDBColumnDef} (hcol : findCol schema col = some c) (htype : c.type = .blob)
    {bytes : List UInt8} (hunique : sem.KeysUnique { t with
      rows := sem.order t (sem.updated cond (storedValues (.blob bytes :: us)) col
        (sem.param (storedValues (.blob bytes :: us)) 1) t.rows) }) :
    TableOf sem schema { t with
      rows := sem.order t (sem.updated cond (storedValues (.blob bytes :: us)) col
        (sem.param (storedValues (.blob bytes :: us)) 1) t.rows) } := by
  obtain rfl : c.name = col := by simpa using List.find?_some hcol
  have hparam : sem.param (storedValues (.blob bytes :: us)) 1 = sem.taken (.blob bytes) :=
    SqlSemantics.param_storedValues rfl
  rw [hparam] at hunique ⊢
  refine ht.update (List.mem_of_find?_eq_some hcol) (SqlSemantics.taken_holdable _) ?_ hunique
  rw [htype]
  exact SqlSemantics.taken_type _

section Keep

variable (hwf : schema.WellFormed) (hone : OneKey schema) (h : HoldsKey sem schema key vals t)

include hwf hone h

/-- The row is the only one with its key. -/
theorem HoldsKey.filter_eq :
    ∃ r, t.rows.filter (hasKey sem (pkName schema, key)) = [r] ∧ RowIs sem schema vals r := by
  obtain ⟨r, hr, hkey, hvals⟩ := h.row
  have hk := keyed_writtenRows hwf hone.one h.tableOf
  have hfilter : t.rows.filter (hasKey sem (pkName schema, key)) =
      t.rows.filter fun x => sameKeyOf sem schema x r :=
    List.filter_congr fun x _ => hasKey_iff_sameKeyOf hkey
  have hmem : r ∈ t.rows.filter (hasKey sem (pkName schema, key)) :=
    List.mem_filter.2 ⟨hr, hkey⟩
  rw [hfilter] at hmem ⊢
  obtain hnil | ⟨x, hx⟩ := hk.filter_eq (h.tableOf.pairwise hwf hone.one) r
  · rw [hnil] at hmem
    cases hmem
  · rw [hx] at hmem
    obtain rfl := List.mem_singleton.1 hmem
    exact ⟨r, hx, hvals⟩

/-- A write of another key keeps the row. -/
theorem HoldsKey.write {row : Mem} {nullMap : Option Mem} {vs : List SqlValue}
    (hvs : (rowBinds row nullMap 0 schema.cols).values = some vs)
    (hother : hasKey sem (pkName schema, key) (writtenRow sem schema vs) = false) :
    HoldsKey sem schema key vals (writtenTable sem schema vs t) := by
  obtain ⟨r, hr, hkey, hvals⟩ := h.row
  refine ⟨h.tableOf.write hwf hvs hone.one, r,
    writtenRows_perm.mem_iff.2 (mem_upsertRows_of_ne hr ?_), hkey, hvals⟩
  rw [Bool.eq_false_iff]
  intro hsame
  have hk := keyed_writtenRows hwf hone.one h.tableOf
  rw [hasKey_iff_sameKeyOf hkey, hk.symm hsame] at hother
  cases hother

end Keep

end Key

/-! ## Calls that do not reach the row -/

section Spares

variable (sem : SqlSemantics) (lookup : CStr → Option SqlRDBSchema) (schema : SqlRDBSchema)
  (key : SqlValue) (vals : ℕ → SqlValue)

/-- The values that are bound, if they can be, are of another key. -/
def Binds.OtherKey (binds : Binds) : Prop :=
  ∀ vs, binds.values = some vs → hasKey sem (pkName schema, key) (writtenRow sem schema vs) = false

/-- A condition with the values that are bound for it does not select a row. -/
def Misses (cond : SqlRDBCondition) (r : Row SqlValue) : Prop :=
  sem.selects (whereExpr (some cond) 0) (storedValues (condValues (some cond))) r = false

/-- The calls that do not reach a row with a key and some values: calls that write no table or
another one, writes of other keys, deletions and BLOB fields whose condition the row does not meet.
A rollback is none of them, as it may undo the write of the row. -/
inductive Call.Spares : Call → Prop
  | other {c : Call} (hc : c ≠ .rollbackTx) (hother : ∀ name schema', c.target = some name →
      lookup name = some schema' → sem.fold schema.name ≠ sem.fold schema'.name) : Call.Spares c
  | write {name : CStr} {row : Mem} {nullMap : Option Mem} (hlook : lookup name = some schema)
      (hkey : (rowBinds row nullMap 0 schema.cols).OtherKey sem schema key) :
      Call.Spares (.write (some name) (some row) nullMap)
  | writeMany {name : CStr} {rows : Mem} {n stride : ℕ} {nullMaps : Option Mem}
      (hlook : lookup name = some schema)
      (hkey : ∀ binds ∈ batchBinds schema rows stride nullMaps n 0, binds.OtherKey sem schema key) :
      Call.Spares (.writeMany (some name) (some rows) n stride nullMaps)
  | delete {name : CStr} {cond : SqlRDBCondition} {out : Option ℕ}
      (hlook : lookup name = some schema)
      (hmiss : ∀ r, RowIs sem schema vals r → Misses sem cond r) :
      Call.Spares (.delete (some name) (some cond) out)
  | writeBlobField {name col : CStr} {cond : SqlRDBCondition} {bytes : List UInt8}
      (hlook : lookup name = some schema)
      (hmiss : ∀ r, RowIs sem schema vals r → Misses sem cond r) :
      Call.Spares (.writeBlobField (some name) (some cond) (some col) (some bytes))

end Spares

section Steps

variable {dialect : C2SqlDialect} {sem : SqlSemantics} {lookup : CStr → Option SqlRDBSchema}
  {calm : Prop} {schema : SqlRDBSchema} {key : SqlValue} {vals : ℕ → SqlValue} {s s' : Model}
  {c : Call} {reply : Reply} (hwf : schema.WellFormed) (hone : OneKey schema)

/-- The table of a struct in a state of the store has a row with a key and these values. -/
def Model.HoldsKey (sem : SqlSemantics) (schema : SqlRDBSchema) (key : SqlValue)
    (vals : ℕ → SqlValue) (s : Model) : Prop :=
  ∃ t, s.db (sem.fold schema.name) = some t ∧ C2Sql.HoldsKey sem schema key vals t

theorem Model.HoldsKey.of_db (h : s.HoldsKey sem schema key vals)
    (hdb : s'.db (sem.fold schema.name) = s.db (sem.fold schema.name)) :
    s'.HoldsKey sem schema key vals := by
  obtain ⟨t, ht, hkey⟩ := h
  exact ⟨t, hdb.trans ht, hkey⟩

/-- The value of a field stands before those of the condition. -/
theorem Misses.behind {cond : SqlRDBCondition} {r : Row SqlValue} (h : Misses sem cond r)
    (hroot : RootOnly (some cond)) (u : SqlValue) :
    sem.selects (whereExpr (some cond) 1) (u :: storedValues (condValues (some cond))) r = false :=
  (congrFun (selects_append hroot [u] _) r).trans h

/-- The rows of a batch are bound as single rows are. -/
theorem exists_of_mem_batchBinds {rows : Mem} {stride : ℕ} {nullMaps : Option Mem} {n i : ℕ}
    {binds : Binds} (h : binds ∈ batchBinds schema rows stride nullMaps n i) :
    ∃ row nullMap, binds = rowBinds row nullMap 0 schema.cols := by
  induction n generalizing i with
  | zero => cases h
  | succ n ih =>
    rw [batchBinds, List.mem_cons] at h
    rcases h with rfl | h
    · exact ⟨_, _, rfl⟩
    · exact ih h

include hwf hone

/-- A row that is executed with another key. -/
theorem executed_holdsKey {row : Mem} {nullMap : Option Mem} {db : Catalog SqlValue}
    {res : Result SqlValue} {t : Table SqlValue} (hdb : db (sem.fold schema.name) = some t)
    (ht : HoldsKey sem schema key vals t)
    (hkey : (rowBinds row nullMap 0 schema.cols).OtherKey sem schema key)
    (hex : executed sem schema (rowBinds row nullMap 0 schema.cols) db = some res) :
    ∃ t', res.db (sem.fold schema.name) = some t' ∧ HoldsKey sem schema key vals t' := by
  obtain ⟨-, vs, hvs, hexec⟩ := executed_eq_some_iff.1 hex
  rw [exec_writeStatement hwf hone.one ht.tableOf hdb hexec, Function.update_self]
  exact ⟨_, rfl, ht.write hwf hone hvs (hkey vs hvs)⟩

/-- A batch of other keys. -/
theorem writeBatch_holdsKey {batch : List Binds}
    (hrows : ∀ binds ∈ batch, ∃ row nullMap, binds = rowBinds row nullMap 0 schema.cols)
    (hkey : ∀ binds ∈ batch, binds.OtherKey sem schema key) {db db' : Catalog SqlValue} {all : Bool}
    {t : Table SqlValue} (hdb : db (sem.fold schema.name) = some t)
    (ht : HoldsKey sem schema key vals t) (hbatch : writeBatch sem schema batch db = (all, db')) :
    ∃ t', db' (sem.fold schema.name) = some t' ∧ HoldsKey sem schema key vals t' := by
  induction batch generalizing db t with
  | nil =>
    cases hbatch
    exact ⟨t, hdb, ht⟩
  | cons binds batch ih =>
    rw [writeBatch] at hbatch
    rw [List.forall_mem_cons] at hkey hrows
    split at hbatch
    · cases hbatch
      exact ⟨t, hdb, ht⟩
    case h_2 res hex =>
      obtain ⟨row, nullMap, rfl⟩ := hrows.1
      obtain ⟨t', hdb', ht'⟩ := executed_holdsKey hwf hone hdb ht hkey.1 hex
      exact ih hrows.2 hkey.2 hdb' ht' hbatch

/-- A call that does not reach the row keeps it, whether or not the call succeeds. -/
theorem StoreStep.holdsKey (hspares : c.Spares sem lookup schema key vals)
    (hstep : StoreStep dialect sem lookup calm s c reply s') (h : s.HoldsKey sem schema key vals) :
    s'.HoldsKey sem schema key vals := by
  cases hspares with
  | other hc hother =>
    cases hstep.moves with
    | stays hstore =>
      exact h.of_db (congrArg (fun st : Store CStr (Catalog SqlValue) => st.contents _) hstore)
    | writes htarget hlook hdb hframes => exact h.of_db (hdb _ (hother _ _ htarget hlook))
    | begins name hdb hframes => exact h.of_db (congrFun hdb _)
    | commits hdb hframes => exact h.of_db (congrFun hdb _)
    | rewinds hc' hframes hdb hframes' => exact absurd hc' hc
  | write hlook hkey =>
    cases hstep with
    | refused hr hcalm => exact h
    | meant hmeant =>
      cases hmeant with
      | write hlook' hexec =>
        cases hlook.symm.trans hlook'
        obtain ⟨t, hdb, ht⟩ := h
        exact executed_holdsKey hwf hone hdb ht hkey hexec
  | writeMany hlook hkey =>
    obtain ⟨t, hdb, ht⟩ := h
    cases hstep with
    | refused hr hcalm => exact ⟨t, hdb, ht⟩
    | stopped hcalm hr hlook' hframes hbatch =>
      cases hlook.symm.trans hlook'
      exact writeBatch_holdsKey hwf hone
        (fun _ hb => exists_of_mem_batchBinds (List.mem_of_mem_take hb))
        (fun _ hb => hkey _ (List.mem_of_mem_take hb)) hdb ht hbatch
    | meant hmeant =>
      cases hmeant with
      | writeMany hlook' hn hstride hbatch hr =>
        cases hlook.symm.trans hlook'
        simp only [Model.HoldsKey, Model.db, Model.withDb]
        split_ifs
        · exact writeBatch_holdsKey hwf hone (fun _ => exists_of_mem_batchBinds) hkey hdb ht hbatch
        · exact ⟨t, hdb, ht⟩
  | delete hlook hmiss =>
    cases hstep with
    | refused hr hcalm => exact h
    | meant hmeant =>
      cases hmeant with
      | delete hlook' hans hn =>
        cases hlook.symm.trans hlook'
        obtain ⟨t, hdb, ht⟩ := h
        obtain ⟨t', hdb', -, rfl⟩ :=
          Semantics.effect_delete_iff.1 (Semantics.effect_of_exec hans.exec).2
        cases hdb.symm.trans hdb'
        refine ⟨_, Function.update_self .., ht.tableOf.delete _, ?_⟩
        obtain ⟨r, hr, hkey, hvals⟩ := ht.row
        exact ⟨r, List.mem_filter.2 ⟨hr, by rw [hmiss r hvals]; rfl⟩, hkey, hvals⟩
  | @writeBlobField _ _ _ bytes hlook hmiss =>
    cases hstep with
    | refused hr hcalm => exact h
    | meant hmeant =>
      cases hmeant with
      | notOneRow hlook' hcol htype hfound hnot => exact h
      | writeBlobField hlook' hcol htype hfound hone' hans =>
        cases hlook.symm.trans hlook'
        obtain ⟨t, hdb, ht⟩ := h
        obtain ⟨t', hdb', -, hunique, rfl⟩ :=
          Semantics.effect_update_iff.1 (Semantics.effect_of_exec hans.exec).2
        cases hdb.symm.trans hdb'
        refine ⟨_, Function.update_self .., ht.tableOf.setBlob hcol htype hunique, ?_⟩
        obtain ⟨r, hr, hkey, hvals⟩ := ht.row
        refine ⟨r, (sem.order_perm t _).mem_iff.2 (List.mem_map.2 ⟨r, hr, ?_⟩), hkey, hvals⟩
        have hsel := (hmiss r hvals).behind hans.root (storedValue (.blob bytes))
        exact if_neg fun h => Bool.false_ne_true (hsel.symm.trans h)

/-- Calls that do not reach the row keep it. -/
theorem StoreRun.holdsKey {cs : List Call} {replies : List Reply}
    (hrun : StoreRun dialect sem lookup calm s cs replies s')
    (hspares : ∀ c ∈ cs, c.Spares sem lookup schema key vals)
    (h : s.HoldsKey sem schema key vals) : s'.HoldsKey sem schema key vals :=
  hrun.invariant (fun c hc _ _ _ hstep hs => hstep.holdsKey hwf hone (hspares c hc) hs) h

end Steps

/-! ## Writing the row -/

section Write

variable {schema : SqlRDBSchema} {row : Mem} {nullMap : Option Mem}

/-- The values of a row in memory, by column. -/
def memoryVals (schema : SqlRDBSchema) (row : Mem) (nullMap : Option Mem) (j : ℕ) : SqlValue :=
  match schema.cols[j]? with
  | some c => rowValue row nullMap j c
  | none => .null

theorem memoryVals_eq {j : ℕ} {c : SqlRDBColumnDef} (hj : schema.cols[j]? = some c) :
    memoryVals schema row nullMap j = rowValue row nullMap j c := by
  rw [memoryVals, hj]

theorem colBind_eq_rowValue {j : ℕ} {c : SqlRDBColumnDef} {v : SqlValue}
    (h : colBind row nullMap j c = .ok v) : v = rowValue row nullMap j c := by
  rw [colBind] at h
  rw [rowValue]
  split_ifs at h ⊢
  · cases h
    rfl
  · split at h
    case h_1 u hu =>
      cases h
      rw [hu]
      rfl
    · cases h

variable {dialect : C2SqlDialect} {sem : SqlSemantics} {lookup : CStr → Option SqlRDBSchema}
  {name : CStr} {key : SqlValue} {s s' : Model} {reply : Reply} {t : Table SqlValue}

/-- A row that has been written is in the table, with its key. -/
theorem Meant.write_holdsKey (hwf : schema.WellFormed) (hone : OneKey schema)
    (hlook : lookup name = some schema) (hdb : s.db (sem.fold schema.name) = some t)
    (ht : TableOf sem schema t) (hcarried : Carried sem schema row nullMap)
    (hkey : writtenKey schema row nullMap = some (pkName schema, key))
    (hmeant : Meant dialect sem lookup s (.write (some name) (some row) nullMap) reply s') :
    s'.HoldsKey sem schema key (memoryVals schema row nullMap) := by
  cases hmeant with
  | write hlook' hexec =>
    cases hlook.symm.trans hlook'
    obtain ⟨-, vs, hvs, hexec⟩ := executed_eq_some_iff.1 hexec
    obtain ⟨kv, hkv, hhas⟩ := hasKey_writtenKey hwf hone hvs hcarried ht.nodup
    cases hkey.symm.trans hkv
    obtain ⟨r, hr, hcols⟩ := filter_writtenRows hwf hone ht hvs hcarried
    rw [← hhas] at hr
    obtain ⟨hmem, hhasKey⟩ := List.mem_filter.1 (hr ▸ List.mem_singleton_self r)
    refine ⟨_, (congrFun (exec_writeStatement hwf hone.one ht hdb hexec) _).trans
      (Function.update_self ..), ht.write hwf hvs hone.one, r, hmem, hhasKey, fun j c hj => ?_⟩
    obtain ⟨v, hv, hwritten⟩ := writtenRow_of_colBind hvs ht.nodup hj
    have hsame := hcols c (List.mem_of_getElem? hj)
    rw [hwritten] at hsame
    rw [memoryVals_eq hj, ← colBind_eq_rowValue hv]
    exact hsame.trans (SqlSemantics.taken_same (hcarried j c v hj hv))

end Write

/-! ## Reading the row -/

section Read

variable {dialect : C2SqlDialect} {sem : SqlSemantics} {schema : SqlRDBSchema}

/-- The condition that the key has a value. -/
def keyCond (schema : SqlRDBSchema) (v : CondValue) : SqlRDBCondition :=
  .leaf (pkName schema) .eq v

theorem rootOnly_keyCond (v : CondValue) : RootOnly (some (keyCond schema v)) := by
  rintro c ⟨⟩
  exact .inr trivial

/-- The statement that reads the rows with a key finds them. -/
theorem yields_keyCond (hwf : schema.WellFormed) (hone : OneKey schema) {v : CondValue}
    (hv : CondCarried (some (keyCond schema v))) {db : Catalog SqlValue} {t : Table SqlValue}
    (hdb : db (sem.fold schema.name) = some t) (ht : TableOf sem schema t)
    (hrefuses : sem.refuses (condStatement .select schema (some (keyCond schema v)) [])
      (storedValues (condValues (some (keyCond schema v)))) db = false) :
    ∃ res, StatementYields sem .select schema (some (keyCond schema v)) []
        (condValues (some (keyCond schema v))) db res ∧
      res.rows =
        (t.rows.filter (hasKey sem (pkName schema, v.toSql))).map (rowCells sem schema) := by
  obtain ⟨i, k, -, hik, -, -, hname, -⟩ := hone.one.spec hwf
  have hk := List.mem_of_getElem? hik
  have hknown : knownCols schema (condCols (some (keyCond schema v))) = true := by
    refine knownCols_iff.2 fun col hcol => ?_
    rw [List.mem_singleton.1 hcol, hname, schemaHasColumn, List.any_eq_true]
    exact ⟨k, hk, beq_self_eq_true _⟩
  have hsel : sem.selects (whereExpr (some (keyCond schema v)) 0)
      (storedValues (condValues (some (keyCond schema v)))) =
        hasKey sem (pkName schema, v.toSql) := selects_condValues (rootOnly_keyCond v) hv
  have hcols : (schema.cols.map fun c => c.name).all (sem.has t) = true := by
    rw [List.all_map]
    exact List.all_eq_true.2 fun c hc => ht.has_col c hc
  have hcond : sem.condKnown t (whereExpr (some (keyCond schema v)) 0) = true := by
    have hhas := ht.has_col k hk
    rw [← hname] at hhas
    simp [Semantics.condKnown, whereExpr, keyCond, condExpr, Expr.cols, Operand.cols, hhas]
  have hexec : sem.exec (condStatement .select schema (some (keyCond schema v)) [])
      (storedValues (condValues (some (keyCond schema v)))) db =
        some ⟨(t.rows.filter (hasKey sem (pkName schema, v.toSql))).map fun r =>
          (schema.cols.map fun c => c.name).map fun c => r (sem.fold c), db, none⟩ := by
    rw [Semantics.exec, hrefuses, if_neg Bool.false_ne_true]
    refine Semantics.effect_select_iff.2 ⟨t, hdb, ⟨hcols, hcond⟩, ?_⟩
    rw [hsel]
  have hlt : 1 < 2 ^ 31 := by norm_num
  refine ⟨_, ⟨rootOnly_keyCond v, hknown, by rintro ⟨⟩, hlt, hlt, hexec⟩, ?_⟩
  simp only [List.map_map]
  rfl

/-- A row whose values are taken and held as they are bound, with strings that end in their
members. -/
structure Storable (sem : SqlSemantics) (schema : SqlRDBSchema) (row : Mem)
    (nullMap : Option Mem) : Prop where
  carried : Carried sem schema row nullMap
  terminated : ∀ c ∈ schema.cols, c.type = .text → 0 ∈ row.read c.offset c.size
  fits : StringsFit schema row nullMap

/-- The key of such a row is bound as it is. -/
theorem Storable.condCarried_keyCond {row : Mem} {nullMap : Option Mem} {name : CStr}
    {v : CondValue} (hrow : Storable sem schema row nullMap)
    (hkey : writtenKey schema row nullMap = some (name, v.toSql)) :
    CondCarried (some (keyCond schema v)) := by
  obtain ⟨i, -, hkey⟩ := Option.bind_eq_some_iff.1 hkey
  obtain ⟨k, hik, hkey⟩ := Option.bind_eq_some_iff.1 hkey
  intro b hb
  cases hbind : colBind row nullMap i k with
  | error r => simp [hbind] at hkey
  | ok u =>
    simp only [hbind, Option.some.injEq, Prod.mk.injEq] at hkey
    have hu : u = .blob b := hkey.2.trans (List.mem_singleton.1 hb).symm
    exact (hrow.carried i k u hik hbind).short b hu

/-- The memory that a read fills holds the members of a row, and its null bits beside those that
the memory had before. A real is the same number: zero may have lost its sign, a NaN its bits. -/
structure HoldsMembers (schema : SqlRDBSchema) (row : Mem) (nullMap map : Option Mem)
    (out : Buffer) (outNull : Option Mem) : Prop where
  member : ∀ i c, schema.cols[i]? = some c → nullBitGet nullMap i = false → c.type ≠ .text →
    c.type ≠ .real → out.data.read c.offset c.size = row.read c.offset c.size
  real : ∀ i c, schema.cols[i]? = some c → nullBitGet nullMap i = false → c.type = .real →
    SameReal (ofBytes 64 (out.data.read c.offset 8)) (ofBytes 64 (row.read c.offset 8))
  text : ∀ i c, schema.cols[i]? = some c → nullBitGet nullMap i = false → c.type = .text →
    out.data.read c.offset (boundedStrlen row c.offset c.size + 1) =
      row.read c.offset (boundedStrlen row c.offset c.size + 1)
  isSome_eq : outNull.isSome = map.isSome
  bits : map.isSome = true → ∀ i c, schema.cols[i]? = some c →
    nullBitGet outNull i = (nullBitGet map i || nullBitGet nullMap i)

variable {row : Mem} {nullMap : Option Mem}

theorem decodedCell_rowValue {j : ℕ} {c : SqlRDBColumnDef} :
    decodedCell dialect (sqlEngine sem) c (rowValue row nullMap j c) =
      rowValue row nullMap j c := by
  rw [rowValue]
  split_ifs
  · rfl
  · cases hty : c.type with
    | int32 => simp [decodedCell, boundValue, hty, sqlEngine, sem.toInt64_int]
    | int64 => simp [decodedCell, boundValue, hty, sqlEngine, sem.toInt64_int]
    | real => simp [decodedCell, boundValue, hty, sqlEngine, sem.toReal_real]
    | text => simp [decodedCell, boundValue, hty, columnText, sqlEngine, sem.toText_text]
    | blob => simp [decodedCell, boundValue, hty, columnBlob, sqlEngine, sem.toBlob_blob]
    | other v => simp [decodedCell, boundValue, hty]

theorem rowValue_eq_null_iff (hl : schema.LaidOut) {j : ℕ} {c : SqlRDBColumnDef}
    (hc : c ∈ schema.cols) : rowValue row nullMap j c = .null ↔ nullBitGet nullMap j = true := by
  rw [rowValue]
  split_ifs with hbit
  · simp [hbit]
  · obtain ⟨v, hv⟩ := exists_boundValue (hl.type_known c hc) row
    have hne : v ≠ .null := fun h => boundValue_ne_null c row (h ▸ hv)
    simp [hv, hne, hbit]

/-- A stored value is the one in memory, or both are reals with the same value. -/
theorem same_rowValue {j : ℕ} {c : SqlRDBColumnDef} {u : SqlValue}
    (hu : u.Same (rowValue row nullMap j c)) : u = rowValue row nullMap j c ∨
      c.type = .real ∧ ∃ x y, u = .real x ∧ rowValue row nullMap j c = .real y ∧ SameReal x y := by
  refine (SqlValue.same_iff.1 hu).imp_right fun ⟨x, y, hx, hy, hxy⟩ => ⟨?_, x, y, hx, hy, hxy⟩
  have hholds : c.Holds (rowValue row nullMap j c) := rowValue_holds j c
  rw [hy] at hholds
  exact hholds

section Row

variable (hwf : schema.WellFormed) (hl : schema.LaidOut) (hrow : Storable sem schema row nullMap)
  {r : Row SqlValue} (hr : RowIs sem schema (memoryVals schema row nullMap) r)

include hr in
theorem RowIs.cell {j : ℕ} {c : SqlRDBColumnDef} (hj : schema.cols[j]? = some c) :
    (r (sem.fold c.name)).Same (rowValue row nullMap j c) := by
  rw [← memoryVals_eq hj]
  exact hr j c hj

include hr in
/-- A member other than a real is decoded as it was bound. -/
theorem RowIs.decodedCell_eq {j : ℕ} {c : SqlRDBColumnDef} (hj : schema.cols[j]? = some c)
    (hc : c.type ≠ .real) :
    decodedCell dialect (sqlEngine sem) c (r (sem.fold c.name)) = rowValue row nullMap j c := by
  obtain heq | ⟨hreal, -⟩ := same_rowValue (hr.cell hj)
  · rw [heq, decodedCell_rowValue]
  · exact absurd hreal hc

variable (dialect) in
include hr in
/-- A real is decoded as one with the same value. -/
theorem RowIs.decodedCell_same {j : ℕ} {c : SqlRDBColumnDef} (hj : schema.cols[j]? = some c) :
    (decodedCell dialect (sqlEngine sem) c (r (sem.fold c.name))).Same
      (rowValue row nullMap j c) := by
  obtain heq | ⟨hreal, x, y, hx, hy, hxy⟩ := same_rowValue (hr.cell hj)
  · rw [heq, decodedCell_rowValue]
    exact .refl _
  · have hdec : decodedCell dialect (sqlEngine sem) c (.real x) = .real x := by
      simp [decodedCell, hreal, sqlEngine, sem.toReal_real]
    rw [hx, hdec, hy]
    exact hxy

include hr hl in
theorem RowIs.eq_null_iff {j : ℕ} {c : SqlRDBColumnDef} (hj : schema.cols[j]? = some c) :
    r (sem.fold c.name) = .null ↔ nullBitGet nullMap j = true := by
  have hnull : rowValue row nullMap j c = .null ↔ _ :=
    rowValue_eq_null_iff hl (List.mem_of_getElem? hj)
  rw [← hnull]
  obtain heq | ⟨-, x, y, hx, hy, -⟩ := same_rowValue (hr.cell hj)
  · rw [heq]
  · simp [hx, hy]

include hl hrow hr in
/-- No member of the row is cut when it is read. -/
theorem RowIs.readCells_code (dst : Buffer) (map : Option Mem) :
    (readCells dialect (sqlEngine sem) (cellOf (rowCells sem schema r)) 0 schema.cols false dst
      map).1 = .ok := by
  rw [readCells_of_laidOut hl]
  refine if_neg fun hcut => ?_
  obtain ⟨j, c, hj, hcut⟩ := cellsCut_eq_true_iff.1 hcut
  rw [Nat.zero_add, decodedVals_eq hj, cellOf_rowCells hj] at hcut
  have hnot : cellCut c (rowValue row nullMap j c) = false :=
    cellCut_rowValue (hrow.terminated c (List.mem_of_getElem? hj))
  obtain heq | ⟨x, y, hx, -, -⟩ := SqlValue.same_iff.1 (hr.decodedCell_same dialect hj)
  · rw [heq, hnot] at hcut
    cases hcut
  · rw [hx] at hcut
    cases hcut

include hwf hl hrow hr in
/-- Memory that holds the stored row holds the members that were written. -/
theorem RowIs.holdsMembers {map outNull : Option Mem} {out : Buffer}
    (hout : HoldsTableRow dialect sem schema r map out outNull) :
    HoldsMembers schema row nullMap map out outNull where
  member i c hi hbit htext hreal := by
    have hc := List.mem_of_getElem? hi
    have hne : rowValue row nullMap i c ≠ .null := by
      rw [Ne, rowValue_eq_null_iff hl hc, hbit]
      exact Bool.false_ne_true
    have hbytes := hout.members c hc _ (hr.decodedCell_eq hi hreal).symm hne
    rwa [cellBytes_rowValue hwf hl hc hbit htext, Mem.length_read] at hbytes
  real i c hi hbit hreal := by
    have hc := List.mem_of_getElem? hi
    have hval : rowValue row nullMap i c = .real (ofBytes 64 (row.read c.offset 8)) := by
      simp [rowValue, hbit, boundValue, hreal]
    have hsame := hr.decodedCell_same dialect hi
    rw [hval] at hsame
    obtain ⟨x, hx, hxy⟩ := SqlValue.same_real_iff.1 hsame
    have hbytes := hout.members c hc _ hx.symm (by rintro ⟨⟩)
    rw [cellBytes, length_bytesOf] at hbytes
    rwa [hbytes, ofBytes_bytesOf x rfl]
  text i c hi hbit htext := by
    have hc := List.mem_of_getElem? hi
    have hne : rowValue row nullMap i c ≠ .null := by
      rw [Ne, rowValue_eq_null_iff hl hc, hbit]
      exact Bool.false_ne_true
    obtain ⟨-, hend⟩ := eq_zero_at_boundedStrlen (hrow.terminated c hc htext)
    have hbytes := hout.members c hc _ (hr.decodedCell_eq hi (by rw [htext]; rintro ⟨⟩)).symm hne
    rw [rowValue_text hbit htext, cellBytes_text (hrow.terminated c hc htext),
      Nat.min_eq_left (hrow.fits i c hi hbit htext), List.length_append, Mem.length_read,
      List.length_singleton] at hbytes
    rw [hbytes, ← hend]
    simp [Mem.read, List.range_succ]
  isSome_eq := hout.map
  bits hmap i c hi := by
    rw [Bool.eq_iff_iff, hout.nulls, Bool.or_eq_true, ← hr.eq_null_iff hl hi]
    refine or_congr_right ⟨?_, fun hnull => ⟨hmap, c, hi, hnull⟩⟩
    rintro ⟨-, c', hi', hnull⟩
    cases hi.symm.trans hi'
    exact hnull

end Row

variable {lookup : CStr → Option SqlRDBSchema} {calm : Prop} {s s' : Model} {reply : Reply}
  {name : CStr} {v : CondValue}

/-- A read of the key of a stored row returns it. -/
theorem StoreStep.read_holdsKey (hwf : schema.WellFormed) (hone : OneKey schema)
    (hl : schema.LaidOut) (hlt : ∀ c ∈ schema.cols, c.offset + c.size < 2 ^ 64)
    (hrow : Storable sem schema row nullMap) (hlook : lookup name = some schema)
    (hv : CondCarried (some (keyCond schema v)))
    (hrefuses : sem.refuses (condStatement .select schema (some (keyCond schema v)) [])
      (storedValues (condValues (some (keyCond schema v)))) s.db = false)
    (h : s.HoldsKey sem schema v.toSql (memoryVals schema row nullMap)) (hcalm : calm)
    {dst : Buffer} {map : Option Mem} {opts : Option SqlRDBReadOpts}
    (hstep : StoreStep dialect sem lookup calm s
      (.read (some name) (some (keyCond schema v)) ⟨some dst, map⟩ opts) reply s') :
    ∃ out outNull, reply = ⟨some .ok, .row ⟨some out, outNull⟩⟩ ∧
      HoldsMembers schema row nullMap map out outNull := by
  obtain ⟨t, hdb, ht⟩ := h
  obtain ⟨r, hfilter, hr⟩ := ht.filter_eq hwf hone
  obtain ⟨res, hans, hrows⟩ := yields_keyCond hwf hone hv hdb ht.tableOf hrefuses
  have hreads : ReadsRow dialect sem schema (s.takesFirst opts) dst map [r] _ :=
    readsRow_readReply hwf hl hlt (s.takesFirst opts) dst map [r]
  rw [hfilter] at hrows
  rw [← hrows] at hreads
  obtain ⟨out, outNull, hreply, hout⟩ := hreads.first r [] rfl (.inl rfl)
  rw [hr.readCells_code hl hrow] at hreply
  cases hstep with
  | meant hmeant =>
    cases hmeant with
    | read hlook' hans' hreply' =>
      cases hlook.symm.trans hlook'
      cases hans.unique hans'
      rw [hreply] at hreply'
      cases hreply'
      exact ⟨out, outNull, rfl, hr.holdsMembers hwf hl hrow hout⟩
  | refused hne hnot => exact absurd (.read hlook hans hreply) (hnot hcalm _ _)
  | nullsLost hcalm' => exact absurd hcalm hcalm'

end Read

/-! ## The round trip -/

/-- **What is written is read back.** On a handle and a database that do not fail, `SqlRDBRead` of
the key of a row that `SqlRDBWrite` has stored returns the members and the null bits of that row,
after any calls in between that do not reach the row: writes of other keys and other structs,
deletions and BLOB fields of other rows, reads, new configurations, and transactions that are begun
and committed. -/
theorem written_row_read_back {dialect : C2SqlDialect} {sem : SqlSemantics}
    {w : Client (Session (Catalog SqlValue))} (hserving : w.handle.Serving dialect sem)
    (hcalm : w.handle.Calm) {name : CStr} {schema : SqlRDBSchema}
    (hlook : w.handle.lookup name = some schema) (hl : schema.LaidOut)
    (hlt : ∀ c ∈ schema.cols, c.offset + c.size < 2 ^ 64) (hone : OneKey schema)
    {t : Table SqlValue} (ht : w.handle.store.contents (sem.fold schema.name) = some t)
    (htable : TableOf sem schema t) {row : Mem} {nullMap : Option Mem}
    (hrow : Storable sem schema row nullMap) {v : CondValue}
    (hkey : writtenKey schema row nullMap = some (pkName schema, v.toSql))
    (hselect : ∀ vs db, sem.refuses
      (condStatement .select schema (some (keyCond schema v)) []) vs db = false)
    {w₁ : Client (Session (Catalog SqlValue))}
    (hwrite : (Call.write (some name) (some row) nullMap).exec
      (driver dialect (sqlEngine sem)) w = (.plain .ok, w₁))
    {cs : List Call} (hcs : ∀ c ∈ cs, c.OnStore w.handle.ctx.conn.faults)
    (hspares : ∀ c ∈ cs, c.Spares sem w.handle.lookup schema v.toSql
      (memoryVals schema row nullMap))
    (hret : Returns (driver dialect (sqlEngine sem)) cs w₁) (dst : Buffer) (map : Option Mem)
    (opts : Option SqlRDBReadOpts) :
    ∃ out outNull,
      ((Call.read (some name) (some (keyCond schema v)) ⟨some dst, map⟩ opts).exec
        (driver dialect (sqlEngine sem)) (run (driver dialect (sqlEngine sem)) cs w₁).2).1 =
        ⟨some .ok, .row ⟨some out, outNull⟩⟩ ∧
      HoldsMembers schema row nullMap map out outNull := by
  have hwf := hserving.schemas name schema hlook
  have hone' := exec_refines hserving (c := .write (some name) (some row) nullMap) trivial
    (by rw [hwrite]; rfl)
  rw [hwrite] at hone'
  have hstored : w₁.handle.model.HoldsKey sem schema v.toSql (memoryVals schema row nullMap) :=
    hone'.step.meant_of_ok.write_holdsKey (s := w.handle.model) hwf hone hlook ht htable
      hrow.carried hkey
  have hrest := run_refines hone'.serving (fun c hc => hone'.faults_eq ▸ hcs c hc) hret
  rw [← hone'.lookup_eq] at hspares hlook
  have hkept := hrest.storeRun.holdsKey hwf hone hspares hstored
  have hread := exec_refines hrest.serving
    (c := .read (some name) (some (keyCond schema v)) ⟨some dst, map⟩ opts) trivial rfl
  rw [← hrest.lookup_eq] at hlook
  have hcalm' := hrest.calm_iff.2 (hone'.calm_iff.2 hcalm)
  exact hread.step.read_holdsKey hwf hone hl hlt hrow hlook (hrow.condCarried_keyCond hkey)
    (hselect _ _) hkept hcalm'

/-- The person 1 is written and the person 2 deleted, in a transaction. -/
def laterCalls : List Call :=
  [.beginTx, .write (some (lit "persons")) (some fun i => if i = 0 then 1 else 0) none,
    .delete (some (lit "persons")) (some (keyCond personsSchema (.int 2))) none, .commitTx]

theorem storable_zeros : Storable plainSemantics personsSchema (fun _ => 0) none where
  carried := carried_of_size _ (by decide +kernel)
  terminated := by
    intro c hc htext
    rw [read_zero]
    refine List.mem_replicate.2 ⟨?_, rfl⟩
    revert c
    decide
  fits i c hi hbit htext := by
    have hsize : ∀ c ∈ personsSchema.cols, c.size ≤ 32 := by decide
    have hlen := (boundedStrlen_le (fun _ => 0) c.offset c.size).trans
      (hsize c (List.mem_of_getElem? hi))
    exact hlen.trans (by norm_num [intMax])

theorem spares_laterCalls : ∀ c ∈ laterCalls, c.Spares plainSemantics emptyTables.lookup
    personsSchema (.int 0) (memoryVals personsSchema (fun _ => 0) none) := by
  have hlook : emptyTables.lookup (lit "persons") = some personsSchema := rfl
  simp only [laterCalls, List.forall_mem_cons, List.not_mem_nil, false_implies, implies_true,
    and_true]
  refine ⟨.other (by rintro ⟨⟩) (by rintro _ _ ⟨⟩), .write hlook ?_, .delete hlook ?_,
    .other (by rintro ⟨⟩) (by rintro _ _ ⟨⟩)⟩
  · intro vs hvs
    have hall : ((rowBinds (fun i => if i = 0 then 1 else 0) none 0 personsSchema.cols).values.all
        fun vs => !hasKey plainSemantics (pkName personsSchema, .int 0)
          (writtenRow plainSemantics personsSchema vs)) = true := by
      decide +kernel
    rw [hvs] at hall
    simpa using hall
  · intro r hr
    have hsame : (r (lit "id")).Same (.int 0) := hr 0 ⟨lit "id", .int32, 0, 4, flagPrimaryKey⟩ rfl
    have hid : r (lit "id") = .int 0 := by
      obtain h | ⟨x, y, -, ⟨⟩, -⟩ := SqlValue.same_iff.1 hsame
      exact h
    change (plainSemantics.cmp .eq (r (lit "id")) (.int 2) == some true) = false
    rw [hid]
    decide

/-- The client after the row of the person 0 has been written. -/
def storedPerson : Client (Session (Catalog SqlValue)) :=
  ((Call.write (some (lit "persons")) (some fun _ => 0) none).exec
    (driver .sqlite (sqlEngine plainSemantics)) ⟨emptyTables, []⟩).2

theorem exec_write {σ : Type} (d : SqlRDBDriver σ) (name : Option CStr) (row nullMap : Option Mem)
    (w : Client σ) : (Call.write name row nullMap).exec d w =
      (.plain (sqlRDBWrite d name row nullMap w.handle).1,
        { w with handle := (sqlRDBWrite d name row nullMap w.handle).2 }) :=
  rfl

theorem write_storedPerson : (Call.write (some (lit "persons")) (some fun _ => 0) none).exec
    (driver .sqlite (sqlEngine plainSemantics)) ⟨emptyTables, []⟩ =
      (.plain .ok, storedPerson) := by
  have hcode : (sqlRDBWrite (driver .sqlite (sqlEngine plainSemantics)) (some (lit "persons"))
      (some fun _ => 0) none emptyTables).1 = .ok := by
    decide +kernel
  rw [storedPerson, exec_write, hcode]

theorem returns_laterCalls :
    Returns (driver .sqlite (sqlEngine plainSemantics)) laterCalls storedPerson := by
  have hcodes : ((run (driver .sqlite (sqlEngine plainSemantics)) laterCalls storedPerson).1.map
      fun reply => reply.code) = List.replicate 4 (some .ok) := by
    decide +kernel
  exact returns_of_codes hcodes (by decide)

theorem written_row_read_back_persons :
    Returns (driver .sqlite (sqlEngine plainSemantics)) laterCalls storedPerson ∧
      ∀ dst map opts, ∃ out outNull,
        ((Call.read (some (lit "persons")) (some (keyCond personsSchema (.int 0))) ⟨some dst, map⟩
          opts).exec (driver .sqlite (sqlEngine plainSemantics))
            (run (driver .sqlite (sqlEngine plainSemantics)) laterCalls storedPerson).2).1 =
          ⟨some .ok, .row ⟨some out, outNull⟩⟩ ∧
        HoldsMembers personsSchema (fun _ => 0) none map out outNull := by
  refine ⟨returns_laterCalls, written_row_read_back (w := ⟨emptyTables, []⟩) serving_emptyTables
    ⟨fun _ _ => rfl, fun _ => rfl⟩ (show emptyTables.lookup (lit "persons") = _ from rfl)
    personsSchema_laidOut (by decide) oneKey_personsSchema
    (show emptyTables.store.contents (lit "persons") = _ from rfl)
    (tableOf_createdTable (by decide)) storable_zeros (by decide) (fun _ _ => rfl)
    write_storedPerson ?_ spares_laterCalls returns_laterCalls⟩
  simp [laterCalls, Call.OnStore]

end C2Sql
