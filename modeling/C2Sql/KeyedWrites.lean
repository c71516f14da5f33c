import C2Sql.Selection

/-!
# A write is the update of a keyed map

`SqlRDBWrite` of a struct with a primary key, on an engine of tables.

* `TableOf`: a table that belongs to a schema;
* `OneKey`: a schema with one key column, not nullable, and another column;
* `KeyedUpdate`: what a write is meant to do to the table;
* `Carried`: the values of a row are such that the drivers and the engine keep them;
* `write_keyedUpdate_iff`: writes do it if their rows are carried, and only then if they succeed.
-/

namespace C2Sql

open SqlText StateLogic

/-! ## Tables of a schema -/

/-- The type of the values of a column. -/
def SqlRDBType.valueType : SqlRDBType → ValueType
  | .int32 => .int
  | .int64 => .int
  | .real => .real
  | .text => .text
  | .blob => .blob
  | .other _ => .null

/-- A table that belongs to a schema: it has its columns under names that the engine distinguishes,
its primary key is what the schema flags, no two rows have the same key, and the rows have values
that the engine can hold, of the types of their columns. -/
structure TableOf (sem : SqlSemantics) (schema : SqlRDBSchema) (t : Table SqlValue) : Prop where
  has_col : ∀ c ∈ schema.cols, sem.has t c.name = true
  nodup : (schema.cols.map fun c => sem.fold c.name).Nodup
  key_eq : sem.key t = (schema.cols.filter fun c => c.pk).map fun c => sem.fold c.name
  unique : sem.KeysUnique t
  held : ∀ r ∈ t.rows, ∀ n, (r n).Holdable sem.keepsNaN
  typed : ∀ r ∈ t.rows, ∀ c ∈ schema.cols,
    r (sem.fold c.name) = .null ∨ (r (sem.fold c.name)).type = c.type.valueType

/-- Exactly one column is flagged as the primary key. -/
def OneFlag (s : SqlRDBSchema) : Prop := ∃ k, (s.cols.filter fun c => c.pk) = [k]

/-- Exactly one column is the primary key, it is not nullable, and there is another column. -/
structure OneKey (s : SqlRDBSchema) : Prop where
  one : OneFlag s
  not_nullable : ∀ c ∈ s.cols, c.pk = true → c.nullable = false
  other : ∃ c ∈ s.cols, c.pk = false

/-- The key column is the one at `pk_index`, and the SET list has the others. -/
theorem OneFlag.spec {s : SqlRDBSchema} (h : OneFlag s) (hs : s.WellFormed) :
    ∃ i k, s.pkIndex = some i ∧ s.cols[i]? = some k ∧ k.pk = true ∧
      (s.cols.filter fun c => c.pk) = [k] ∧ pkName s = k.name ∧
      nonPkCols s = s.cols.filter fun c => !c.pk := by
  obtain ⟨k, hk⟩ := h
  obtain ⟨i, hi, hik, hkpk, hname, hset⟩ := exists_of_filter_pk hs hk
  exact ⟨i, k, hi, hik, hkpk, hk, hname, hset⟩

/-! ## The statement of a write -/

section Statement

variable (sem : SqlSemantics) (schema : SqlRDBSchema)

/-- The row of the values `vs`. -/
def writtenRow (vs : List SqlValue) : Row SqlValue :=
  sem.newRow (schema.cols.map fun c => c.name) (List.range' 1 schema.cols.length) vs

/-- Two rows have the same value in the key column. -/
def sameKeyOf : Row SqlValue → Row SqlValue → Bool := sem.sameKey [sem.fold (pkName schema)]

/-- A row with the other columns of a new one. -/
def mergeOf : Row SqlValue → Row SqlValue → Row SqlValue :=
  sem.merged (((nonPkCols schema).map fun c => c.name).map fun c => (c, c))

/-- The rows of a table after the values `vs` have been written. -/
def writtenRows (vs : List SqlValue) (t : Table SqlValue) : List (Row SqlValue) :=
  sem.order t
    (upsertRows (sameKeyOf sem schema) (mergeOf sem schema) (writtenRow sem schema vs) t.rows)

/-- The table after the values `vs` have been written. -/
def writtenTable (vs : List SqlValue) (t : Table SqlValue) : Table SqlValue :=
  { t with rows := writtenRows sem schema vs t }

variable {sem schema} {t : Table SqlValue} {vs : List SqlValue}

theorem writtenRows_perm : (writtenRows sem schema vs t).Perm
    (upsertRows (sameKeyOf sem schema) (mergeOf sem schema) (writtenRow sem schema vs) t.rows) :=
  sem.order_perm _ _

theorem writtenRow_eq (hnd : (schema.cols.map fun c => sem.fold c.name).Nodup) {j : ℕ}
    {c : SqlRDBColumnDef} {u : SqlValue} (hc : schema.cols[j]? = some c) (hu : vs[j]? = some u) :
    writtenRow sem schema vs (sem.fold c.name) = sem.bound u := by
  have hlt := (List.getElem?_eq_some_iff.1 hc).1
  rw [writtenRow, Semantics.newRow_eq (i := j) (k := 1 + j) (by rwa [List.map_map])
    (by rw [List.getElem?_map, hc]; rfl) (by simp [hlt]), Semantics.param,
    show 1 + j - 1 = j by omega, hu]
  rfl

theorem mergeOf_eq (r new : Row SqlValue) (n : CStr) :
    mergeOf sem schema r new n =
      if n ∈ (nonPkCols schema).map (fun c => sem.fold c.name) then new n else r n := by
  rw [mergeOf, Semantics.merged_eq, List.map_map]
  rfl

variable (hs : schema.WellFormed) (hone : OneFlag schema) (ht : TableOf sem schema t)

include hs hone ht

theorem keyed_writtenRows : Keyed (sameKeyOf sem schema) (mergeOf sem schema) := by
  obtain ⟨i, k, -, hik, hkpk, -, hname, hset⟩ := hone.spec hs
  refine Semantics.keyed_sameKey fun n hn => ?_
  rw [List.mem_singleton.1 hn, hname, hset, List.map_map]
  intro hmem
  obtain ⟨c, hc, hfold⟩ := List.mem_map.1 hmem
  obtain ⟨hc, hpk⟩ := List.mem_filter.1 hc
  have hinj := List.inj_on_of_nodup_map ht.nodup hc (List.mem_of_getElem? hik) hfold
  rw [hinj, hkpk] at hpk
  cases hpk

/-- **The statement of a write updates the rows as a keyed map.** -/
theorem exec_writeStatement {db : Catalog SqlValue} (hdb : db (sem.fold schema.name) = some t)
    {res : Result SqlValue} (h : sem.exec (writeStatement schema) vs db = some res) :
    res.db = Function.update db (sem.fold schema.name)
      (some (writtenTable sem schema vs t)) := by
  obtain ⟨i, k, hi, hik, hkpk, hfilter, hname, hset⟩ := hone.spec hs
  obtain ⟨-, heff⟩ := Semantics.effect_of_exec h
  rw [writeStatement, hi, if_pos (show (some i).isSome = true from rfl), insertStatement,
    Semantics.effect_insert_iff] at heff
  obtain ⟨t', rows, ht', -, hrows, -, rfl⟩ := heff
  cases hdb.symm.trans ht'
  have htarget : (upsertOf schema).target.map sem.fold = sem.key t := by
    rw [ht.key_eq, hfilter, upsertOf, hname]
    rfl
  rw [Semantics.inserted] at hrows
  split_ifs at hrows
  cases hrows
  rw [← htarget]
  simp only [writtenTable, writtenRows, sameKeyOf, mergeOf, upsertOf, List.map_map]
  rfl

end Statement

/-- The table that `CREATE` makes of a schema. -/
def createdTable (dialect : C2SqlDialect) (schema : SqlRDBSchema) : Table SqlValue :=
  ⟨schema.cols.map (columnDeclOf dialect), []⟩

/-- What `CREATE` makes of a schema is a table of it. -/
theorem tableOf_createdTable {sem : SqlSemantics} {dialect : C2SqlDialect} {schema : SqlRDBSchema}
    (hnd : (schema.cols.map fun c => sem.fold c.name).Nodup) :
    TableOf sem schema (createdTable dialect schema) where
  has_col c hc := by
    rw [Semantics.has, createdTable, List.any_map]
    exact List.any_eq_true.2 ⟨c, hc, by simp [columnDeclOf]⟩
  nodup := hnd
  key_eq := by
    rw [Semantics.key, createdTable, List.filter_map, List.map_map]
    rfl
  unique := List.Pairwise.nil
  held _ hr := absurd hr List.not_mem_nil
  typed _ hr := absurd hr List.not_mem_nil

/-! ## The keyed update -/

section Update

variable (sem : SqlSemantics) (schema : SqlRDBSchema) (row : Mem) (nullMap : Option Mem)

/-- The name of the key column and what `bind_row` supplies for it. -/
def writtenKey : Option (CStr × SqlValue) := do
  let i ← schema.pkIndex
  let k ← schema.cols[i]?
  match colBind row nullMap i k with
  | .ok v => some (k.name, v)
  | .error _ => none

/-- A row has the given key. -/
def hasKey (kv : CStr × SqlValue) (r : Row SqlValue) : Bool :=
  sem.cmp .eq (r (sem.fold kv.1)) kv.2 == some true

/-- Exactly one row has the written key, its columns are what `bind_row` supplies for them, and the
rows with other keys are those of before. -/
def KeyedUpdate (t t' : Table SqlValue) : Prop :=
  ∃ kv, writtenKey schema row nullMap = some kv ∧
    (∃ r, t'.rows.filter (hasKey sem kv) = [r] ∧ ∀ (j : ℕ) (c : SqlRDBColumnDef) (v : SqlValue),
      schema.cols[j]? = some c → colBind row nullMap j c = .ok v → (r (sem.fold c.name)).Same v) ∧
    (t'.rows.filter fun r => !hasKey sem kv r).Perm (t.rows.filter fun r => !hasKey sem kv r)

/-- Every value that is bound can be held: the BLOBs have fewer than `2 ^ 31` bytes, and no real is
a NaN unless the engine keeps them. -/
def Carried : Prop :=
  ∀ (j : ℕ) (c : SqlRDBColumnDef) (v : SqlValue), schema.cols[j]? = some c →
    colBind row nullMap j c = .ok v → v.Holdable sem.keepsNaN

end Update

theorem boundValue_ne_null (col : SqlRDBColumnDef) (row : Mem) :
    boundValue col row ≠ some .null := by
  unfold boundValue
  cases col.type <;> simp

/-- A column that is not nullable is not bound to NULL. -/
theorem colBind_ne_null {row : Mem} {nullMap : Option Mem} {i : ℕ} {col : SqlRDBColumnDef}
    (hnull : col.nullable = false) : colBind row nullMap i col ≠ .ok .null := by
  rw [colBind, hnull]
  cases hb : boundValue col row with
  | none => split_ifs <;> simp_all
  | some v =>
    have hv : v ≠ .null := fun h => boundValue_ne_null col row (h ▸ hb)
    split_ifs <;> simp_all

/-- What is bound for a column is NULL or has its type. -/
theorem colBind_type {row : Mem} {nullMap : Option Mem} {i : ℕ} {col : SqlRDBColumnDef}
    {v : SqlValue} (h : colBind row nullMap i col = .ok v) :
    v = .null ∨ v.type = col.type.valueType := by
  unfold colBind boundValue at h
  split_ifs at h
  · cases h
    exact .inl rfl
  · cases htype : col.type <;> simp only [htype] at h <;> cases h <;> exact .inr rfl

section Written

variable {sem : SqlSemantics} {schema : SqlRDBSchema} {row : Mem} {nullMap : Option Mem}
  {t : Table SqlValue} {vs : List SqlValue} (hs : schema.WellFormed) (hone : OneKey schema)
  (ht : TableOf sem schema t)
  (hvals : (rowBinds row nullMap 0 schema.cols).values = some vs)
  (hc : Carried sem schema row nullMap)

theorem sameKeyOf_eq (r new : Row SqlValue) :
    sameKeyOf sem schema r new = hasKey sem (pkName schema, new (sem.fold (pkName schema))) r := by
  simp [sameKeyOf, hasKey, Semantics.sameKey]

include hs ht in
theorem TableOf.pairwise (hone : OneFlag schema) :
    t.rows.Pairwise fun a b => sameKeyOf sem schema a b = false := by
  obtain ⟨i, k, -, -, -, hfilter, hname, -⟩ := hone.spec hs
  have hu := ht.unique
  rw [Semantics.KeysUnique, ht.key_eq, hfilter] at hu
  rw [sameKeyOf, hname]
  exact hu

section Row

include hvals

/-- What is written into a column. -/
theorem writtenRow_of_colBind (hnd : (schema.cols.map fun c => sem.fold c.name).Nodup) {j : ℕ}
    {c : SqlRDBColumnDef} (hj : schema.cols[j]? = some c) :
    ∃ v, colBind row nullMap j c = .ok v ∧
      writtenRow sem schema vs (sem.fold c.name) = sem.taken v := by
  obtain ⟨v, hv, hvs⟩ := (values_rowBinds hvals).2 j c hj
  rw [Nat.zero_add] at hv
  exact ⟨v, hv, writtenRow_eq hnd hj hvs⟩

omit hvals in
/-- The values of a written row can be held. -/
theorem writtenRow_held (n : CStr) : (writtenRow sem schema vs n).Holdable sem.keepsNaN := by
  rw [writtenRow, Semantics.newRow]
  split
  · exact sem.bound_holdable _
  · rw [sem.null_eq]
    trivial

/-- The values of a written row have the types of their columns. -/
theorem writtenRow_typed (hnd : (schema.cols.map fun c => sem.fold c.name).Nodup)
    {c : SqlRDBColumnDef} (hmem : c ∈ schema.cols) :
    writtenRow sem schema vs (sem.fold c.name) = .null ∨
      (writtenRow sem schema vs (sem.fold c.name)).type = c.type.valueType := by
  obtain ⟨j, hj⟩ := List.mem_iff_getElem?.1 hmem
  obtain ⟨v, hv, hrow⟩ := writtenRow_of_colBind hvals hnd hj
  rw [hrow]
  obtain rfl | htype := colBind_type hv
  · exact .inl SqlSemantics.bound_null
  · rw [← htype]
    exact SqlSemantics.taken_type v

end Row

section Carried

include hs hone hvals hc

/-- The key that is bound is no NULL, and taken as it is. -/
theorem writtenKey_of_carried (hnd : (schema.cols.map fun c => sem.fold c.name).Nodup) :
    ∃ v, writtenKey schema row nullMap = some (pkName schema, v) ∧ v ≠ .null ∧
      v.Holdable sem.keepsNaN ∧
      writtenRow sem schema vs (sem.fold (pkName schema)) = sem.taken v := by
  obtain ⟨i, k, hi, hik, hkpk, -, hname, -⟩ := hone.one.spec hs
  obtain ⟨v, hv, hrow⟩ := writtenRow_of_colBind hvals hnd hik
  refine ⟨v, by simp [writtenKey, hi, hik, hv, hname], fun hnull => ?_, hc i k v hik hv, ?_⟩
  · exact colBind_ne_null (hone.not_nullable k (List.mem_of_getElem? hik) hkpk) (hnull ▸ hv)
  · rw [hname, hrow]

/-- A row has the written key if it has that of the written row. -/
theorem hasKey_writtenKey (hnd : (schema.cols.map fun c => sem.fold c.name).Nodup) :
    ∃ kv, writtenKey schema row nullMap = some kv ∧
      hasKey sem kv = fun r => sameKeyOf sem schema r (writtenRow sem schema vs) := by
  obtain ⟨v, hkey, -, hheld, hrow⟩ := writtenKey_of_carried hs hone hvals hc hnd
  refine ⟨_, hkey, funext fun r => ?_⟩
  rw [sameKeyOf_eq, hasKey, hasKey, hrow, SqlSemantics.cmp_taken _ _ hheld.short]

/-- The written row has a key. -/
theorem sameKeyOf_self (hnd : (schema.cols.map fun c => sem.fold c.name).Nodup) :
    sameKeyOf sem schema (writtenRow sem schema vs) (writtenRow sem schema vs) = true := by
  obtain ⟨v, -, hnull, hheld, hrow⟩ := writtenKey_of_carried hs hone hvals hc hnd
  have htaken : sem.taken v ≠ .null := by
    intro h
    obtain h' | ⟨x, y, hx, -, -⟩ := SqlValue.same_iff.1 (SqlSemantics.taken_same hheld)
    · exact hnull (h'.symm.trans h)
    · cases h.symm.trans hx
  rw [sameKeyOf_eq, hasKey, hrow, sem.eq_self (SqlSemantics.taken_holdable v) htaken]
  rfl

include ht

/-- The columns of the row with the written key. -/
theorem filter_writtenRows :
    ∃ r, (writtenRows sem schema vs t).filter
        (fun r => sameKeyOf sem schema r (writtenRow sem schema vs)) = [r] ∧
      ∀ c ∈ schema.cols,
        (r (sem.fold c.name)).Same (writtenRow sem schema vs (sem.fold c.name)) := by
  have hk := keyed_writtenRows hs hone.one ht
  have hperm : ((writtenRows sem schema vs t).filter fun r =>
      sameKeyOf sem schema r (writtenRow sem schema vs)).Perm _ := writtenRows_perm.filter _
  rw [hk.filter_same_upsertRows (sameKeyOf_self hs hone hvals hc ht.nodup)] at hperm
  obtain hnil | ⟨r, hr⟩ := hk.filter_eq (ht.pairwise hs hone.one) (writtenRow sem schema vs)
  · rw [if_pos hnil, List.perm_singleton] at hperm
    exact ⟨_, hperm, fun _ _ => .refl _⟩
  · rw [hr, if_neg (List.cons_ne_nil _ _), List.map_singleton, List.perm_singleton] at hperm
    refine ⟨_, hperm, fun c hmem => ?_⟩
    obtain ⟨i, k, -, hik, hkpk, hfilter, hname, hset⟩ := hone.one.spec hs
    rw [mergeOf_eq]
    split_ifs with hin
    · exact .refl _
    · -- the key column keeps its value, which equals the written one
      have hpk : c.pk = true := by
        by_contra hpk
        refine hin ?_
        rw [hset]
        exact List.mem_map_of_mem (List.mem_filter.2 ⟨hmem, by simpa using hpk⟩)
      have hck : c = k := by
        have hc : c ∈ schema.cols.filter fun c => c.pk := List.mem_filter.2 ⟨hmem, hpk⟩
        rw [hfilter] at hc
        exact List.mem_singleton.1 hc
      obtain ⟨hold, hsame⟩ := List.mem_filter.1
        (show r ∈ t.rows.filter fun r => sameKeyOf sem schema r (writtenRow sem schema vs) by
          rw [hr]; exact List.mem_singleton_self r)
      rw [sameKeyOf_eq, hasKey, hname, ← hck, beq_iff_eq] at hsame
      have htype := (ht.typed r hold c hmem).resolve_left (sem.ne_null hsame)
      have htype' := (writtenRow_typed hvals ht.nodup hmem).resolve_left
        (sem.ne_null (sem.eq_symm hsame))
      exact sem.eq_same hsame (htype.trans htype'.symm)

/-- The rows after a write are a keyed update if the values can be held. -/
theorem keyedUpdate_of_carried :
    KeyedUpdate sem schema row nullMap t (writtenTable sem schema vs t) := by
  obtain ⟨kv, hkv, hhas⟩ := hasKey_writtenKey hs hone hvals hc ht.nodup
  obtain ⟨r, hr, hcols⟩ := filter_writtenRows hs hone ht hvals hc
  refine ⟨kv, hkv, ⟨r, by rw [hhas]; exact hr, fun j c v hj hv => ?_⟩, ?_⟩
  · obtain ⟨v', hv', hrow⟩ := writtenRow_of_colBind hvals ht.nodup hj
    cases hv.symm.trans hv'
    refine (hcols c (List.mem_of_getElem? hj)).trans ?_
    rw [hrow]
    exact SqlSemantics.taken_same (hc j c v hj hv)
  · rw [hhas]
    refine (writtenRows_perm.filter _).trans (.of_eq ?_)
    exact (keyed_writtenRows hs hone.one ht).filter_other_upsertRows
      (sameKeyOf_self hs hone hvals hc ht.nodup)

/-- Repeating a write gives the same rows. -/
theorem writtenRows_idem :
    (writtenTable sem schema vs (writtenTable sem schema vs t)).rows.Perm
      (writtenTable sem schema vs t).rows := by
  refine writtenRows_perm.trans (.of_eq ?_)
  refine (keyed_writtenRows hs hone.one ht).upsertRows_idem
    (sameKeyOf_self hs hone hvals hc ht.nodup) (fun r => funext fun n => ?_) (funext fun n => ?_)
    writtenRows_perm
  · rw [mergeOf_eq, mergeOf_eq]
    split_ifs <;> rfl
  · rw [mergeOf_eq, ite_self]

end Carried

/-- A row after a write is one of before, merged with the written one or not, or the written one. -/
theorem forall_writtenRows {P : Row SqlValue → Prop} (hold : ∀ r ∈ t.rows, P r)
    (hmerge : ∀ r ∈ t.rows, P (mergeOf sem schema r (writtenRow sem schema vs)))
    (hnew : P (writtenRow sem schema vs)) : ∀ r ∈ writtenRows sem schema vs t, P r := by
  intro r hr
  rw [writtenRows_perm.mem_iff, upsertRows_eq] at hr
  rcases List.mem_append.1 hr with hr | hr
  · obtain ⟨r, hmem, rfl⟩ := List.mem_map.1 hr
    split_ifs
    · exact hmerge r hmem
    · exact hold r hmem
  · split_ifs at hr
    · cases hr
    · rw [List.mem_singleton.1 hr]
      exact hnew

include hs hvals ht

/-- The table of a schema is one after a write. -/
theorem TableOf.write (hone : OneFlag schema) :
    TableOf sem schema (writtenTable sem schema vs t) := by
  refine ⟨ht.has_col, ht.nodup, ht.key_eq, ?_, ?_, ?_⟩
  · obtain ⟨i, k, -, -, -, hfilter, hname, -⟩ := hone.spec hs
    have hp : (upsertRows (sameKeyOf sem schema) (mergeOf sem schema) (writtenRow sem schema vs)
        t.rows).Pairwise fun a b => sameKeyOf sem schema a b = false :=
      (keyed_writtenRows hs hone ht).pairwise_upsertRows (ht.pairwise hs hone)
    have hkey : sem.key t = [sem.fold (pkName schema)] := by
      rw [ht.key_eq, hfilter, hname]
      rfl
    have hu : sem.KeysUnique ⟨t.columns, upsertRows (sameKeyOf sem schema) (mergeOf sem schema)
        (writtenRow sem schema vs) t.rows⟩ := by
      change List.Pairwise (fun a b => sem.sameKey (sem.key t) a b = false) _
      rw [hkey]
      exact hp
    exact hu.perm writtenRows_perm
  · refine forall_writtenRows ht.held (fun r hr n => ?_) writtenRow_held
    rw [mergeOf_eq]
    split_ifs
    · exact writtenRow_held n
    · exact ht.held r hr n
  · refine forall_writtenRows ht.typed (fun r hr c hmem => ?_) fun c hmem =>
      writtenRow_typed hvals ht.nodup hmem
    rw [mergeOf_eq]
    split_ifs
    · exact writtenRow_typed hvals ht.nodup hmem
    · exact ht.typed r hr c hmem

/-- The values of a keyed update can be held: the engine holds no others. -/
theorem carried_of_keyedUpdate (hone : OneFlag schema)
    (hu : KeyedUpdate sem schema row nullMap t
      (writtenTable sem schema vs t)) : Carried sem schema row nullMap := by
  obtain ⟨kv, -, ⟨r, hr, hcols⟩, -⟩ := hu
  have hmem := (List.mem_filter.1
    (show r ∈ (writtenTable sem schema vs t).rows.filter (hasKey sem kv) by
      rw [hr]; exact List.mem_singleton_self r)).1
  intro j c v hj hv
  exact ((ht.write hs hvals hone).held r hmem _).of_same (hcols j c v hj hv)

/-- An engine that does not refuse the statement of a write executes it. -/
theorem exists_exec_writeStatement (hone : OneFlag schema) {db : Catalog SqlValue}
    (hdb : db (sem.fold schema.name) = some t)
    (hrefuses : sem.refuses (writeStatement schema) vs db = false) :
    ∃ res, sem.exec (writeStatement schema) vs db = some res := by
  obtain ⟨i, k, hi, hik, hkpk, hfilter, hname, hset⟩ := hone.spec hs
  rw [Semantics.exec, hrefuses, if_neg Bool.false_ne_true, writeStatement, hi,
    if_pos (show (some i).isSome = true from rfl), insertStatement]
  have hkey : (upsertOf schema).target.map sem.fold = sem.key t := by
    rw [ht.key_eq, hfilter, upsertOf, hname]
    rfl
  have hsets : (upsertOf schema).sets.all (fun p => sem.has t p.1 && sem.has t p.2) = true := by
    rw [List.all_eq_true]
    intro p hp
    obtain ⟨c, hc, rfl⟩ := List.mem_map.1 hp
    have hmem : c ∈ schema.cols := by
      rw [hset] at hc
      exact (List.mem_filter.1 hc).1
    simp [ht.has_col c hmem]
  refine ⟨_, Semantics.effect_insert_iff.2 ⟨t, writtenRows sem schema vs t, hdb,
    ⟨by simp, ?_⟩, ?_, (ht.write hs hvals hone).unique, rfl⟩⟩
  · rw [List.all_map]
    exact List.all_eq_true.2 fun c hc => ht.has_col c hc
  · rw [Semantics.inserted, if_pos ⟨hkey, hsets⟩, ← hkey]
    simp only [writtenRows, sameKeyOf, mergeOf, upsertOf, List.map_map]
    rfl

end Written

/-! ## Calls -/

/-- A handle over a table of the schema `schema`. -/
structure OverTable (dialect : C2SqlDialect) (sem : SqlSemantics) (name : CStr)
    (schema : SqlRDBSchema) (t : Table SqlValue) (h : TableHandle) : Prop where
  sound : CacheSound dialect (sqlEngine sem) h
  valid : h.valid = true
  lookup : h.lookup name = some schema
  table : h.store.contents (sem.fold schema.name) = some t
  tableOf : TableOf sem schema t

/-- `SqlRDBWrite` of a row with its null map. -/
def writeRow (dialect : C2SqlDialect) (sem : SqlSemantics) (name : CStr) (x : Mem × Option Mem) :
    StateM TableHandle SqlRDBResult :=
  sqlRDBWrite (driver dialect (sqlEngine sem)) (some name) (some x.1) x.2

section Calls

variable (dialect : C2SqlDialect) (sem : SqlSemantics) (name : CStr) (schema : SqlRDBSchema)
  (t : Table SqlValue) (h : TableHandle)

/-- Two catalogs that have the same rows in the table of the schema, and elsewhere what there has
been before. -/
def SameRows (db₁ db₂ : Catalog SqlValue) : Prop :=
  ∃ t₁ t₂, t₁.columns = t.columns ∧ t₂.columns = t.columns ∧ t₁.rows.Perm t₂.rows ∧
    db₁ = Function.update h.store.contents (sem.fold schema.name) (some t₁) ∧
    db₂ = Function.update h.store.contents (sem.fold schema.name) (some t₂)

/-- A write is a keyed update of the table, a failed one changes nothing, and writing the same row
again changes nothing. -/
structure WritesKey (x : Mem × Option Mem) : Prop where
  update : (writeRow dialect sem name x h).1 = .ok → ∃ t', t'.columns = t.columns ∧
    (writeRow dialect sem name x h).2.store.contents =
      Function.update h.store.contents (sem.fold schema.name) (some t') ∧
    KeyedUpdate sem schema x.1 x.2 t t'
  error : (writeRow dialect sem name x h).1 ≠ .ok →
    (writeRow dialect sem name x h).2.store.contents = h.store.contents
  again : (writeRow dialect sem name x h).1 = .ok →
    SameRows sem schema t h (writeRow dialect sem name x h).2.store.contents
      (writeRow dialect sem name x (writeRow dialect sem name x h).2).2.store.contents

/-- Two writes of different keys give the same rows in either order, if both orders succeed. -/
def WritesCommute (x y : Mem × Option Mem) : Prop :=
  let first := writeRow dialect sem name x h
  let second := writeRow dialect sem name y first.2
  let first' := writeRow dialect sem name y h
  let second' := writeRow dialect sem name x first'.2
  (∀ k k', writtenKey schema x.1 x.2 = some k → writtenKey schema y.1 y.2 = some k' →
    sem.cmp .eq k.2 k'.2 ≠ some true) →
  first.1 = .ok → second.1 = .ok → first'.1 = .ok → second'.1 = .ok →
    SameRows sem schema t h second.2.store.contents second'.2.store.contents

/-- Writes of the two rows are updates of a keyed map. -/
structure WritesMap (x y : Mem × Option Mem) : Prop where
  left : WritesKey dialect sem name schema t h x
  right : WritesKey dialect sem name schema t h y
  commute : WritesCommute dialect sem name schema t h x y

/-- The row can be bound, and the engine does not refuse the statement. -/
def CanWrite (x : Mem × Option Mem) : Prop :=
  ∃ vs, (rowBinds x.1 x.2 0 schema.cols).values = some vs ∧
    sem.refuses (writeStatement schema) vs h.store.contents = false

variable {dialect sem name schema t h} (hs : schema.WellFormed) (hone : OneKey schema)
  (hh : OverTable dialect sem name schema t h)

include hs hone in
/-- There is a column to set. -/
theorem OneKey.nonPkCols_ne_nil : nonPkCols schema ≠ [] := by
  obtain ⟨i, k, -, -, -, -, -, hset⟩ := hone.one.spec hs
  obtain ⟨c, hc, hpk⟩ := hone.other
  rw [hset]
  exact List.ne_nil_of_mem (List.mem_filter.2 ⟨hc, by simp [hpk]⟩)

include hs hone hh

/-- **One write**: the handle is over the table with the written rows, or over that of before. -/
theorem writeRow_spec (x : Mem × Option Mem) :
    wp (writeRow dialect sem name x) (fun r h' =>
      (r ≠ .ok → OverTable dialect sem name schema t h' ∧
        h'.store.contents = h.store.contents) ∧
      (r = .ok → ∃ vs, (rowBinds x.1 x.2 0 schema.cols).values = some vs ∧
        OverTable dialect sem name schema (writtenTable sem schema vs t) h' ∧
        h'.store.contents = Function.update h.store.contents (sem.fold schema.name)
          (some (writtenTable sem schema vs t)))) h := by
  refine wp_mono (write_outcome hh.sound hh.valid hh.lookup hs x.1 x.2) ?_
  rintro r h' ⟨hsound, hframe, -, -, herr, hok⟩
  have hvalid := (SqlRDBHandle.valid_of_frame hframe).trans hh.valid
  have hlookup := (SqlRDBHandle.lookup_of_frame hframe name).trans hh.lookup
  refine ⟨fun hr => ⟨⟨hsound, hvalid, hlookup, ?_, hh.tableOf⟩, herr hr⟩, fun hr => ?_⟩
  · rw [herr hr]
    exact hh.table
  · obtain ⟨vs, o, hvals, hrun, hdb⟩ := hok hr
    obtain ⟨s, res, hparsed, hexec, rfl⟩ := sqlEngine_run_iff.1 hrun
    rw [parsed_writeSql hs dialect fun _ => hone.nonPkCols_ne_nil hs] at hparsed
    cases hparsed
    have hcontents := hdb.trans (exec_writeStatement hs hone.one hh.tableOf hh.table hexec)
    refine ⟨vs, hvals, ⟨hsound, hvalid, hlookup, ?_, hh.tableOf.write hs hvals hone.one⟩, hcontents⟩
    rw [hcontents, Function.update_self]

/-- A write is a keyed update if the values of its row can be held. -/
theorem writesKey_of_carried {x : Mem × Option Mem} (hx : Carried sem schema x.1 x.2) :
    WritesKey dialect sem name schema t h x := by
  have hspec := writeRow_spec hs hone hh x
  refine ⟨fun hok => ?_, fun herr => (hspec.1 herr).2, fun hok => ?_⟩
  · obtain ⟨vs, hvals, -, hcontents⟩ := hspec.2 hok
    exact ⟨writtenTable sem schema vs t, rfl, hcontents,
      keyedUpdate_of_carried hs hone hh.tableOf hvals hx⟩
  · obtain ⟨vs, hvals, hh', hcontents⟩ := hspec.2 hok
    have hspec' := writeRow_spec hs hone hh' x
    by_cases hok' : (writeRow dialect sem name x (writeRow dialect sem name x h).2).1 = .ok
    · obtain ⟨vs', hvals', hh'', hcontents'⟩ := hspec'.2 hok'
      cases hvals.symm.trans hvals'
      rw [hcontents, Function.update_idem] at hcontents'
      have hidem := writtenRows_idem hs hone hh.tableOf hvals hx
      exact ⟨writtenTable sem schema vs t,
        writtenTable sem schema vs (writtenTable sem schema vs t), rfl, rfl, hidem.symm, hcontents,
        hcontents'⟩
    · exact ⟨writtenTable sem schema vs t, writtenTable sem schema vs t, rfl, rfl, .refl _,
        hcontents, (hspec'.1 hok').2.trans hcontents⟩

/-- The values of a successful keyed update can be held. -/
theorem carried_of_writesKey {x : Mem × Option Mem} (hw : WritesKey dialect sem name schema t h x)
    (hok : (writeRow dialect sem name x h).1 = .ok) : Carried sem schema x.1 x.2 := by
  obtain ⟨t', -, hc, hu⟩ := hw.update hok
  obtain ⟨vs, hvals, -, hcontents⟩ := (writeRow_spec hs hone hh x).2 hok
  have ht' := congrFun (hc.symm.trans hcontents) (sem.fold schema.name)
  rw [Function.update_self, Function.update_self, Option.some.injEq] at ht'
  subst ht'
  exact carried_of_keyedUpdate hs hh.tableOf hvals hone.one hu

/-- Two writes one after the other. -/
theorem writeRow_twice {x y : Mem × Option Mem} (hx : (writeRow dialect sem name x h).1 = .ok)
    (hy : (writeRow dialect sem name y (writeRow dialect sem name x h).2).1 = .ok) :
    ∃ vs vs' t₂, (rowBinds x.1 x.2 0 schema.cols).values = some vs ∧
      (rowBinds y.1 y.2 0 schema.cols).values = some vs' ∧
      t₂.columns = t.columns ∧
      t₂.rows.Perm (upsertRows (sameKeyOf sem schema) (mergeOf sem schema)
        (writtenRow sem schema vs') (upsertRows (sameKeyOf sem schema) (mergeOf sem schema)
          (writtenRow sem schema vs) t.rows)) ∧
      (writeRow dialect sem name y (writeRow dialect sem name x h).2).2.store.contents =
        Function.update h.store.contents (sem.fold schema.name) (some t₂) := by
  obtain ⟨vs, hvals, hh', hcontents⟩ := (writeRow_spec hs hone hh x).2 hx
  obtain ⟨vs', hvals', -, hcontents'⟩ := (writeRow_spec hs hone hh' y).2 hy
  rw [hcontents, Function.update_idem] at hcontents'
  exact ⟨vs, vs', writtenTable sem schema vs' (writtenTable sem schema vs t), hvals, hvals', rfl,
    writtenRows_perm.trans (upsertRows_perm writtenRows_perm _), hcontents'⟩

/-- Writes of different keys commute if their values can be held. -/
theorem writesCommute_of_carried {x y : Mem × Option Mem} (hx : Carried sem schema x.1 x.2)
    (hy : Carried sem schema y.1 y.2) : WritesCommute dialect sem name schema t h x y := by
  intro hkeys hfirst hsecond hfirst' hsecond'
  obtain ⟨vs, vs', t₁, hvals, hvals', hcols, hperm, hc⟩ := writeRow_twice hs hone hh hfirst hsecond
  obtain ⟨us', us, t₂, husvals', husvals, hcols', hperm', hc'⟩ :=
    writeRow_twice hs hone hh hfirst' hsecond'
  cases hvals.symm.trans husvals
  cases hvals'.symm.trans husvals'
  refine ⟨t₁, t₂, hcols, hcols', ?_, hc, hc'⟩
  have hne : sameKeyOf sem schema (writtenRow sem schema vs) (writtenRow sem schema vs') =
      false := by
    obtain ⟨v, hkey, -, hv, hrow⟩ := writtenKey_of_carried hs hone hvals hx hh.tableOf.nodup
    obtain ⟨v', hkey', -, hv', hrow'⟩ := writtenKey_of_carried hs hone hvals' hy hh.tableOf.nodup
    have hcmp := hkeys _ _ hkey hkey'
    rw [sameKeyOf_eq, hasKey, hrow, hrow', SqlSemantics.cmp_taken _ _ hv'.short]
    refine beq_eq_false_iff_ne.2 fun h => hcmp (sem.eq_symm ?_)
    rw [← SqlSemantics.cmp_taken _ _ hv.short]
    exact sem.eq_symm h
  exact hperm.trans (((keyed_writtenRows hs hone.one hh.tableOf).upsertRows_comm hne).trans
    hperm'.symm)

/-- Without failures, a write succeeds if its row can be bound and the engine does not refuse it. -/
theorem writeRow_ok (hcalm : h.Calm) {x : Mem × Option Mem} (hx : CanWrite sem schema h x) :
    (writeRow dialect sem name x h).1 = .ok := by
  obtain ⟨vs, hvals, hrefuses⟩ := hx
  have hparsed := parsed_writeSql hs dialect fun _ => hone.nonPkCols_ne_nil hs
  obtain ⟨res, hexec⟩ := exists_exec_writeStatement hs hh.tableOf hvals hone.one hh.table hrefuses
  exact write_ok hh.sound hh.valid hh.lookup hs hcalm.faults hcalm.heap (sqlEngine_compiles hparsed)
    hvals (sqlEngine_run_iff.2 ⟨_, res, hparsed, hexec, rfl⟩)

end Calls

/-- **`SqlRDBWrite` is the update of a keyed map if the values that it binds can be held**, and,
where nothing stands in the way of the writes, only then. Two writes of a struct with one key
column, on a table of its schema. -/
theorem write_keyedUpdate_iff {dialect : C2SqlDialect} {sem : SqlSemantics} {name : CStr}
    {schema : SqlRDBSchema} (hacc : schema.Accepted) (hone : OneKey schema) {t : Table SqlValue}
    {h : TableHandle} (hh : OverTable dialect sem name schema t h) (x y : Mem × Option Mem) :
    (Carried sem schema x.1 x.2 → Carried sem schema y.1 y.2 →
      WritesMap dialect sem name schema t h x y) ∧
    (h.Calm → CanWrite sem schema h x → CanWrite sem schema h y →
      (WritesMap dialect sem name schema t h x y ↔
        Carried sem schema x.1 x.2 ∧ Carried sem schema y.1 y.2)) := by
  have hs := (SqlRDBSchema.accepted_iff schema).1 hacc
  have hsuff : Carried sem schema x.1 x.2 → Carried sem schema y.1 y.2 →
      WritesMap dialect sem name schema t h x y := fun hx hy =>
    ⟨writesKey_of_carried hs hone hh hx, writesKey_of_carried hs hone hh hy,
      writesCommute_of_carried hs hone hh hx hy⟩
  refine ⟨hsuff, fun hcalm hx hy => ⟨fun hmap => ⟨?_, ?_⟩, fun ⟨hx, hy⟩ => hsuff hx hy⟩⟩
  · exact carried_of_writesKey hs hone hh hmap.left (writeRow_ok hs hone hh hcalm hx)
  · exact carried_of_writesKey hs hone hh hmap.right (writeRow_ok hs hone hh hcalm hy)

/-! ## Samples -/

/-- The length of a BLOB that is bound is the size of its column. -/
theorem length_of_colBind {row : Mem} {nullMap : Option Mem} {i : ℕ} {c : SqlRDBColumnDef}
    {b : List UInt8} (h : colBind row nullMap i c = .ok (.blob b)) :
    c.type = .blob ∧ b.length = c.size := by
  unfold colBind boundValue at h
  split_ifs at h
  · cases h
  · cases htype : c.type with
    | blob =>
      simp only [htype, Except.ok.injEq, SqlValue.blob.injEq] at h
      exact ⟨rfl, by simp [← h, Mem.read]⟩
    | _ => simp [htype] at h

theorem real_of_colBind {row : Mem} {nullMap : Option Mem} {i : ℕ} {c : SqlRDBColumnDef}
    {x : BitVec 64} (h : colBind row nullMap i c = .ok (.real x)) :
    c.type = .real ∧ x = ofBytes 64 (row.read c.offset 8) := by
  unfold colBind boundValue at h
  split_ifs at h
  · cases h
  · cases htype : c.type with
    | real =>
      simp only [htype, Except.ok.injEq, SqlValue.real.injEq] at h
      exact ⟨rfl, h.symm⟩
    | _ => simp [htype] at h

/-- A row is carried if no BLOB column is too large and no real is a NaN. -/
theorem carried_of_size {sem : SqlSemantics} {schema : SqlRDBSchema} {row : Mem}
    (nullMap : Option Mem)
    (h : ∀ c ∈ schema.cols, (c.type = .blob → c.size < 2 ^ 31) ∧
      (c.type = .real → isNaN (ofBytes 64 (row.read c.offset 8)) = false)) :
    Carried sem schema row nullMap := by
  intro j c v hj hv
  obtain ⟨hblob, hreal⟩ := h c (List.mem_of_getElem? hj)
  cases v with
  | blob b =>
    obtain ⟨htype, hlen⟩ := length_of_colBind hv
    rw [SqlValue.Holdable, hlen]
    exact hblob htype
  | real x =>
    obtain ⟨htype, rfl⟩ := real_of_colBind hv
    rw [SqlValue.Holdable, hreal htype]
    rintro ⟨⟩
  | _ => trivial

/-- A handle over a table that has just been created. -/
theorem overTable_tableHandle (dialect : C2SqlDialect) {schema : SqlRDBSchema}
    (hs : schema.WellFormed) :
    OverTable dialect plainSemantics schema.name schema (createdTable dialect schema)
      (tableHandle schema (createdTable dialect schema)) where
  sound := cacheSound_tableHandle _ _ _
  valid := rfl
  lookup := lookup_tableHandle _ _
  table := if_pos rfl
  tableOf := tableOf_createdTable hs.nodup

theorem oneKey_personsSchema : OneKey personsSchema where
  one := ⟨⟨lit "id", .int32, 0, 4, flagPrimaryKey⟩, by decide⟩
  not_nullable := by decide
  other := ⟨⟨lit "name", .text, 4, 32, 0⟩, by decide, by decide⟩

/-- Two persons are written to their new table. -/
theorem write_keyedUpdate_persons :
    let t := createdTable .sqlite personsSchema
    let h := tableHandle personsSchema t
    let x : Mem × Option Mem := (fun _ => 0, none)
    let y : Mem × Option Mem := (fun _ => 1, none)
    (writeRow .sqlite plainSemantics (lit "persons") x h).1 = .ok ∧
      WritesMap .sqlite plainSemantics (lit "persons") personsSchema t h x y ∧
      (WritesMap .sqlite plainSemantics (lit "persons") personsSchema t h x y ↔
        Carried plainSemantics personsSchema x.1 x.2 ∧
          Carried plainSemantics personsSchema y.1 y.2) := by
  intro t h x y
  have hx : Carried plainSemantics personsSchema x.1 x.2 := carried_of_size _ (by decide +kernel)
  have hy : Carried plainSemantics personsSchema y.1 y.2 := carried_of_size _ (by decide +kernel)
  have hover := overTable_tableHandle .sqlite
    ((SqlRDBSchema.accepted_iff _).1 personsSchema_accepted)
  have hcan : ∀ b : UInt8, CanWrite plainSemantics personsSchema h (fun _ => b, none) := fun b =>
    ⟨_, rfl, rfl⟩
  obtain ⟨hmap, hiff⟩ := write_keyedUpdate_iff personsSchema_accepted oneKey_personsSchema hover x y
  exact ⟨by decide +kernel, hmap hx hy,
    hiff ⟨fun _ _ => rfl, fun _ => rfl⟩ (hcan 0) (hcan 1)⟩

/-- A struct with a BLOB of four gigabytes and five bytes. -/
def notesSchema : SqlRDBSchema where
  name := lit "notes"
  cols := [⟨lit "id", .int32, 0, 4, flagPrimaryKey⟩, ⟨lit "body", .blob, 8, 4294967301, 0⟩]
  pkIndex := some 0

theorem notesSchema_accepted : notesSchema.Accepted :=
  ⟨[], some (lit "notes"), some (notesSchema.cols.map some), by decide +kernel⟩

theorem oneKey_notesSchema : OneKey notesSchema where
  one := ⟨⟨lit "id", .int32, 0, 4, flagPrimaryKey⟩, by decide⟩
  not_nullable := by decide
  other := ⟨⟨lit "body", .blob, 8, 4294967301, 0⟩, by decide, by decide⟩

theorem read_zero (off n : ℕ) : Mem.read (fun _ => 0) off n = List.replicate n 0 := by
  simp [Mem.read]

theorem storedValue_replicate {n m : ℕ} (h : cInt n = m) (hm : m ≤ n) (b : UInt8) :
    storedValue (.blob (List.replicate n b)) = .blob (List.replicate m b) := by
  rw [storedValue, List.length_replicate, h, if_pos (Int.natCast_nonneg m), Int.toNat_natCast,
    List.take_replicate, min_eq_left hm]

theorem colBind_body :
    colBind (fun _ => 0) none 1 ⟨lit "body", .blob, 8, 4294967301, 0⟩ =
      .ok (.blob (List.replicate 4294967301 0)) := by
  rw [← read_zero 8]
  rfl

/-- What is bound for a row of zeros. -/
theorem values_notes :
    (rowBinds (fun _ => 0) none 0 notesSchema.cols).values =
      some [.int 0, .blob (List.replicate 5 0)] := by
  have hbody := storedValue_replicate (n := 4294967301) (m := 5) (by decide) (by decide) 0
  have hbinds : rowBinds (fun _ => 0) none 0 notesSchema.cols =
      [.ok (.int 0), .ok (.blob (List.replicate 4294967301 0))] := by
    rw [← colBind_body]
    rfl
  rw [hbinds]
  simp only [Binds.values, hbody]
  rfl

/-- The handle over the new table of the struct. -/
def notesHandle : TableHandle := tableHandle notesSchema (createdTable .sqlite notesSchema)

theorem overTable_notesHandle :
    OverTable .sqlite plainSemantics (lit "notes") notesSchema (createdTable .sqlite notesSchema)
      notesHandle :=
  overTable_tableHandle .sqlite ((SqlRDBSchema.accepted_iff _).1 notesSchema_accepted)

theorem notesHandle_calm : notesHandle.Calm := ⟨fun _ _ => rfl, fun _ => rfl⟩

theorem writeRow_notes :
    (writeRow .sqlite plainSemantics (lit "notes") (fun _ => 0, none) notesHandle).1 = .ok :=
  writeRow_ok ((SqlRDBSchema.accepted_iff _).1 notesSchema_accepted) oneKey_notesSchema
    overTable_notesHandle notesHandle_calm ⟨_, values_notes, rfl⟩

/-- The write of a BLOB of four gigabytes and five bytes succeeds, and stores five bytes. -/
theorem write_cuts_long_blob :
    OverTable .sqlite plainSemantics (lit "notes") notesSchema (createdTable .sqlite notesSchema)
        notesHandle ∧
      (writeRow .sqlite plainSemantics (lit "notes") (fun _ => 0, none) notesHandle).1 = .ok ∧
      (∃ t, (writeRow .sqlite plainSemantics (lit "notes") (fun _ => 0, none)
          notesHandle).2.store.contents (lit "notes") = some t ∧
        t.rows.map (fun r => r (lit "body")) = [.blob (List.replicate 5 0)]) ∧
      ¬WritesKey .sqlite plainSemantics (lit "notes") notesSchema
        (createdTable .sqlite notesSchema) notesHandle (fun _ => 0, none) := by
  have hs := (SqlRDBSchema.accepted_iff _).1 notesSchema_accepted
  have hspec := writeRow_spec hs oneKey_notesSchema overTable_notesHandle (fun _ => 0, none)
  refine ⟨overTable_notesHandle, writeRow_notes, ?_, ?_⟩
  · obtain ⟨vs, hvals, -, hcontents⟩ := hspec.2 writeRow_notes
    cases values_notes.symm.trans hvals
    exact ⟨_, (congrFun hcontents _).trans (Function.update_self ..), by decide +kernel⟩
  · intro hw
    have hcarried := carried_of_writesKey hs oneKey_notesSchema overTable_notesHandle hw
      writeRow_notes
    have hlt := hcarried 1 _ _ rfl colBind_body
    rw [SqlValue.Holdable, List.length_replicate] at hlt
    exact absurd hlt (by decide)

end C2Sql
