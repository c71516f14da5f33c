import C2Sql.Lib.SqlTables
import C2Sql.Operations
import C2Sql.WriteStatements

/-!
# An engine of tables

The engine under the drivers as a catalog of tables: it parses the text it is given, and executes
the statement by the semantics of SQL. The values are those of the driver interface.

* `SqlSemantics`: the comparison of values, what becomes of a value that is bound, the form in which
  names are compared, the conversions of column values and what the engine refuses; everything that
  is proved holds for any of them;
* `sqlEngine`: the engine;
* `SqlSemantics.taken`: what a driver and the engine make of a value;
* `write_outcome`: a write executes its statement with the values of the row, or changes nothing.
-/

namespace C2Sql

open SqlText StateLogic

/-- A semantics of SQL over the values of the driver interface, with the conversions of column
values. A value that is bound stays the same if the engine can hold it; otherwise it becomes one
that can be held, as a NaN becomes NULL in SQLite. A value is compared as what becomes of it, unless
it is a BLOB that is too long. Equal values of one type are the same, a BLOB equals no value of
another type, and NULL equals nothing. -/
structure SqlSemantics extends Semantics SqlValue where
  toInt64 : SqlValue → BitVec 64
  toReal : SqlValue → BitVec 64
  toText : SqlValue → List UInt8
  toBlob : SqlValue → List UInt8
  /-- Whether the engine can hold a NaN. -/
  keepsNaN : Bool
  null_eq : null = .null
  ofCount_eq : ∀ n, ofCount n = .int (BitVec.ofNat 64 n)
  toInt64_int : ∀ v, toInt64 (.int v) = v
  toReal_real : ∀ b, toReal (.real b) = b
  toText_text : ∀ s, toText (.text s) = s
  toBlob_blob : ∀ b, toBlob (.blob b) = b
  bound_same : ∀ {v}, v.Holdable keepsNaN → (bound v).Same v
  bound_holdable : ∀ v, (bound v).Holdable keepsNaN
  bound_type : ∀ v, bound v = .null ∨ (bound v).type = v.type
  cmp_bound : ∀ op u {v}, (∀ b, v = .blob b → b.length < 2 ^ 31) →
    cmp op u (bound v) = cmp op u v
  eq_self : ∀ {v}, v.Holdable keepsNaN → v ≠ .null → cmp .eq v v = some true
  eq_same : ∀ {u v}, cmp .eq u v = some true → u.type = v.type → u.Same v
  ne_null : ∀ {u v}, cmp .eq u v = some true → u ≠ .null
  eq_blob : ∀ {v b}, cmp .eq v (.blob b) = some true → v = .blob b

/-- A handle over an engine of tables. -/
abbrev TableHandle := SqlRDBHandle (Session (Catalog SqlValue))

/-- The engine of a semantics. -/
def sqlEngine (sem : SqlSemantics) : Engine (Catalog SqlValue) where
  compiles sql := (parsed sql).isSome
  run sql values db := do
    let s ← parsed sql
    let res ← sem.exec s values db
    pure ⟨res.rows, res.db, res.changes.map Int.ofNat⟩
  toInt64 := sem.toInt64
  toReal := sem.toReal
  toText := sem.toText
  toBlob := sem.toBlob

theorem sqlEngine_run_iff {sem : SqlSemantics} {sql : CStr} {values : List SqlValue}
    {db : Catalog SqlValue} {o : Outcome (Catalog SqlValue)} :
    (sqlEngine sem).run sql values db = some o ↔ ∃ s res, parsed sql = some s ∧
      sem.exec s values db = some res ∧ o = ⟨res.rows, res.db, res.changes.map Int.ofNat⟩ := by
  simp only [sqlEngine, Option.bind_eq_bind, Option.bind_eq_some_iff, Option.pure_def,
    Option.some.injEq]
  exact ⟨fun ⟨s, hs, res, hres, ho⟩ => ⟨s, res, hs, hres, ho.symm⟩,
    fun ⟨s, res, hs, hres, ho⟩ => ⟨s, hs, res, hres, ho.symm⟩⟩

theorem sqlEngine_compiles {sem : SqlSemantics} {sql : CStr} {s : Statement}
    (h : parsed sql = some s) : (sqlEngine sem).compiles sql = true := by
  simp [sqlEngine, h]

/-! ## Values through a driver -/

/-- A driver hands on what is no BLOB, and a BLOB whose length an `int` can hold. -/
theorem storedValue_eq_self {v : SqlValue} (h : ∀ b, v = .blob b → b.length < 2 ^ 31) :
    storedValue v = v := by
  cases v with
  | blob b =>
    have hlen := h b rfl
    have hint : cInt b.length = b.length := cInt_of_lt (by omega) (by omega)
    rw [storedValue, hint, if_pos (by omega), Int.toNat_natCast, List.take_length]
  | null => rfl
  | int => rfl
  | real => rfl
  | text => rfl

theorem type_storedValue (v : SqlValue) : (storedValue v).type = v.type := by
  cases v with
  | blob b => rw [storedValue, SqlValue.type, SqlValue.type]
  | _ => rfl

theorem SqlValue.Holdable.short {nan : Bool} {v : SqlValue} (h : v.Holdable nan)
    (b : List UInt8) (hb : v = .blob b) : b.length < 2 ^ 31 := by
  subst hb
  exact h

namespace SqlSemantics

variable (sem : SqlSemantics)

/-- What the engine makes of a value that a driver has bound. -/
def taken (v : SqlValue) : SqlValue := sem.bound (storedValue v)

variable {sem}

theorem taken_same {v : SqlValue} (h : v.Holdable sem.keepsNaN) : (sem.taken v).Same v := by
  rw [taken, storedValue_eq_self h.short]
  exact sem.bound_same h

theorem taken_holdable (v : SqlValue) : (sem.taken v).Holdable sem.keepsNaN :=
  sem.bound_holdable _

theorem taken_type (v : SqlValue) : sem.taken v = .null ∨ (sem.taken v).type = v.type := by
  rw [← type_storedValue v]
  exact sem.bound_type _

theorem cmp_taken (op : CmpOp) (u : SqlValue) {v : SqlValue}
    (h : ∀ b, v = .blob b → b.length < 2 ^ 31) : sem.cmp op u (sem.taken v) = sem.cmp op u v := by
  rw [taken, storedValue_eq_self h, sem.cmp_bound op u h]

theorem bound_null : sem.bound .null = .null := by
  have h := sem.bound_same (v := .null) trivial
  obtain h | ⟨x, y, -, ⟨⟩, -⟩ := SqlValue.same_iff.1 h
  exact h

theorem taken_blob {b : List UInt8} (h : b.length < 2 ^ 31) : sem.taken (.blob b) = .blob b := by
  have h : (sem.taken (.blob b)).Same (.blob b) := taken_same h
  obtain h | ⟨x, y, -, ⟨⟩, -⟩ := SqlValue.same_iff.1 h
  exact h

theorem param_storedValues {vs : List SqlValue} {k : ℕ} {v : SqlValue} (h : vs[k]? = some v) :
    sem.param (storedValues vs) (k + 1) = sem.taken v := by
  rw [Semantics.param, Nat.add_sub_cancel, storedValues, List.getElem?_map, h]
  rfl

end SqlSemantics

/-! ## Writing -/

/-- What is bound for a column, as the driver hands it on. -/
theorem values_rowBinds {row : Mem} {nullMap : Option Mem} {i : ℕ} {cols : List SqlRDBColumnDef}
    {vs : List SqlValue} (h : (rowBinds row nullMap i cols).values = some vs) :
    vs.length = cols.length ∧ ∀ (j : ℕ) (c : SqlRDBColumnDef), cols[j]? = some c →
      ∃ v, colBind row nullMap (i + j) c = .ok v ∧ vs[j]? = some (storedValue v) := by
  induction cols generalizing i vs with
  | nil =>
    cases h
    exact ⟨rfl, fun j c hc => by simp at hc⟩
  | cons col cols ih =>
    rw [rowBinds] at h
    cases hb : colBind row nullMap i col with
    | error r => simp [hb, Binds.values] at h
    | ok v =>
      simp only [hb, Binds.values, Option.bind_eq_bind, Option.bind_eq_some_iff, Option.pure_def,
        Option.some.injEq] at h
      obtain ⟨us, hus, rfl⟩ := h
      obtain ⟨hlen, hcols⟩ := ih hus
      refine ⟨by rw [List.length_cons, hlen, List.length_cons], fun j c hc => ?_⟩
      cases j with
      | zero =>
        cases hc
        exact ⟨v, hb, rfl⟩
      | succ j =>
        obtain ⟨v', hv', hj⟩ := hcols j c hc
        exact ⟨v', by rw [← hv']; congr 1; omega, hj⟩

section Write

variable {Db : Type} {dialect : C2SqlDialect} {e : Engine Db}

/-- A text that is not executed leaves the database as it is. -/
theorem Conn.store_runOnce_error {sql : CStr} {binds : Binds} {c c' : Conn Db} {r : SqlRDBResult}
    (h : c.runOnce e sql binds = (.error r, c')) : c'.store = c.store := by
  obtain ⟨⟨t, ht⟩, -⟩ := c.bindAll_spec binds
  rw [Conn.runOnce] at h
  rcases hb : c.bindAll binds with ⟨r' | vs, c₁⟩
  · rw [hb] at h ht
    cases h
    rw [show c' = _ from ht]
  · rw [hb] at h ht
    obtain rfl : c₁ = { c with tick := t } := ht
    simp only [Conn.runBound, Conn.fault, Conn.execute] at h
    cases hf : c.faults .step t with
    | some f =>
      simp only [hf] at h
      cases h
      rfl
    | none =>
      simp only [hf] at h
      cases ho : e.run sql vs c.store.contents with
      | none =>
        simp only [ho, Option.map_none] at h
        cases h
        rfl
      | some o =>
        simp only [ho, Option.map_some] at h
        cases h

/-- **A write executes its statement with the values of the row, or changes nothing.** -/
theorem write_outcome {h : SqlRDBHandle (Session Db)} (hs : CacheSound dialect e h)
    (hv : h.valid = true) {name : CStr} {schema : SqlRDBSchema}
    (hlook : h.lookup name = some schema) (hwf : schema.WellFormed) (row : Mem)
    (nullMap : Option Mem) :
    wp (sqlRDBWrite (driver dialect e) (some name) (some row) nullMap) (fun r h' =>
      CacheSound dialect e h' ∧ h'.frame = h.frame ∧
        h'.ctx.conn.faults = h.ctx.conn.faults ∧ h'.store.frames = h.store.frames ∧
        (r ≠ .ok → h'.store.contents = h.store.contents) ∧
        (r = .ok → ∃ vs o, (rowBinds row nullMap 0 schema.cols).values = some vs ∧
          e.run (writeSql dialect schema) vs h.store.contents = some o ∧
          h'.store.contents = o.db)) h := by
  refine wp_mono (write_spec hs hv hlook hwf row nullMap) ?_
  rintro r h' ⟨hs', hframe, ⟨hr, hc, -⟩ | ⟨res, -, hrun, rfl⟩⟩
  · have hstore : h'.store = h.store := congrArg Conn.store hc
    refine ⟨hs', hframe, by rw [hc], by rw [hstore], fun _ => by rw [hstore], fun h => absurd h hr⟩
  · obtain ⟨hfaults, hframes, hok⟩ := h.ctx.conn.runOnce_spec e (writeSql dialect schema)
      (rowBinds row nullMap 0 schema.cols)
    rw [hrun] at hfaults hframes hok
    refine ⟨hs', hframe, hfaults, hframes, fun hr => ?_, fun hr => ?_⟩
    · cases res with
      | ok rows => exact absurd rfl hr
      | error r' => exact congrArg (fun s => s.contents) (Conn.store_runOnce_error hrun)
    · cases res with
      | ok rows =>
        obtain ⟨vs, o, hvs, ho, hdb⟩ := hok rows rfl
        exact ⟨vs, o, hvs, ho, hdb⟩
      | error r' =>
        have hne : r' ≠ .ok := Conn.runOnce_ne_ok (rowBinds_sound row nullMap 0 _) (by rw [hrun])
        exact absurd hr hne

/-- Without failing calls, the values are bound. -/
theorem Conn.bindAll_of_values {binds : Binds} {vs : List SqlValue} (c : Conn Db)
    (hfaults : ∀ k, c.faults .bind k = none) (hvals : binds.values = some vs) :
    (c.bindAll binds).1 = .ok vs := by
  induction binds generalizing c vs with
  | nil =>
    cases hvals
    rfl
  | cons b binds ih =>
    cases b with
    | error r => cases hvals
    | ok v =>
      simp only [Binds.values, Option.bind_eq_bind, Option.bind_eq_some_iff, Option.pure_def,
        Option.some.injEq] at hvals
      obtain ⟨us, hus, rfl⟩ := hvals
      have hrest := ih { c with tick := c.tick + 1 } hfaults hus
      simp only [Conn.bindAll, Conn.fault, hfaults]
      rcases hb : Conn.bindAll binds { c with tick := c.tick + 1 } with ⟨r | us', c'⟩
      · rw [hb] at hrest
        cases hrest
      · rw [hb] at hrest
        cases hrest
        rfl

/-- Without failing calls, a text is executed if it has its values and the engine runs it. -/
theorem Conn.runOnce_of_run {sql : CStr} {binds : Binds} {vs : List SqlValue} {o : Outcome Db}
    (c : Conn Db) (hfaults : ∀ call k, c.faults call k = none) (hvals : binds.values = some vs)
    (hrun : e.run sql vs c.store.contents = some o) :
    (c.runOnce e sql binds).1 = .ok o.rows := by
  have hok := c.bindAll_of_values (hfaults .bind) hvals
  obtain ⟨⟨t, ht⟩, -⟩ := c.bindAll_spec binds
  rw [Conn.runOnce]
  rcases hb : c.bindAll binds with ⟨r | vs', c'⟩
  · rw [hb] at hok
    cases hok
  · rw [hb] at hok ht
    cases hok
    obtain rfl : c' = { c with tick := t } := ht
    simp only [Conn.runBound, Conn.fault, hfaults, Conn.execute, hrun, Option.map_some]

/-- Without failing calls and allocations, a write succeeds if its row can be bound and the engine
runs its statement. -/
theorem write_ok {h : SqlRDBHandle (Session Db)} (hs : CacheSound dialect e h)
    (hv : h.valid = true) {name : CStr} {schema : SqlRDBSchema}
    (hlook : h.lookup name = some schema) (hwf : schema.WellFormed)
    (hfaults : ∀ call k, h.ctx.conn.faults call k = none) (hheap : ∀ k, h.heap.fails k = false)
    (hcompiles : e.compiles (writeSql dialect schema) = true) {row : Mem} {nullMap : Option Mem}
    {vs : List SqlValue} (hvals : (rowBinds row nullMap 0 schema.cols).values = some vs)
    {o : Outcome Db} (hrun : e.run (writeSql dialect schema) vs h.store.contents = some o) :
    (sqlRDBWrite (driver dialect e) (some name) (some row) nullMap h).1 = .ok := by
  obtain ⟨-, -, ⟨-, -, hu⟩ | ⟨res, -, hres, hr⟩⟩ := write_spec hs hv hlook hwf row nullMap
  · obtain ⟨m, hbuild⟩ := internalQbBuild_writeSpec dialect schema
    refine absurd (hu.elim ⟨hbuild, ?_⟩ (hfaults .prepare) hheap) not_false
    simp [hcompiles]
  · have hok := h.ctx.conn.runOnce_of_run hfaults hvals hrun
    rw [hres] at hok
    rw [hr, show res = .ok o.rows from hok]
    rfl

end Write

/-! ## A sample -/

/-- A NaN is NULL, and there is one zero. -/
def plainValue : SqlValue → SqlValue
  | .real x => if isNaN x then .null else if isZero x then .real 0 else .real x
  | v => v

/-- A value that is bound; a BLOB that is too long becomes an empty one. -/
def plainBound : SqlValue → SqlValue
  | .blob b => .blob (if b.length < 2 ^ 31 then b else [])
  | v => plainValue v

/-- Values that are not NULL are compared as integers, or for equality. -/
def plainCmp (op : CmpOp) (a b : SqlValue) : Option Bool :=
  match plainValue a, plainValue b with
  | .null, _ => none
  | _, .null => none
  | .int x, .int y => some (match op with
    | .eq => x == y
    | .ne => x != y
    | .lt => x.slt y
    | .le => x.sle y
    | .gt => y.slt x
    | .ge => y.sle x)
  | a, b => some (match op with
    | .eq => a == b
    | .ne => a != b
    | _ => false)

theorem plainBound_blob {b : List UInt8} (h : b.length < 2 ^ 31) :
    plainBound (.blob b) = .blob b := by
  rw [plainBound, if_pos h]

theorem plainBound_real (x : BitVec 64) : plainBound (.real x) = plainValue (.real x) := rfl

theorem plainCmp_eq_iff {a b : SqlValue} :
    plainCmp .eq a b = some true ↔ plainValue a = plainValue b ∧ plainValue a ≠ .null := by
  unfold plainCmp
  cases plainValue a <;> cases plainValue b <;> simp

theorem plainValue_same {v : SqlValue} (h : v.Holdable false) : (plainValue v).Same v := by
  cases v with
  | real x =>
    have hx : isNaN x = false := Bool.eq_false_iff.2 fun hx => Bool.false_ne_true (h hx)
    rw [plainValue, hx, if_neg Bool.false_ne_true]
    split_ifs with hz
    · exact .inr (.inl ⟨rfl, hz⟩)
    · exact SameReal.refl x
  | _ => exact .refl _

theorem plainValue_real_ne_nan {x : BitVec 64} :
    plainValue (.real x) = .null ∨ ∃ y, plainValue (.real x) = .real y ∧ isNaN y = false ∧
      plainValue (.real y) = .real y ∧ SameReal x y := by
  rw [plainValue]
  split_ifs with hx hz
  · exact .inl rfl
  · exact .inr ⟨0, rfl, rfl, rfl, .inr (.inl ⟨hz, rfl⟩)⟩
  · refine .inr ⟨x, rfl, Bool.eq_false_iff.2 hx, ?_, .refl x⟩
    rw [plainValue, if_neg hx, if_neg hz]

theorem plainValue_idem (v : SqlValue) : plainValue (plainValue v) = plainValue v := by
  cases v with
  | real x =>
    obtain h | ⟨y, h, -, hy, -⟩ := plainValue_real_ne_nan (x := x)
    · rw [h]
      rfl
    · rw [h, hy]
  | _ => rfl

/-- Equal values of one type are the same. -/
theorem same_of_plainValue {u v : SqlValue} (h : plainValue u = plainValue v)
    (hne : plainValue u ≠ .null) (ht : u.type = v.type) : u.Same v := by
  cases u with
  | real x =>
    cases v with
    | real y =>
      obtain hx | ⟨x', hx, -, -, hxx⟩ := plainValue_real_ne_nan (x := x)
      · exact absurd hx hne
      · obtain hy | ⟨y', hy, -, -, hyy⟩ := plainValue_real_ne_nan (x := y)
        · exact absurd (h.trans hy) hne
        · rw [hx, hy] at h
          cases h
          exact hxx.trans hyy.symm
    | _ => cases ht
  | _ => cases v <;> first | exact h | cases ht

/-- A semantics that compares names byte by byte, scans rows in the order in which they have been
inserted and refuses nothing. -/
def plainSemantics : SqlSemantics where
  null := .null
  ofCount n := .int (BitVec.ofNat 64 n)
  bound := plainBound
  cmp := plainCmp
  fold := id
  refuses _ _ _ := false
  order _ rows := rows
  order_perm _ _ := .refl _
  eq_symm h := by
    obtain ⟨heq, hne⟩ := plainCmp_eq_iff.1 h
    exact plainCmp_eq_iff.2 ⟨heq.symm, heq ▸ hne⟩
  eq_trans h h' := by
    obtain ⟨heq, hne⟩ := plainCmp_eq_iff.1 h
    exact plainCmp_eq_iff.2 ⟨heq.trans (plainCmp_eq_iff.1 h').1, hne⟩
  toInt64 v := match v with
    | .int x => x
    | _ => 0
  toReal v := match v with
    | .real x => x
    | _ => 0
  toText v := match v with
    | .text s => s
    | _ => []
  toBlob v := match v with
    | .blob b => b
    | _ => []
  keepsNaN := false
  null_eq := rfl
  ofCount_eq _ := rfl
  toInt64_int _ := rfl
  toReal_real _ := rfl
  toText_text _ := rfl
  toBlob_blob _ := rfl
  bound_same {v} h := by
    cases v with
    | blob b =>
      rw [plainBound_blob h]
      exact .refl _
    | _ => exact plainValue_same h
  bound_holdable v := by
    cases v with
    | blob b =>
      rw [plainBound]
      split_ifs with h
      · exact h
      · exact Nat.two_pow_pos 31
    | real x =>
      obtain h | ⟨y, h, hy, -, -⟩ := plainValue_real_ne_nan (x := x)
      · rw [plainBound_real, h]
        trivial
      · rw [plainBound_real, h, SqlValue.Holdable, hy]
        exact id
    | _ => trivial
  bound_type v := by
    cases v with
    | real x =>
      obtain h | ⟨y, h, -, -, -⟩ := plainValue_real_ne_nan (x := x)
      · exact .inl h
      · rw [plainBound_real, h]
        exact .inr rfl
    | null => exact .inl rfl
    | _ => exact .inr rfl
  cmp_bound op u v h := by
    cases v with
    | blob b => rw [plainBound_blob (h b rfl)]
    | real x => rw [plainBound_real, plainCmp, plainCmp, plainValue_idem]
    | _ => rfl
  eq_self {v} h hne := by
    refine plainCmp_eq_iff.2 ⟨rfl, fun hnull => hne ?_⟩
    have hsame := plainValue_same h
    rw [hnull] at hsame
    cases v <;> first | rfl | cases hsame
  eq_same h ht := by
    obtain ⟨heq, hne⟩ := plainCmp_eq_iff.1 h
    exact same_of_plainValue heq hne ht
  ne_null h := by
    rintro rfl
    exact (plainCmp_eq_iff.1 h).2 rfl
  eq_blob {v b} h := by
    obtain ⟨heq, -⟩ := plainCmp_eq_iff.1 h
    cases v with
    | real x =>
      obtain hx | ⟨y, hx, -⟩ := plainValue_real_ne_nan (x := x)
      · cases hx.symm.trans heq
      · cases hx.symm.trans heq
    | _ => exact heq

/-- A handle with one schema, over a catalog that has one table for it. -/
def tableHandle (schema : SqlRDBSchema) (t : Table SqlValue) : TableHandle :=
  { freshHandle ⟨⟨⟨fun n => if n = schema.name then some t else none, []⟩, 0, fun _ _ => none, 0⟩,
      fun _ => none, 1, 0⟩ ⟨fun _ => false, fun _ => false, 0, 1, ⟨[], [], none⟩, false⟩ with
    registry := ⟨0, [schema], 8⟩ }

theorem cacheSound_tableHandle (dialect : C2SqlDialect) (schema : SqlRDBSchema)
    (t : Table SqlValue) :
    CacheSound dialect (sqlEngine plainSemantics) (tableHandle schema t) :=
  cacheSound_of_nil (SqlRDBStmtCache.represents_nil _ _)

theorem lookup_tableHandle (schema : SqlRDBSchema) (t : Table SqlValue) :
    (tableHandle schema t).lookup schema.name = some schema := by
  have hfind : [schema].find? (fun s => s.name == schema.name) = some schema := by simp
  exact hfind

end C2Sql
