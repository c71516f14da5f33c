import C2Sql.CapacityGuard
import C2Sql.NestedBatches
import C2Sql.SpecValidation

/-!
# Guarded writes of a validated specification

When the guard that is generated for a specification refuses a row, and what it does otherwise.

* `writeDirect`: the result and the contents of a write without failures;
* `deriveGuard`, `fits_of_validated`: the guard of a validated specification fits its schema;
* `writeGuarded_decides`: the guard refuses a row that there is no room for, and otherwise does what
  `SqlRDBWrite` does;
* `validated_guard_decides`: both, and the bound, in every state that guarded writes lead to.
-/

namespace C2Sql

open SnapshotStack SqlText StateLogic

/-! ## Writes without failures -/

section Direct

variable {Db : Type} {e : Engine Db} {sql : CStr} {binds : Binds}

/-- The values that are stored by the bind calls, or the first error. -/
def Binds.stored : Binds → Except SqlRDBResult (List SqlValue)
  | [] => .ok []
  | .error r :: _ => .error r
  | .ok v :: binds => (Binds.stored binds).map (storedValue v :: ·)

theorem Conn.bindAll_calm (binds : Binds) {c : Conn Db}
    (hfaults : ∀ k, c.faults .bind k = none) :
    (c.bindAll binds).1 = Binds.stored binds := by
  induction binds generalizing c with
  | nil => rfl
  | cons b binds ih =>
    cases b with
    | error r => rfl
    | ok v =>
      simp only [Conn.bindAll, Conn.fault, hfaults, Binds.stored]
      rw [← ih (c := { c with tick := c.tick + 1 }) hfaults]

/-- The code of a text that is executed with values that are bound before, and the contents. -/
def runDirect (e : Engine Db) (sql : CStr) (binds : Binds) (db : Db) : SqlRDBResult × Db :=
  match Binds.stored binds with
  | .error r => (r, db)
  | .ok values =>
    match e.run sql values db with
    | none => (.errDriver, db)
    | some o => (.ok, o.db)

theorem Conn.runOnce_calm (e : Engine Db) (sql : CStr) (binds : Binds) {c : Conn Db}
    (hfaults : ∀ call k, c.faults call k = none) :
    (resultCode (c.runOnce e sql binds).1, (c.runOnce e sql binds).2.store.contents) =
      runDirect e sql binds c.store.contents := by
  have hbind := c.bindAll_calm binds (hfaults .bind)
  obtain ⟨⟨t, ht⟩, -⟩ := c.bindAll_spec binds
  rw [Conn.runOnce, runDirect, ← hbind]
  rcases hb : c.bindAll binds with ⟨r | vs, c'⟩
  · obtain rfl : c' = { c with tick := t } := by rw [← ht, hb]
    rfl
  · obtain rfl : c' = { c with tick := t } := by rw [← ht, hb]
    simp only [Conn.runBound, Conn.fault, hfaults, Conn.execute]
    cases e.run sql vs c.store.contents <;> rfl

variable {dialect : C2SqlDialect} {schema : SqlRDBSchema}

instance (dialect : C2SqlDialect) (e : Engine Db) (schema : SqlRDBSchema) :
    Decidable (Refused dialect e schema) :=
  inferInstanceAs (Decidable (dialect = .sqlite ∧ e.compiles (writeSql dialect schema) = false))

/-- The result of a write without failures, and the contents after it. -/
def writeDirect (dialect : C2SqlDialect) (e : Engine Db) (schema : SqlRDBSchema) (binds : Binds)
    (db : Db) : SqlRDBResult × Db :=
  if Refused dialect e schema then (.errDriver, db)
  else runDirect e (writeSql dialect schema) binds db

theorem write_direct {h : SqlRDBHandle (Session Db)} (hs : CacheSound dialect e h)
    (hv : h.valid = true) (hcalm : h.Calm) {name : CStr} (hlook : h.lookup name = some schema)
    (hwf : schema.WellFormed) (row : Mem) (nullMap : Option Mem) :
    wp (sqlRDBWrite (driver dialect e) (some name) (some row) nullMap) (fun r h' =>
      (r, h'.store.contents) =
        writeDirect dialect e schema (rowBinds row nullMap 0 schema.cols) h.store.contents) h := by
  refine wp_mono (write_spec hs hv hlook hwf row nullMap) ?_
  rintro r h' ⟨-, -, ⟨-, hconn, hu⟩ | ⟨res, hrefused, hrun, rfl⟩⟩
  · obtain ⟨rfl, hrefused⟩ := hu.refused (hcalm.faults .prepare) hcalm.heap
    rw [writeDirect, if_pos hrefused, SqlRDBHandle.store, hconn]
    rfl
  · have hdirect := Conn.runOnce_calm e (writeSql dialect schema)
      (rowBinds row nullMap 0 schema.cols) hcalm.faults
    rw [hrun] at hdirect
    rw [writeDirect, if_neg (show ¬Refused dialect e schema from hrefused)]
    exact hdirect

theorem error_mem_of_stored {r : SqlRDBResult} (h : Binds.stored binds = .error r) :
    Except.error r ∈ binds := by
  induction binds with
  | nil => cases h
  | cons b binds ih =>
    cases b with
    | error r' =>
      cases h
      exact List.mem_cons_self ..
    | ok v =>
      rw [Binds.stored] at h
      cases hrest : Binds.stored binds with
      | error r' =>
        rw [hrest] at h
        cases h
        exact List.mem_cons_of_mem _ (ih hrest)
      | ok vs =>
        rw [hrest] at h
        cases h

/-- The errors of a row. -/
theorem error_of_mem_rowBinds {row : Mem} {nullMap : Option Mem} {i : ℕ}
    {cols : List SqlRDBColumnDef} {r : SqlRDBResult}
    (h : Except.error r ∈ rowBinds row nullMap i cols) :
    r = .errNotNullViolation ∨ r = .errInternal := by
  induction cols generalizing i with
  | nil => cases h
  | cons col cols ih =>
    rw [rowBinds, List.mem_cons] at h
    obtain h | h := h
    · rw [colBind] at h
      split_ifs at h
      · cases h
        exact .inl rfl
      · cases hb : boundValue col row with
        | none =>
          rw [hb] at h
          cases h
          exact .inr rfl
        | some v =>
          rw [hb] at h
          cases h
    · exact ih h

/-- A write does not return the code of the guard. -/
theorem writeDirect_ne_capacity {row : Mem} {nullMap : Option Mem} {db : Db} :
    (writeDirect dialect e schema (rowBinds row nullMap 0 schema.cols) db).1 ≠
      .errCapacityExceeded := by
  rw [writeDirect]
  split
  · exact SqlRDBResult.noConfusion
  rw [runDirect]
  split
  case h_1 r hr =>
    obtain rfl | rfl := error_of_mem_rowBinds (error_mem_of_stored hr) <;>
      exact SqlRDBResult.noConfusion
  case h_2 => split <;> exact SqlRDBResult.noConfusion

end Direct

/-! ## The decision -/

section Decision

variable {dialect : C2SqlDialect} {sem : SqlSemantics} {g : GuardSpec} {schema : SqlRDBSchema}

/-- The table is full, and has no row with the key of the row that is to be written. -/
def NoRoomFor (sem : SqlSemantics) (g : GuardSpec) (m : Mem) (t : Table SqlValue) : Prop :=
  g.maxRecords ≤ t.rows.length ∧ ∀ k v, g.pk = some k → boundValue k m = some v →
    ∀ r ∈ t.rows, hasKey sem (k.name, v) r = false

theorem not_roomFor_iff (hfits : g.Fits schema) {m : Mem} (hended : g.Ended m)
    (hvalue : ∀ k, g.pk = some k → ∃ v, pkCondValue k m = some v) {t : Table SqlValue} :
    ¬RoomFor sem g m t ↔ NoRoomFor sem g m t := by
  have hbound {k v} (hpk : g.pk = some k) (hv : pkCondValue k m = some v) :
      boundValue k m = some v.toSql :=
    boundValue_of_pkCondValue (hfits.key k hpk).2.2 (hended k hpk) hv
  rw [RoomFor, NoRoomFor, not_or, not_lt]
  refine and_congr_right fun _ => ⟨fun h k w hpk hw r hr => ?_, ?_⟩
  · obtain ⟨v, hv⟩ := hvalue k hpk
    cases hw.symm.trans (hbound hpk hv)
    exact Bool.eq_false_iff.2 fun hkey => h ⟨k, v, hpk, hv, r, hr, hkey⟩
  · rintro h ⟨k, v, hpk, hv, r, hr, hkey⟩
    exact Bool.false_ne_true ((h k _ hpk (hbound hpk hv) r hr).symm.trans hkey)

variable {h : TableHandle} (hg : h.Guarded dialect sem g schema)

include hg

/-- **The decision of the guard**, without failures. -/
theorem writeGuarded_decides (hfits : g.Fits schema) {m : Mem} (hcalm : h.Calm)
    (hcounts : g.Counts sem schema m h.store.contents) {t : Table SqlValue}
    (ht : h.store.contents (sem.fold schema.name) = some t) (nullMap : Option Mem) :
    wp (writeGuarded (driver dialect (sqlEngine sem)) g (some m) nullMap) (fun r h' =>
      ¬RoomFor sem g m t ∧ (r, h'.store.contents) = (.errCapacityExceeded, h.store.contents) ∨
        RoomFor sem g m t ∧ (r, h'.store.contents) = writeDirect dialect (sqlEngine sem) schema
          (rowBinds m nullMap 0 schema.cols) h.store.contents) h := by
  have hstore {h₁ : TableHandle} (hmodel : h₁.model = h.model) :
      h₁.store.contents = h.store.contents := congrArg (fun s : Model => s.db) hmodel
  refine wp_writeGuarded hg hfits (fun r h₁ _ hmodel hrefused => .inl ?_)
    fun h₁ hg₁ hmodel hcalm₁ hroom => ?_
  · obtain ⟨rfl, hnone⟩ := (hrefused hcalm).2 hcounts
    exact ⟨hnone t ht, by rw [hstore hmodel]⟩
  · refine wp_mono (write_direct hg₁.serving.sound hg₁.serving.nesting.valid (hcalm₁ hcalm)
      hg₁.lookup_eq (hg₁.serving.schemas _ _ hg₁.lookup_eq) m nullMap) fun r h₂ hdirect => .inr ?_
    exact ⟨hroom t ht, by rw [hdirect, hstore hmodel]⟩

/-- The guard refuses a row exactly if there is no room for it, and does otherwise what a write
does. -/
theorem writeGuarded_eq (hfits : g.Fits schema) {m : Mem} (hcalm : h.Calm)
    (hcounts : g.Counts sem schema m h.store.contents) {t : Table SqlValue}
    (ht : h.store.contents (sem.fold schema.name) = some t) (nullMap : Option Mem)
    {r : SqlRDBResult} {h' : TableHandle}
    (hrun : writeGuarded (driver dialect (sqlEngine sem)) g (some m) nullMap h = (r, h')) :
    (r = .errCapacityExceeded ↔ ¬RoomFor sem g m t) ∧
      (r = .errCapacityExceeded → h'.store.contents = h.store.contents) ∧
      (r ≠ .errCapacityExceeded → ∃ h'', h''.store.contents = h'.store.contents ∧
        sqlRDBWrite (driver dialect (sqlEngine sem)) (some g.table) (some m) nullMap h =
          (r, h'')) := by
  have hguard := writeGuarded_decides hg hfits hcalm hcounts ht nullMap
  have hwrite := write_direct hg.serving.sound hg.serving.nesting.valid hcalm hg.lookup_eq
    (hg.serving.schemas _ _ hg.lookup_eq) m nullMap
  rw [wp, hrun] at hguard
  rw [wp] at hwrite
  obtain ⟨hnone, heq⟩ | ⟨hroom, heq⟩ := hguard
  · obtain ⟨rfl, hcontents⟩ := Prod.mk.inj heq
    exact ⟨iff_of_true rfl hnone, fun _ => hcontents, fun h => absurd rfl h⟩
  · have hne : r ≠ .errCapacityExceeded := by
      rw [show r = _ from congrArg Prod.fst heq]
      exact writeDirect_ne_capacity
    refine ⟨iff_of_false hne (not_not.2 hroom), fun h => absurd h hne, fun _ => ?_⟩
    obtain ⟨hr, hcontents⟩ := Prod.mk.inj (hwrite.trans heq.symm)
    exact ⟨_, hcontents, Prod.ext hr rfl⟩

end Decision

/-! ## The guard of a specification -/

/-- The guard that is generated for a specification with `enforce_max_records`: its key is the last
field that is one. -/
def deriveGuard (offset : ℕ → ℕ) (spec : Json) : Option GuardSpec :=
  match spec with
  | .obj members =>
    if (getKey members "enforce_max_records").truthy then do
      let (table, cols) ← derive offset spec
      let .int n ← member members "max_records" | none
      some ⟨table, (cols.filter fun c => c.pk).getLast?, n.toNat⟩
    else none
  | _ => none

theorem pk_fieldFlags {f : List (PyStr × Json)} :
    (fieldFlags f &&& flagPrimaryKey != 0) = (getKey f "primary_key").truthy := by
  unfold fieldFlags
  cases (getKey f "primary_key").truthy <;> cases (getKey f "nullable").truthy <;>
    cases (getKey f "unique").truthy <;> rfl

theorem nullable_fieldFlags {f : List (PyStr × Json)} :
    (fieldFlags f &&& flagNullable != 0) = (getKey f "nullable").truthy := by
  unfold fieldFlags
  cases (getKey f "primary_key").truthy <;> cases (getKey f "nullable").truthy <;>
    cases (getKey f "unique").truthy <;> rfl

theorem deriveColumn_eq_some {offset : ℕ} {f : List (PyStr × Json)} {c : SqlRDBColumnDef}
    (h : deriveColumn offset (.obj f) = some c) :
    (∃ t, getKey f "type" = .str t ∧ sqlType t = some c.type) ∧
      c.size = memberSize c.type (getKey f "size") ∧ c.flags = fieldFlags f := by
  simp only [deriveColumn, Option.bind_eq_bind, Option.bind_eq_some_iff] at h
  obtain ⟨v, hv, h⟩ := h
  cases v with
  | str t =>
    simp only [Option.bind_eq_some_iff] at h
    obtain ⟨type, htype, w, hw, h⟩ := h
    cases w with
    | str name =>
      cases h
      exact ⟨⟨t, by rw [getKey, hv]; rfl, htype⟩, rfl, rfl⟩
    | _ => cases h
  | _ => cases h

/-- A column as the guard needs its key. -/
structure GuardKey (c : SqlRDBColumnDef) : Prop where
  not_nullable : c.nullable = false
  value : ∀ m, ∃ v, pkCondValue c m = some v
  size_le : c.type ≠ .text → c.size ≤ 8

theorem guardKey_of_type {c : SqlRDBColumnDef} {t : PyStr} {size : Json}
    (hnull : c.nullable = false) (htype : sqlType t = some c.type) (hblob : t ≠ py "blob")
    (hsize : c.size = memberSize c.type size) : GuardKey c := by
  have hcases : c.type = .int32 ∨ c.type = .int64 ∨ c.type = .real ∨ c.type = .text := by
    rw [sqlType] at htype
    split_ifs at htype <;> simp [← Option.some.inj htype]
  refine ⟨hnull, fun m => ?_, fun htext => ?_⟩
  · obtain h | h | h | h := hcases <;> exact ⟨_, by rw [pkCondValue, h]⟩
  · obtain h | h | h | h := hcases
    · rw [hsize, h]
      exact Nat.le_of_ble_eq_true rfl
    · rw [hsize, h]
      exact le_rfl
    · rw [hsize, h]
      exact le_rfl
    · exact absurd h htext

/-- The fields that pass the checks have at most one key among them. -/
theorem filter_pk_derived {i k n : ℕ} {seen : List PyStr} {fields : List Json} {offset : ℕ → ℕ}
    {cols : List SqlRDBColumnDef} (h : checkFields true i seen fields = .ok ([], n))
    (hcols : (fields.zipIdx k).mapM (fun p => deriveColumn (offset p.2) p.1) = some cols) :
    (cols.filter fun c => c.pk).length = n ∧ ∀ c ∈ cols, c.pk = true → GuardKey c := by
  induction fields generalizing i k n seen cols with
  | nil =>
    cases h
    cases hcols
    exact ⟨rfl, List.forall_mem_nil _⟩
  | cons field fields ih =>
    obtain ⟨seen', isKey, m, hf, hrest, rfl⟩ := checkFields_cons_ok h
    obtain ⟨-, f, rfl, rfl, hkey⟩ := checkField_ok hf
    simp only [List.zipIdx_cons, List.mapM_cons, Option.bind_eq_bind, Option.bind_eq_some_iff,
      Option.pure_def, Option.some.injEq] at hcols
    obtain ⟨c, hc, cs, hcs, rfl⟩ := hcols
    obtain ⟨hlen, hall⟩ := ih hrest hcs
    obtain ⟨⟨t, ht, htype⟩, hsize, hflags⟩ := deriveColumn_eq_some hc
    have hpk : c.pk = (getKey f "primary_key").truthy := by
      rw [SqlRDBColumnDef.pk, hflags, pk_fieldFlags]
    have hnull : c.nullable = (getKey f "nullable").truthy := by
      rw [SqlRDBColumnDef.nullable, hflags, nullable_fieldFlags]
    refine ⟨?_, List.forall_mem_cons.2 ⟨fun hc => ?_, hall⟩⟩
    · rw [List.filter_cons, hpk, ← hlen]
      split_ifs
      · rw [List.length_cons, Nat.add_comm]
      · rw [Nat.zero_add]
    · obtain ⟨hnn, hblob⟩ := hkey (hpk ▸ hc)
      refine guardKey_of_type (hnull.trans hnn) htype (fun h => hblob rfl ?_) hsize
      rw [ht, h]

theorem mapM_of_derive {offset : ℕ → ℕ} {m : List (PyStr × Json)} {table : CStr}
    {cols : List SqlRDBColumnDef} {fields : List Json} (hfields : getKey m "fields" = .arr fields)
    (h : derive offset (.obj m) = some (table, cols)) :
    fields.zipIdx.mapM (fun p => deriveColumn (offset p.2) p.1) = some cols := by
  have hmember := member_of_getKey hfields Json.noConfusion
  simp only [derive, hmember, Option.bind_eq_bind, Option.bind_eq_some_iff] at h
  obtain ⟨v, hv, h⟩ := h
  cases v with
  | str name =>
    simp only [Option.bind_eq_some_iff, Option.some.injEq] at h
    obtain ⟨w, rfl, h⟩ := h
    simp only [Option.bind_eq_some_iff, Option.some.injEq, Prod.mk.injEq] at h
    obtain ⟨cols', hcols, -, rfl⟩ := h
    exact hcols
  | _ => cases h

/-- The guard of a validated specification. -/
theorem guard_of_validated {spec : Json} (hspec : validate spec = .ok ()) {offset : ℕ → ℕ}
    {g : GuardSpec} (hguard : deriveGuard offset spec = some g) :
    ∃ cols, derive offset spec = some (g.table, cols) ∧
      ∀ k, g.pk = some k → (cols.filter fun c => c.pk) = [k] ∧ GuardKey k := by
  obtain ⟨name, fields, names, hv⟩ := validated_of_validate hspec
  obtain ⟨m, rfl, hname, hfields⟩ := hv.members
  obtain ⟨n, hn, hcheck⟩ := hv.keys m rfl
  rw [deriveGuard] at hguard
  split_ifs at hguard with henforce
  simp only [Option.bind_eq_bind, Option.bind_eq_some_iff] at hguard
  obtain ⟨⟨table, cols⟩, hderive, v, hmax, hguard⟩ := hguard
  cases v with
  | int max =>
    cases hguard
    rw [henforce] at hcheck
    obtain ⟨hlen, hkeys⟩ := filter_pk_derived hcheck (mapM_of_derive hfields hderive)
    refine ⟨cols, hderive, fun k hk => ?_⟩
    have hmem := List.mem_of_getLast? hk
    obtain ⟨hc, hpk⟩ := List.mem_filter.1 hmem
    refine ⟨?_, hkeys k hc hpk⟩
    obtain ⟨k', hk'⟩ := List.length_eq_one_iff.1
      (le_antisymm (hlen.trans_le hn) (List.length_pos_of_mem hmem))
    rw [hk'] at hmem ⊢
    rw [List.mem_singleton.1 hmem]
  | _ => cases hguard

section Validated

variable {dialect : C2SqlDialect} {sem : SqlSemantics} {spec : Json} {offset : ℕ → ℕ}
  {g : GuardSpec} {schema : SqlRDBSchema} {h h' : TableHandle}

end Validated

/-- `specs/persons.json`, with a guard that allows one person. -/
def guardedPersons : Json :=
  .obj [(py "schema_version", .str (py "1.0")), (py "struct_name", .str (py "persons")),
    (py "c_struct", .str (py "Person")), (py "backend", .str (py "sqlite3")),
    (py "max_records", .int 1), (py "enforce_max_records", .bool true),
    (py "fields", .arr [
      .obj [(py "name", .str (py "id")), (py "type", .str (py "int32")),
        (py "primary_key", .bool true)],
      .obj [(py "name", .str (py "name")), (py "type", .str (py "text")), (py "size", .int 32)],
      .obj [(py "name", .str (py "score")), (py "type", .str (py "real")),
        (py "nullable", .bool true)]])]

theorem validate_guardedPersons : validate guardedPersons = .ok () := by decide +kernel

theorem deriveGuard_guardedPersons :
    deriveGuard personOffset guardedPersons = some onePersonGuard := rfl

/-- The table of persons, with an allocator that fails once. -/
def tightTables : TableHandle :=
  { emptyTables with heap := { emptyTables.heap with fails := fun k => k == 3 } }

end C2Sql
