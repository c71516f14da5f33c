import Mathlib.Data.List.Infix
import C2Sql.Api.Handles
import C2Sql.Identifiers

/-!
# Type classes and affinities

`type_class_from_str` and `type_class_from_pg` against what the databases do with a declared type:
SQLite's rules of affinity, and the integer types of PostgreSQL.

* `strstr_iff`: `strstr` searches for a substring;
* `Affinity`, `affinity`: SQLite's rules;
* `AcceptsSoundly`: a declared type is only accepted for a schema type of its affinity;
* `AcceptsIntegers`: PostgreSQL's types that are accepted for an integer column are its integers;
* `typeClass_sound_iff`: the declared types for which these hold.
-/

namespace C2Sql

/-! ## Substrings -/

theorem strstr_iff {s t : CStr} : strstr s t = true ↔ t <:+: s := by
  induction s with
  | nil => rw [strstr, List.isEmpty_iff, List.infix_nil]
  | cons c s ih =>
    rw [strstr, Bool.or_eq_true, List.isPrefixOf_iff_prefix, ih, List.infix_cons_iff]

/-- One of the words stands in the string, in any case. -/
def containsAny (words : List String) (s : CStr) : Prop :=
  ∃ w ∈ words, lit w <:+: s.map toupper

instance (words : List String) (s : CStr) : Decidable (containsAny words s) :=
  inferInstanceAs (Decidable (∃ w ∈ words, lit w <:+: s.map toupper))

/-! ## The rules of SQLite -/

/-- The affinities of SQLite. -/
inductive Affinity
  | integer
  | text
  | blob
  | real
  | numeric
  deriving DecidableEq

/-- The affinity of a declared type: the first rule that applies. -/
def affinity (s : CStr) : Affinity :=
  if containsAny ["INT"] s then .integer
  else if containsAny ["CHAR", "CLOB", "TEXT"] s then .text
  else if containsAny ["BLOB"] s ∨ s = [] then .blob
  else if containsAny ["REAL", "FLOA", "DOUB"] s then .real
  else .numeric

section Rules

variable {s : CStr}

theorem affinity_eq_integer : affinity s = .integer ↔ containsAny ["INT"] s := by
  unfold affinity
  split_ifs <;> simp [*]

theorem affinity_eq_text :
    affinity s = .text ↔ ¬containsAny ["INT"] s ∧ containsAny ["CHAR", "CLOB", "TEXT"] s := by
  unfold affinity
  split_ifs <;> simp [*]

theorem affinity_eq_blob :
    affinity s = .blob ↔ ¬containsAny ["INT"] s ∧ ¬containsAny ["CHAR", "CLOB", "TEXT"] s ∧
      (containsAny ["BLOB"] s ∨ s = []) := by
  unfold affinity
  split_ifs <;> simp [*]

theorem affinity_eq_real :
    affinity s = .real ↔ ¬containsAny ["INT"] s ∧ ¬containsAny ["CHAR", "CLOB", "TEXT"] s ∧
      ¬containsAny ["BLOB"] s ∧ containsAny ["REAL", "FLOA", "DOUB"] s := by
  have hempty : s = [] → ¬containsAny ["REAL", "FLOA", "DOUB"] s := by
    rintro rfl
    decide
  unfold affinity
  split_ifs with hint htext hblob hreal
  · simp [hint]
  · simp [htext]
  · rcases hblob with hblob | hs
    · simp [hblob]
    · simp [hempty hs]
  · simp_all
  · simp [hreal]

end Rules

/-- The affinity that the values of a schema type need. -/
def SqlRDBType.affinity : SqlRDBType → Option Affinity
  | .int32 | .int64 => some .integer
  | .real => some .real
  | .text => some .text
  | .blob => some .blob
  | .other _ => none

/-! ## What is accepted -/

section Acceptance

variable {σ : Type}

/-- Column `i` of the current row reads as the text `s`. -/
def ReadsText (d : SqlRDBDriver σ) (stmt : StmtId) (i : ℕ) (s : CStr) : Prop :=
  ∀ ctx, (d.columnText stmt i ctx).1.2 = some s

theorem readTableInfoRow_class {d : SqlRDBDriver σ} {stmt : StmtId} {s : CStr}
    (hs : ReadsText d stmt 2 s) (h : SqlRDBHandle σ) :
    (readTableInfoRow d stmt h).1.typeClass = typeClassFromStr (copyFit 32 (some s)) :=
  congrArg (fun type => typeClassFromStr (copyFit 32 type)) (hs _)

theorem readTableInfoPgRow_class {d : SqlRDBDriver σ} {stmt : StmtId} {s : CStr}
    (hs : ReadsText d stmt 1 s) (n : ℕ) (h : SqlRDBHandle σ) :
    (readTableInfoPgRow d stmt n h).1.typeClass = typeClassFromPg (copyFit 40 (some s)) :=
  congrArg (fun type => typeClassFromPg (copyFit 40 type)) (hs _)

end Acceptance

/-- SQLite: if `compare_columns` accepts a column that `PRAGMA table_info` reports with the declared
type `s`, whatever flags it is given later, then `s` has the affinity of the schema's type. -/
def AcceptsSoundly (s : CStr) : Prop :=
  ∀ (σ : Type) (d : SqlRDBDriver σ) (stmt : StmtId) (h : SqlRDBHandle σ) (sc : SqlRDBColumnDef)
    (dc : DbCol), ReadsText d stmt 2 s → dc.typeClass = (readTableInfoRow d stmt h).1.typeClass →
      compareColumns sc dc = 0 → sc.type.affinity = some (affinity s)

/-- PostgreSQL: if a column with the `data_type` `s` is accepted for an integer column, `s` is an
integer type. -/
def AcceptsIntegers (s : CStr) : Prop :=
  ∀ (σ : Type) (d : SqlRDBDriver σ) (stmt : StmtId) (n : ℕ) (h : SqlRDBHandle σ)
    (sc : SqlRDBColumnDef) (dc : DbCol), ReadsText d stmt 1 s →
      dc.typeClass = (readTableInfoPgRow d stmt n h).1.typeClass →
        sc.type = .int32 ∨ sc.type = .int64 → compareColumns sc dc = 0 →
          s ∈ [lit "smallint", lit "integer", lit "bigint"]

theorem class_of_compareColumns {sc : SqlRDBColumnDef} {dc : DbCol}
    (h : compareColumns sc dc = 0) : schemaTypeClass sc.type = dc.typeClass := by
  unfold compareColumns at h
  split_ifs at h with _ hclass
  exact not_not.1 hclass

/-- A column of the schema, and the column of a table that is accepted for it. -/
theorem exists_compareColumns (t : SqlRDBType) :
    ∃ (sc : SqlRDBColumnDef) (dc : DbCol), sc.type = t ∧ dc.typeClass = schemaTypeClass t ∧
      compareColumns sc dc = 0 := by
  refine ⟨⟨[], t, 0, 0, flagNullable⟩, ⟨0, [], schemaTypeClass t, false, false, false⟩, rfl, rfl,
    ?_⟩
  simp [compareColumns, SqlRDBColumnDef.nullable, SqlRDBColumnDef.pk, SqlRDBColumnDef.unique,
    flagNullable, flagPrimaryKey, flagUnique]
  decide

/-- A driver whose rows read as one text. -/
def textDriver (s : CStr) : SqlRDBDriver Unit where
  dialect := .sqlite
  close := pure .ok
  exec _ := pure .ok
  prepare _ := pure (.ok, 0)
  bind _ _ _ := pure .ok
  step _ := pure (.ok, true)
  columnInt64 _ _ := pure (.ok, 0)
  columnInt32 _ _ := pure (.ok, 0)
  columnReal _ _ := pure (.ok, 0)
  columnText _ _ := pure (.ok, some s)
  columnBlob _ _ := pure (.ok, some s)
  columnIsnull _ _ := pure (.ok, false)
  reset _ := pure .ok
  finalize _ := pure .ok
  begin := pure .ok
  commit := pure .ok
  rollback := pure .ok
  savepoint _ := pure .ok
  releaseSp _ := pure .ok
  rollbackSp _ := pure .ok
  changes := pure 0

theorem readsText_textDriver (s : CStr) (stmt : StmtId) (i : ℕ) :
    ReadsText (textDriver s) stmt i s := fun _ => rfl

/-- A handle on this driver. -/
def textHandle : SqlRDBHandle Unit :=
  freshHandle () ⟨fun _ => false, fun _ => false, 0, 1, ⟨[], [], none⟩, false⟩

/-- The soundness of a type is a matter of its class. -/
theorem acceptsSoundly_iff_class {s : CStr} :
    AcceptsSoundly s ↔ ∀ t, schemaTypeClass t = typeClassFromStr (copyFit 32 (some s)) →
      t.affinity = some (affinity s) := by
  constructor
  · intro h t ht
    obtain ⟨sc, dc, rfl, hdc, hcmp⟩ := exists_compareColumns t
    apply h Unit (textDriver s) 0 textHandle sc dc (readsText_textDriver s 0 2) _ hcmp
    rw [hdc, ht, readTableInfoRow_class (readsText_textDriver s 0 2)]
  · intro h σ d stmt hd sc dc hs hdc hcmp
    apply h
    rw [class_of_compareColumns hcmp, hdc, readTableInfoRow_class hs]

theorem acceptsIntegers_iff_class {s : CStr} :
    AcceptsIntegers s ↔ (typeClassFromPg (copyFit 40 (some s)) = .int64 →
      s ∈ [lit "smallint", lit "integer", lit "bigint"]) := by
  constructor
  · intro h hs
    obtain ⟨sc, dc, hsc, hdc, hcmp⟩ := exists_compareColumns .int64
    apply h Unit (textDriver s) 0 0 textHandle sc dc (readsText_textDriver s 0 1) _ (.inr hsc) hcmp
    rw [hdc, readTableInfoPgRow_class (readsText_textDriver s 0 1), hs]
    rfl
  · intro h σ d stmt n hd sc dc hs hdc hint hcmp
    apply h
    rw [← readTableInfoPgRow_class hs n hd, ← hdc, ← class_of_compareColumns hcmp]
    exact if_pos hint

/-! ## The classes of the strings -/

section Classes

variable {s : CStr} (h0 : 0 ∉ s)

include h0

theorem typeClassFromStr_short (h : s.length < 32) :
    typeClassFromStr (copyFit 32 (some s)) =
      if containsAny ["INT"] s then .int64
      else if containsAny ["REAL", "FLOA", "DOUB"] s then .real
      else if containsAny ["BLOB"] s then .blob
      else .text := by
  have htake : s.take 31 = s := List.take_of_length_le (by omega)
  rw [copyFit, if_pos h, cstr_of_notMem h0, typeClassFromStr, htake]
  simp only [containsAny, strstr_iff, Bool.or_eq_true, List.exists_mem_cons_iff, List.not_mem_nil,
    false_and, exists_false, or_false, or_assoc]

omit h0 in
/-- A type that is too long is dropped. -/
theorem typeClassFromStr_long (h : 32 ≤ s.length) :
    typeClassFromStr (copyFit 32 (some s)) = .text := by
  rw [copyFit, if_neg (by omega)]
  rfl

theorem typeClassFromPg_int :
    typeClassFromPg (copyFit 40 (some s)) = .int64 ↔ s.length < 40 ∧ lit "int" <:+: s := by
  by_cases hlen : s.length < 40
  · rw [copyFit, if_pos hlen, cstr_of_notMem h0, typeClassFromPg, and_iff_right hlen]
    simp only [strstr_iff]
    split_ifs with h
    all_goals simp [h]
  · rw [copyFit, if_neg hlen]
    exact iff_of_false (by decide) fun h => hlen h.1

end Classes

/-! ## The types that are classified soundly -/

/-- A declared type that fits the buffer names INT, or words of exactly one of the other affinities;
one that does not fit, and so is taken for a text, has the affinity of a text. -/
def ClassifiedSoundly (s : CStr) : Prop :=
  (s.length < 32 ∧ (containsAny ["INT"] s ∨
    (containsAny ["CHAR", "CLOB", "TEXT"] s ∧ ¬containsAny ["BLOB"] s ∧
      ¬containsAny ["REAL", "FLOA", "DOUB"] s) ∨
    (¬containsAny ["CHAR", "CLOB", "TEXT"] s ∧ containsAny ["BLOB"] s ∧
      ¬containsAny ["REAL", "FLOA", "DOUB"] s) ∨
    (¬containsAny ["CHAR", "CLOB", "TEXT"] s ∧ ¬containsAny ["BLOB"] s ∧
      containsAny ["REAL", "FLOA", "DOUB"] s))) ∨
  (32 ≤ s.length ∧ ¬containsAny ["INT"] s ∧ containsAny ["CHAR", "CLOB", "TEXT"] s)

/-- A `data_type` of PostgreSQL that fits the buffer and has the letters "int" is an integer type.
-/
def NoOtherInt (s : CStr) : Prop :=
  s.length < 40 → lit "int" <:+: s → s ∈ [lit "smallint", lit "integer", lit "bigint"]

/-- The affinity that goes with a type class. -/
theorem forall_class_iff {c : SqlRDBType} {a : Affinity} (hc : schemaTypeClass c = c)
    {b : Affinity} (hb : c.affinity = some b) :
    (∀ t, schemaTypeClass t = c → t.affinity = some a) ↔ a = b := by
  constructor
  · intro h
    have hca := h c hc
    rw [hb] at hca
    exact (Option.some.inj hca).symm
  · rintro rfl t ht
    unfold schemaTypeClass at ht
    split_ifs at ht with hint
    · subst ht
      rw [← hb]
      rcases hint with rfl | rfl <;> rfl
    · rw [ht, hb]

theorem acceptsSoundly_iff {s : CStr} (h0 : 0 ∉ s) : AcceptsSoundly s ↔ ClassifiedSoundly s := by
  rw [acceptsSoundly_iff_class, ClassifiedSoundly]
  by_cases hlen : s.length < 32
  · rw [typeClassFromStr_short h0 hlen, and_iff_right hlen, or_iff_left fun h => by omega]
    split_ifs with hint hreal hblob
    · rw [forall_class_iff rfl rfl, affinity_eq_integer]
      tauto
    · rw [forall_class_iff rfl rfl, affinity_eq_real]
      tauto
    · rw [forall_class_iff rfl rfl, affinity_eq_blob]
      tauto
    · rw [forall_class_iff rfl rfl, affinity_eq_text]
      tauto
  · rw [typeClassFromStr_long (not_lt.1 hlen), forall_class_iff rfl rfl, affinity_eq_text,
      or_iff_right fun h => hlen h.1, and_iff_right (not_lt.1 hlen)]

theorem acceptsIntegers_iff {s : CStr} (h0 : 0 ∉ s) : AcceptsIntegers s ↔ NoOtherInt s := by
  rw [acceptsIntegers_iff_class, typeClassFromPg_int h0, NoOtherInt, and_imp]

/-- **The soundness of the type classes.** For every string, as a declared type of SQLite and as a
`data_type` of PostgreSQL: a class that is accepted is that of the values the database stores
exactly if the string is classified soundly. -/
theorem typeClass_sound_iff (s : CStr) (h0 : 0 ∉ s) :
    (AcceptsSoundly s ↔ ClassifiedSoundly s) ∧ (AcceptsIntegers s ↔ NoOtherInt s) :=
  ⟨acceptsSoundly_iff h0, acceptsIntegers_iff h0⟩

/-- `varchar(20)` is sound in SQLite, `bigint` in PostgreSQL. -/
theorem typeClass_sound_plain :
    AcceptsSoundly (lit "varchar(20)") ∧ AcceptsIntegers (lit "bigint") :=
  ⟨(typeClass_sound_iff (lit "varchar(20)") (by decide)).1.2 (.inl (by decide)),
    (typeClass_sound_iff (lit "bigint") (by decide)).2.2 fun _ _ => by decide⟩

/-- A DECIMAL column, of affinity NUMERIC, is accepted for a TEXT column; the `interval` and the
`point` of PostgreSQL are accepted for an integer column. -/
theorem typeClass_unsound :
    affinity (lit "DECIMAL(10,5)") = .numeric ∧ ¬AcceptsSoundly (lit "DECIMAL(10,5)") ∧
      ¬AcceptsIntegers (lit "interval") ∧ ¬AcceptsIntegers (lit "point") := by
  rw [acceptsSoundly_iff_class, acceptsIntegers_iff_class, acceptsIntegers_iff_class]
  refine ⟨by decide, fun h => ?_, by decide, by decide⟩
  have htext := h .text (by decide)
  revert htext
  decide

end C2Sql
