import C2Sql.Handle

/-!
# The schema registry

`schema_registry.c`: the identifier grammar, registration with its validation steps, lookup and
removal. A pointer into the registry is the block it points into and an index (`SchemaPtr`).
-/

namespace C2Sql

/-! ## Identifiers -/

/-- `RESERVED_WORDS`. -/
def reservedWords : List CStr := [
  "ABORT", "ACTION", "ADD", "AFTER", "ALL", "ALTER", "ALWAYS",
  "ANALYZE", "AND", "AS", "ASC", "ATTACH", "AUTOINCREMENT",
  "BEFORE", "BEGIN", "BETWEEN", "BY",
  "CASCADE", "CASE", "CAST", "CHECK", "COLLATE", "COLUMN",
  "COMMIT", "CONFLICT", "CONSTRAINT", "CREATE", "CROSS",
  "CURRENT", "CURRENT_DATE", "CURRENT_TIME", "CURRENT_TIMESTAMP",
  "DATABASE", "DEFAULT", "DEFERRABLE", "DEFERRED", "DELETE",
  "DETACH", "DISTINCT", "DO", "DROP",
  "EACH", "ELSE", "END", "ESCAPE", "EXCEPT", "EXCLUDE",
  "EXCLUSIVE", "EXISTS", "EXPLAIN",
  "FAIL", "FILTER", "FIRST", "FOLLOWING", "FOR", "FOREIGN",
  "FROM", "FULL",
  "GENERATED", "GLOB", "GROUP", "GROUPS",
  "HAVING",
  "IF", "IGNORE", "IMMEDIATE", "IN", "INDEX", "INDEXED",
  "INITIALLY", "INNER", "INSERT", "INSTEAD", "INTERSECT", "INTO",
  "IS", "ISNULL",
  "JOIN", "KEY",
  "LAST", "LEFT", "LIKE", "LIMIT",
  "MATCH", "MATERIALIZED",
  "NATURAL", "NO", "NOT", "NOTHING", "NOTNULL", "NULL", "NULLS",
  "OF", "OFFSET", "ON", "OR", "ORDER", "OTHERS", "OUTER", "OVER",
  "PARTITION", "PLAN", "PRAGMA", "PRECEDING", "PRIMARY",
  "QUERY",
  "RAISE", "RANGE", "RECURSIVE", "REFERENCES", "REGEXP",
  "REINDEX", "RELEASE", "RENAME", "REPLACE", "RESTRICT",
  "RETURNING", "RIGHT", "ROLLBACK", "ROW", "ROWS",
  "SAVEPOINT", "SELECT", "SET",
  "TABLE", "TEMP", "TEMPORARY", "THEN", "TIES", "TO",
  "TRANSACTION", "TRIGGER",
  "UNBOUNDED", "UNION", "UNIQUE", "UPDATE", "USING",
  "VACUUM", "VALUES", "VIEW", "VIRTUAL",
  "WHEN", "WHERE", "WINDOW", "WITH", "WITHOUT"].map lit

/-- `MAX_IDENT_LEN`. -/
def maxIdentLen : ℕ := 128

/-- `C2SQL_MAX_COLUMNS`. -/
def maxColumns : ℕ := 64

/-- `isalpha` in the C locale. -/
def isalpha (c : UInt8) : Bool := (65 ≤ c && c ≤ 90) || (97 ≤ c && c ≤ 122)

/-- `isalnum` in the C locale. -/
def isalnum (c : UInt8) : Bool := isalpha c || (48 ≤ c && c ≤ 57)

/-- `toupper` in the C locale. -/
def toupper (c : UInt8) : UInt8 := if 97 ≤ c && c ≤ 122 then c - 32 else c

/-- The loop over the characters after the first: the length, or `none` where it rejects. -/
def identLen : ℕ → CStr → Option ℕ
  | len, [] => some len
  | len, c :: cs =>
    if len ≥ maxIdentLen then none
    else if !isalnum c && c ≠ 95 then none
    else identLen (len + 1) cs

/-- `identifier_valid`. -/
def identifierValid (name : CStr) : Bool :=
  match name with
  | [] => false
  | first :: rest =>
    if !isalpha first && first ≠ 95 then false
    else match identLen 1 rest with
      | none => false
      | some len => !reservedWords.contains ((name.take len).map toupper)

/-! ## Registration -/

/-- The checks on one column, against the columns before it. A definition whose `name` is NULL is
`none`. -/
def checkColumn (i : ℕ) (before : List SqlRDBColumnDef) (col : Option SqlRDBColumnDef) :
    Except (SqlRDBResult × CStr) SqlRDBColumnDef :=
  match col with
  | none =>
    .error (.errInvalidArg, lit "schema_register: cols[" ++ decimal i ++ lit "].name is NULL")
  | some col =>
    if !identifierValid col.name then
      .error (.errInvalidName, lit "schema_register: invalid column name '" ++ col.name ++ lit "'")
    else if before.any fun c => c.name == col.name then
      .error (.errDuplicateColumn,
        lit "schema_register: duplicate column name '" ++ col.name ++ lit "'")
    else if col.type = .int32 ∧ col.size ≠ 4 then
      .error (.errInvalidArg, lit "schema_register: INT32 column '" ++ col.name ++
        lit "' must have size 4, got " ++ decimal col.size)
    else if col.type = .int64 ∧ col.size ≠ 8 then
      .error (.errInvalidArg, lit "schema_register: INT64 column '" ++ col.name ++
        lit "' must have size 8, got " ++ decimal col.size)
    else .ok col

/-- The validation loop over the columns, from the `i`-th on. -/
def checkColumns : ℕ → List SqlRDBColumnDef → List (Option SqlRDBColumnDef) →
    Except (SqlRDBResult × CStr) (List SqlRDBColumnDef)
  | _, before, [] => .ok before
  | i, before, col :: cols =>
    match checkColumn i before col with
    | .error e => .error e
    | .ok col => checkColumns (i + 1) (before ++ [col]) cols

/-- What `c2sql_internal_schema_register` checks before it touches the registry: the new entry, or
the code and message of the first failed check. -/
def checkSchema (entries : List SqlRDBSchema) (name : Option CStr)
    (cols : Option (List (Option SqlRDBColumnDef))) :
    Except (SqlRDBResult × CStr) SqlRDBSchema :=
  match name, cols with
  | some name, some cols =>
    if cols.length = 0 then
      .error (.errInvalidArg, lit "schema_register: col_count must be > 0")
    else if cols.length > maxColumns then
      .error (.errTooManyColumns, lit "schema_register: col_count " ++ decimal cols.length ++
        lit " exceeds maximum " ++ decimal maxColumns)
    else if !identifierValid name then
      .error (.errInvalidName, lit "schema_register: invalid struct name '" ++ name ++ lit "'")
    else if entries.any fun s => s.name == name then
      .error (.errDuplicateSchema, lit "schema_register: struct '" ++ name ++
        lit "' already registered")
    else match checkColumns 0 [] cols with
      | .error e => .error e
      | .ok cols => .ok ⟨name, cols, cols.findIdx? fun c => c.pk⟩
  | _, _ => .error (.errInvalidArg, lit "schema_register: name and cols must be non-NULL")

/-! ## What registration accepts -/

/-- A schema that passes the checks of `c2sql_internal_schema_register` in some registry. -/
def SqlRDBSchema.Accepted (s : SqlRDBSchema) : Prop :=
  ∃ entries name cols, checkSchema entries name cols = .ok s

/-- A byte of an identifier. -/
def identByte (c : UInt8) : Bool := isalnum c || c == 95

theorem identLen_eq_some {len n : ℕ} {cs : CStr} (h : identLen len cs = some n) :
    (∀ c ∈ cs, identByte c = true) ∧ n = len + cs.length ∧ (cs ≠ [] → n ≤ maxIdentLen) := by
  induction cs generalizing len with
  | nil =>
    simp only [identLen, Option.some.injEq] at h
    simp [h]
  | cons c cs ih =>
    rw [identLen] at h
    split_ifs at h with hlen hc
    obtain ⟨hall, hn, hle⟩ := ih h
    have hc' : identByte c = true := by
      by_contra hneg
      simp_all [identByte]
    refine ⟨?_, by rw [hn, List.length_cons]; omega, fun _ => ?_⟩
    · intro b hb
      rcases List.mem_cons.1 hb with rfl | hb
      · exact hc'
      · exact hall b hb
    · by_cases hcs : cs = []
      · subst hcs
        simp only [List.length_nil] at hn
        omega
      · exact hle hcs

/-- A valid identifier is a non-empty string of at most 128 letters, digits and underscores that
does not start with a digit. -/
theorem identifierValid_imp {name : CStr} (h : identifierValid name = true) :
    (∀ c ∈ name, identByte c = true) ∧ name ≠ [] ∧ name.length ≤ maxIdentLen := by
  cases name with
  | nil => cases h
  | cons first rest =>
    rw [identifierValid] at h
    split_ifs at h with hf
    have hf' : identByte first = true := by
      simp only [Bool.and_eq_true, Bool.not_eq_true', decide_eq_true_eq, not_and,
        Decidable.not_not] at hf
      by_cases ha : isalpha first = true
      · simp [identByte, isalnum, ha]
      · simp [identByte, hf (by simpa using ha)]
    cases hl : identLen 1 rest with
    | none => simp [hl] at h
    | some len =>
      obtain ⟨hall, hn, hle⟩ := identLen_eq_some hl
      refine ⟨?_, by simp, ?_⟩
      · intro c hc
        rcases List.mem_cons.1 hc with rfl | hc
        · exact hf'
        · exact hall c hc
      · by_cases hr : rest = []
        · subst hr
          simp [maxIdentLen]
        · have := hle hr
          rw [List.length_cons]
          omega

/-- The loop accepts letters, digits and underscores as far as they fit. -/
theorem identLen_of_identByte {len : ℕ} {cs : CStr} (h : ∀ c ∈ cs, identByte c = true)
    (hlen : len + cs.length ≤ maxIdentLen) : identLen len cs = some (len + cs.length) := by
  induction cs generalizing len with
  | nil => rfl
  | cons c cs ih =>
    rw [List.length_cons] at hlen
    have hc : ¬(!isalnum c && decide (c ≠ 95)) = true := by
      obtain ha | hu := (Bool.or_eq_true ..).mp (h c (by simp))
      · simp [ha]
      · simp [beq_iff_eq.1 hu]
    rw [identLen, if_neg (by omega), if_neg hc, ih (fun b hb => h b (by simp [hb])) (by omega),
      List.length_cons]
    congr 1
    omega

/-- **The identifiers** are the strings of at most 128 letters, digits and underscores that do not
start with a digit and are not reserved. -/
theorem identifierValid_cons_iff {first : UInt8} {rest : CStr} :
    identifierValid (first :: rest) = true ↔
      (isalpha first = true ∨ first = 95) ∧ (∀ c ∈ rest, identByte c = true) ∧
        rest.length < maxIdentLen ∧ (first :: rest).map toupper ∉ reservedWords := by
  have hfirst : ¬(!isalpha first && decide (first ≠ 95)) = true ↔
      isalpha first = true ∨ first = 95 := by
    by_cases ha : isalpha first = true <;> simp [ha]
  constructor
  · intro h
    have hlen := (identifierValid_imp h).2.2
    rw [List.length_cons] at hlen
    rw [identifierValid] at h
    split_ifs at h with hf
    cases hl : identLen 1 rest with
    | none => simp [hl] at h
    | some len =>
      obtain ⟨hall, hn, -⟩ := identLen_eq_some hl
      refine ⟨hfirst.1 hf, hall, by omega, ?_⟩
      rw [hl] at h
      dsimp only at h
      rw [hn, List.take_of_length_le (by rw [List.length_cons]; omega)] at h
      simpa using h
  · rintro ⟨hf, hall, hlen, hres⟩
    rw [identifierValid, if_neg (hfirst.2 hf), identLen_of_identByte hall (by omega)]
    dsimp only
    rw [List.take_of_length_le (by rw [List.length_cons]; omega)]
    simpa using hres

/-- The bytes that are special to the lexer of SQL do not occur in identifiers. -/
theorem not_mem_of_identifierValid {name : CStr} (h : identifierValid name = true) {c : UInt8}
    (hc : identByte c = false) : c ∉ name := by
  intro hmem
  rw [(identifierValid_imp h).1 c hmem] at hc
  cases hc

/-- What the checks establish. -/
structure SqlRDBSchema.WellFormed (s : SqlRDBSchema) : Prop where
  name_valid : identifierValid s.name = true
  cols_ne_nil : s.cols ≠ []
  length_le : s.cols.length ≤ maxColumns
  col_valid : ∀ c ∈ s.cols, identifierValid c.name = true
  nodup : (s.cols.map fun c => c.name).Nodup
  int32_size : ∀ c ∈ s.cols, c.type = .int32 → c.size = 4
  int64_size : ∀ c ∈ s.cols, c.type = .int64 → c.size = 8
  pkIndex_eq : s.pkIndex = s.cols.findIdx? fun c => c.pk

/-- The checks on one column. -/
def ColumnOk (c : SqlRDBColumnDef) : Prop :=
  identifierValid c.name = true ∧ (c.type = .int32 → c.size = 4) ∧ (c.type = .int64 → c.size = 8)

theorem checkColumn_ok_iff {i : ℕ} {before : List SqlRDBColumnDef} {col : Option SqlRDBColumnDef}
    {c : SqlRDBColumnDef} :
    checkColumn i before col = .ok c ↔
      col = some c ∧ ColumnOk c ∧ c.name ∉ before.map fun c => c.name := by
  cases col with
  | none => simp [checkColumn]
  | some col =>
    have hdup : (before.any fun b => b.name == col.name) = true ↔
        col.name ∈ before.map fun b => b.name := by
      simp [List.any_eq_true, List.mem_map]
    rw [checkColumn]
    split_ifs with h₁ h₂ h₃ h₄
    · simp only [Option.some.injEq, false_iff, not_and]
      rintro rfl ⟨hv, -⟩
      simp [hv] at h₁
    · simp only [Option.some.injEq, false_iff, not_and]
      rintro rfl - hn
      exact hn (hdup.1 h₂)
    · simp only [Option.some.injEq, false_iff, not_and]
      rintro rfl ⟨-, h, -⟩
      exact absurd (h h₃.1) h₃.2
    · simp only [Option.some.injEq, false_iff, not_and]
      rintro rfl ⟨-, -, h⟩
      exact absurd (h h₄.1) h₄.2
    · simp only [Except.ok.injEq, Option.some.injEq]
      refine ⟨?_, fun h => h.1⟩
      rintro rfl
      refine ⟨rfl, ⟨by simpa using h₁, fun ht => ?_, fun ht => ?_⟩, fun hn => h₂ (hdup.2 hn)⟩
      · by_contra hs
        exact h₃ ⟨ht, hs⟩
      · by_contra hs
        exact h₄ ⟨ht, hs⟩

theorem checkColumns_ok_iff {i : ℕ} {before cs : List SqlRDBColumnDef}
    {cols : List (Option SqlRDBColumnDef)} (hb : (before.map fun c => c.name).Nodup) :
    checkColumns i before cols = .ok cs ↔
      ∃ new, cols = new.map some ∧ cs = before ++ new ∧ (∀ c ∈ new, ColumnOk c) ∧
        ((before ++ new).map fun c => c.name).Nodup := by
  induction cols generalizing i before with
  | nil =>
    simp only [checkColumns, Except.ok.injEq]
    constructor
    · rintro rfl
      exact ⟨[], by simp, by simp, by simp, by simpa using hb⟩
    · rintro ⟨new, hnew, rfl, -, -⟩
      simp [List.map_eq_nil_iff.1 hnew.symm]
  | cons col cols ih =>
    rw [checkColumns]
    cases hc : checkColumn i before col with
    | error e =>
      simp only [reduceCtorEq, false_iff, not_exists, not_and]
      rintro new hnew rfl hok hnd
      obtain ⟨c, new, rfl⟩ : ∃ c new', new = c :: new' := by
        cases new with
        | nil => simp at hnew
        | cons c new => exact ⟨c, new, rfl⟩
      simp only [List.map_cons, List.cons.injEq] at hnew
      have : checkColumn i before col = .ok c := by
        refine checkColumn_ok_iff.2 ⟨hnew.1, hok c (by simp), fun hmem => ?_⟩
        rw [List.map_append, List.map_cons] at hnd
        exact (List.nodup_append.1 hnd).2.2 _ hmem _ (by simp) rfl
      rw [hc] at this
      cases this
    | ok c =>
      obtain ⟨rfl, hok, hn⟩ := checkColumn_ok_iff.1 hc
      have hb' : ((before ++ [c]).map fun c => c.name).Nodup := by
        rw [List.map_append, List.nodup_append]
        refine ⟨hb, by simp, ?_⟩
        intro a ha b hb' hab
        simp only [List.map_cons, List.map_nil, List.mem_singleton] at hb'
        subst hab hb'
        exact hn ha
      simp only [ih hb']
      constructor
      · rintro ⟨new, rfl, rfl, hall, hnd⟩
        refine ⟨c :: new, rfl, by simp, ?_, by simpa using hnd⟩
        intro b hb
        rcases List.mem_cons.1 hb with rfl | hb
        · exact hok
        · exact hall b hb
      · rintro ⟨new, hnew, rfl, hall, hnd⟩
        obtain ⟨c', new, rfl⟩ : ∃ c new', new = c :: new' := by
          cases new with
          | nil => simp at hnew
          | cons c new => exact ⟨c, new, rfl⟩
        simp only [List.map_cons, List.cons.injEq, Option.some.injEq] at hnew
        obtain ⟨rfl, rfl⟩ := hnew
        exact ⟨new, rfl, by simp, fun b hb => hall b (by simp [hb]), by simpa using hnd⟩

/-- **Registration accepts exactly the well-formed schemas.** -/
theorem SqlRDBSchema.accepted_iff (s : SqlRDBSchema) : s.Accepted ↔ s.WellFormed := by
  constructor
  · rintro ⟨entries, name, cols, h⟩
    cases name with
    | none => simp [checkSchema] at h
    | some name =>
      cases cols with
      | none => simp [checkSchema] at h
      | some cols =>
        rw [checkSchema] at h
        split_ifs at h with h₁ h₂ h₃ h₄
        cases hc : checkColumns 0 [] cols with
        | error e => simp [hc] at h
        | ok cs =>
          obtain ⟨new, rfl, rfl, hall, hnd⟩ := (checkColumns_ok_iff (by simp)).1 hc
          simp only [hc, Except.ok.injEq] at h
          subst h
          simp only [List.nil_append, List.length_map] at h₁ h₂ hnd ⊢
          exact ⟨by simpa using h₃, fun hn => h₁ (List.length_eq_zero_iff.2 hn), not_lt.1 h₂,
            fun c hc => (hall c hc).1, hnd, fun c hc => (hall c hc).2.1,
            fun c hc => (hall c hc).2.2, rfl⟩
  · intro h
    refine ⟨[], some s.name, some (s.cols.map some), ?_⟩
    have hcols : checkColumns 0 [] (s.cols.map some) = .ok s.cols :=
      (checkColumns_ok_iff (by simp)).2 ⟨s.cols, rfl, rfl,
        fun c hc => ⟨h.col_valid c hc, h.int32_size c hc, h.int64_size c hc⟩, h.nodup⟩
    have hne : s.cols.length ≠ 0 := fun hn => h.cols_ne_nil (List.length_eq_zero_iff.1 hn)
    have hle := h.length_le
    rw [checkSchema, if_neg (by simpa using hne), if_neg (by rw [List.length_map]; omega),
      if_neg (by simp [h.name_valid]), if_neg (by simp), hcols]
    simp only [← h.pkIndex_eq]

/-- `PERSONS_COLS` of `generated/persons_schema.c`. -/
def personsCols : List SqlRDBColumnDef := [
  ⟨lit "id", .int32, 0, 4, flagPrimaryKey⟩,
  ⟨lit "name", .text, 4, 32, 0⟩,
  ⟨lit "score", .real, 40, 8, flagNullable⟩]

/-- The schema that `RegisterPersons` registers. -/
def personsSchema : SqlRDBSchema := ⟨lit "persons", personsCols, some 0⟩

theorem personsSchema_accepted : personsSchema.Accepted :=
  ⟨[], some (lit "persons"), some (personsCols.map some), rfl⟩

variable {σ : Type}

/-- `registry_grow`. -/
def registryGrow : Api σ SqlRDBResult := do
  let h ← get
  let newCap := if h.registry.capacity = 0 then 8 else h.registry.capacity * 2
  let moves := h.heap.moves h.heap.tick
  let ok ← malloc
  if !ok then
    errSet .errNoMemory (lit "schema registry: out of memory growing to " ++ decimal newCap ++
      lit " entries")
    pure .errNoMemory
  else
    modify fun h =>
      if moves then
        { h with registry := { h.registry with block := h.heap.nextBlock, capacity := newCap },
                 heap := { h.heap with nextBlock := h.heap.nextBlock + 1 } }
      else { h with registry := { h.registry with capacity := newCap } }
    pure .ok

/-- `c2sql_internal_schema_register`. -/
def internalSchemaRegister (name : Option CStr) (cols : Option (List (Option SqlRDBColumnDef))) :
    Api σ SqlRDBResult := do
  let h ← get
  if !h.valid then pure .errInvalidHandle
  else match checkSchema h.registry.entries name cols with
    | .error (code, message) =>
      errSet code message
      pure code
    | .ok entry =>
      let r ← if h.registry.entries.length = h.registry.capacity then registryGrow else pure .ok
      if r ≠ .ok then pure r
      else
        let nameOk ← malloc
        if !nameOk then
          errSet .errNoMemory (lit "schema_register: out of memory duplicating name")
          pure .errNoMemory
        else
          -- `deep_copy_cols`: the array and one copy of a name per column
          let colsOk ← mallocs (entry.cols.length + 1)
          if !colsOk then
            errSet .errNoMemory (lit "schema_register: out of memory copying columns")
            pure .errNoMemory
          else
            modify fun h =>
              { h with registry := { h.registry with entries := h.registry.entries ++ [entry] } }
            pure .ok

/-! ## Lookup and removal -/

/-- A `const SqlRDBSchema *` into the registry. -/
structure SchemaPtr where
  block : ℕ
  idx : ℕ
  deriving DecidableEq

/-- The schema that a pointer refers to; a pointer into a freed block reads garbage. -/
def SqlRDBHandle.deref (h : SqlRDBHandle σ) (p : SchemaPtr) : SqlRDBSchema :=
  if p.block = h.registry.block then (h.registry.entries[p.idx]?).getD h.heap.garbage
  else h.heap.garbage

/-- `c2sql_internal_schema_lookup`, as a pointer. -/
def SqlRDBHandle.lookupPtr (h : SqlRDBHandle σ) (name : CStr) : Option SchemaPtr :=
  if !h.valid then none
  else (h.registry.entries.findIdx? fun s => s.name == name).map fun i => ⟨h.registry.block, i⟩

/-- `c2sql_internal_schema_lookup`, as the schema it points to. -/
def SqlRDBHandle.lookup (h : SqlRDBHandle σ) (name : CStr) : Option SqlRDBSchema :=
  if !h.valid then none else h.registry.entries.find? fun s => s.name == name

theorem SqlRDBHandle.mem_of_lookup {h : SqlRDBHandle σ} {name : CStr} {s : SqlRDBSchema}
    (hs : h.lookup name = some s) : s ∈ h.registry.entries := by
  rw [lookup] at hs
  split_ifs at hs
  exact List.mem_of_find?_eq_some hs

/-- `c2sql_internal_schema_unregister`: the entries behind the removed one move down. -/
def internalSchemaUnregister (name : CStr) : Api σ SqlRDBResult := do
  let h ← get
  if !h.valid then pure .errInvalidArg
  else match h.registry.entries.findIdx? fun s => s.name == name with
    | none => pure .errUnknownStruct
    | some i =>
      set { h with registry := { h.registry with entries := h.registry.entries.eraseIdx i } }
      pure .ok

end C2Sql
