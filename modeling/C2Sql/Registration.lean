import C2Sql.Frame

/-!
# What a registration does to a handle

A registration appends a schema, or it fails and the list of schemas is as before, also where the
synchronisation of the table failed after the schema had been appended. In both cases the array of
schemas may have been moved.

* `SqlRDBHandle.movesSchemas`: the registration moves the array;
* `Registered`: what a registration that returns does;
* `registerStruct_registered`: every registration.
-/

namespace C2Sql

open StateLogic

variable {σ : Type}

/-- The name of a new schema is its own, and no registered schema has it. -/
theorem checkSchema_ok {entries : List SqlRDBSchema} {name : CStr}
    {cols : Option (List (Option SqlRDBColumnDef))} {s : SqlRDBSchema}
    (h : checkSchema entries (some name) cols = .ok s) :
    s.name = name ∧ ∀ t ∈ entries, t.name ≠ name := by
  cases cols with
  | none => cases h
  | some cols =>
    rw [checkSchema] at h
    split_ifs at h with h₁ h₂ h₃ h₄
    split at h
    · cases h
    · simp only [Except.ok.injEq] at h
      subst h
      exact ⟨rfl, by simpa using h₄⟩

/-- What a registration checks about a name and its columns. -/
theorem checkSchema_ok_iff {entries : List SqlRDBSchema} {name : CStr}
    {cols : List SqlRDBColumnDef} :
    (∃ s, checkSchema entries (some name) (some (cols.map some)) = .ok s) ↔
      cols ≠ [] ∧ cols.length ≤ maxColumns ∧ identifierValid name = true ∧
        (∀ t ∈ entries, t.name ≠ name) ∧ (∀ c ∈ cols, ColumnOk c) ∧
        (cols.map fun c => c.name).Nodup := by
  have hcols : (∃ cs, checkColumns 0 [] (cols.map some) = .ok cs) ↔
      (∀ c ∈ cols, ColumnOk c) ∧ (cols.map fun c => c.name).Nodup := by
    constructor
    · rintro ⟨cs, h⟩
      obtain ⟨new, hnew, -, hall, hnd⟩ := (checkColumns_ok_iff (by simp)).1 h
      obtain rfl := List.map_injective_iff.2 (Option.some_injective _) hnew
      exact ⟨hall, hnd⟩
    · rintro ⟨hall, hnd⟩
      exact ⟨cols, (checkColumns_ok_iff (by simp)).2 ⟨cols, rfl, rfl, hall, hnd⟩⟩
  rw [← hcols, checkSchema]
  split_ifs with h₁ h₂ h₃ h₄
  · simp_all
  · simp_all
  · simp_all
  · simp_all
  · have hne : cols ≠ [] := fun h => h₁ (by simp [h])
    rw [List.length_map] at h₂
    have hfresh : ∀ t ∈ entries, t.name ≠ name := by simpa using h₄
    simp only [hne, ne_eq, not_false_eq_true, not_lt.1 h₂, true_and]
    cases checkColumns 0 [] (cols.map some) with
    | error e => simp
    | ok cs => simpa [Bool.not_eq_true', h₃] using ⟨by simpa using h₃, hfresh⟩

/-- The registration gets as far as growing the array of schemas, and `realloc` moves it. -/
def SqlRDBHandle.movesSchemas (h : SqlRDBHandle σ) (name : Option CStr)
    (cols : Option (List (Option SqlRDBColumnDef))) : Bool :=
  h.valid && (checkSchema h.registry.entries name cols).isOk &&
    h.registry.entries.length == h.registry.capacity && !h.heap.fails h.heap.tick &&
    h.heap.moves h.heap.tick

/-- A registration on `h` that ends in `h'` with the given code. -/
structure Registered (h : SqlRDBHandle σ) (name : Option CStr)
    (cols : Option (List (Option SqlRDBColumnDef))) (code : SqlRDBResult) (h' : SqlRDBHandle σ) :
    Prop where
  magic : h'.magic = h.magic
  config : h'.config = h.config
  mutex : h'.mutex = h.mutex ∨ h'.mutex = h.mutex.lock.unlock
  moves : h'.heap.moves = h.heap.moves
  block : h'.registry.block =
    if h.movesSchemas name cols then h.heap.nextBlock else h.registry.block
  nextBlock : h'.heap.nextBlock =
    if h.movesSchemas name cols then h.heap.nextBlock + 1 else h.heap.nextBlock
  failed : code ≠ .ok → h'.registry.entries = h.registry.entries
  ok : code = .ok → ∃ s, checkSchema h.registry.entries name cols = .ok s ∧
    h'.registry.entries = h.registry.entries ++ [s]

/-- A handle with another array of schemas. -/
def SqlRDBHandle.withSchemas (h : SqlRDBHandle σ) (block nextBlock capacity : ℕ)
    (entries : List SqlRDBSchema) : SqlRDBHandle σ :=
  { h with registry := ⟨block, entries, capacity⟩, heap := { h.heap with nextBlock := nextBlock } }

/-- The array of schemas is left alone, or there is a larger one. -/
theorem registryGrow_spec (h : SqlRDBHandle σ) :
    wp registryGrow (fun r h' =>
      (r ≠ .ok ∧ h.heap.fails h.heap.tick = true ∧ h'.core = h.core) ∨
      r = .ok ∧ h.heap.fails h.heap.tick = false ∧ ∃ capacity, h.registry.capacity < capacity ∧
        h'.core = h.core.withSchemas
          (if h.heap.moves h.heap.tick then h.heap.nextBlock else h.registry.block)
          (if h.heap.moves h.heap.tick then h.heap.nextBlock + 1 else h.heap.nextBlock)
          capacity h.registry.entries) h := by
  simp only [registryGrow, wp_bind, wp_get, wp_malloc, wp_ite, wp_errSet, wp_pure, wp_modify,
    Bool.not_not]
  split
  case isTrue hf => exact .inl ⟨by decide, hf, rfl⟩
  case isFalse hf =>
    refine .inr ⟨trivial, by simpa using hf, if h.registry.capacity = 0 then 8
      else h.registry.capacity * 2, ?_, ?_⟩
    · split <;> omega
    · split <;> rfl

theorem checkSchema_error_ne_ok {entries : List SqlRDBSchema} {name : Option CStr}
    {cols : Option (List (Option SqlRDBColumnDef))} {code : SqlRDBResult} {message : CStr}
    (h : checkSchema entries name cols = .error (code, message)) : code ≠ .ok := by
  have hcolumn : ∀ {i : ℕ} {before : List SqlRDBColumnDef} {col : Option SqlRDBColumnDef},
      checkColumn i before col = .error (code, message) → code ≠ .ok := by
    intro i before col h
    unfold checkColumn at h
    split at h
    · cases h
      decide
    · split_ifs at h <;> cases h <;> decide
  have hcolumns : ∀ {i : ℕ} {before : List SqlRDBColumnDef} {cols : List (Option SqlRDBColumnDef)},
      checkColumns i before cols = .error (code, message) → code ≠ .ok := by
    intro i before cols h
    induction cols generalizing i before with
    | nil => cases h
    | cons col cols ih =>
      rw [checkColumns] at h
      split at h
      case h_1 e he =>
        cases h
        exact hcolumn he
      case h_2 c hc => exact ih h
  unfold checkSchema at h
  split at h
  case h_2 =>
    cases h
    decide
  case h_1 name cols =>
    split_ifs at h
    case neg =>
      split at h
      case h_1 e he =>
        cases h
        exact hcolumns he
      case h_2 => cases h
    all_goals
      cases h
      decide

/-- The part of `c2sql_internal_schema_register` after there is room for the entry. -/
def appendEntry (s : SqlRDBSchema) : Api σ SqlRDBResult := do
  let nameOk ← malloc
  if !nameOk then
    errSet .errNoMemory (lit "schema_register: out of memory duplicating name")
    pure .errNoMemory
  else
    let colsOk ← mallocs (s.cols.length + 1)
    if !colsOk then
      errSet .errNoMemory (lit "schema_register: out of memory copying columns")
      pure .errNoMemory
    else
      modify fun h =>
        { h with registry := { h.registry with entries := h.registry.entries ++ [s] } }
      pure .ok

/-- The entry is appended, or there is no memory for its copies. -/
theorem appendEntry_spec (s : SqlRDBSchema) (h : SqlRDBHandle σ) :
    wp (appendEntry s) (fun r h' =>
      ((r ≠ .ok ∧ h'.core = h.core) ∨ r = .ok ∧
        h'.core = h.core.withSchemas h.registry.block h.heap.nextBlock h.registry.capacity
          (h.registry.entries ++ [s])) ∧
      ((∀ k, h.heap.fails k = false) → r = .ok)) h := by
  simp only [appendEntry, wp_bind, wp_malloc, wp_ite, wp_errSet, wp_pure, wp_modify]
  split
  case isTrue hf => exact ⟨.inl ⟨by decide, rfl⟩, fun hheap => by simp [hheap] at hf⟩
  case isFalse =>
    have hcopies := mallocs_spec (s.cols.length + 1) { h with heap := h.heap.next }
    refine wp_mono hcopies ?_
    rintro colsOk h₂ ⟨⟨t, ht⟩, hok⟩
    subst ht
    split
    case isTrue hf => exact ⟨.inl ⟨by decide, rfl⟩, fun hheap => by simp [hok hheap] at hf⟩
    case isFalse => exact ⟨.inr ⟨trivial, rfl⟩, fun _ => trivial⟩

/-- A registration appends a schema that its checks accept, where there is room for it. -/
theorem internalSchemaRegister_spec (h : SqlRDBHandle σ) (hv : h.valid = true) (name : Option CStr)
    (cols : Option (List (Option SqlRDBColumnDef))) :
    wp (internalSchemaRegister name cols) (fun r h' => ∃ capacity entries,
      h'.core = h.core.withSchemas
        (if h.movesSchemas name cols then h.heap.nextBlock else h.registry.block)
        (if h.movesSchemas name cols then h.heap.nextBlock + 1 else h.heap.nextBlock)
        capacity entries ∧
      (h.registry.entries.length ≤ h.registry.capacity → entries.length ≤ capacity) ∧
      ((r ≠ .ok ∧ entries = h.registry.entries) ∨
        r = .ok ∧ ∃ s, checkSchema h.registry.entries name cols = .ok s ∧
          entries = h.registry.entries ++ [s])) h := by
  simp only [internalSchemaRegister, wp_bind, wp_get, hv, Bool.not_true, Bool.false_eq_true,
    if_false]
  cases hc : checkSchema h.registry.entries name cols with
  | error e =>
    have hm : h.movesSchemas name cols = false := by
      simp [SqlRDBHandle.movesSchemas, hc, Except.isOk, Except.toBool]
    simp only [wp_bind, wp_errSet, wp_pure, hm]
    exact ⟨_, _, rfl, id, .inl ⟨checkSchema_error_ne_ok hc, rfl⟩⟩
  | ok s =>
    -- what follows once there is room for the entry
    have hnew : ∀ (h₁ : SqlRDBHandle σ) (block nextBlock capacity : ℕ),
        h₁.core = h.core.withSchemas block nextBlock capacity h.registry.entries →
        (h.registry.entries.length ≤ h.registry.capacity →
          h.registry.entries.length < capacity) →
        wp (appendEntry s) (fun r h' => ∃ capacity entries,
          h'.core = h.core.withSchemas block nextBlock capacity entries ∧
            (h.registry.entries.length ≤ h.registry.capacity → entries.length ≤ capacity) ∧
            ((r ≠ .ok ∧ entries = h.registry.entries) ∨
              r = .ok ∧ ∃ s', Except.ok (ε := SqlRDBResult × CStr) s = .ok s' ∧
                entries = h.registry.entries ++ [s'])) h₁ := by
      intro h₁ block nextBlock capacity h₁core hroom
      have hreg : h₁.registry = ⟨block, h.registry.entries, capacity⟩ :=
        congrArg SqlRDBHandle.registry h₁core
      have hnext : h₁.heap.nextBlock = nextBlock := congrArg (fun v => v.heap.nextBlock) h₁core
      refine wp_mono (appendEntry_spec s h₁) fun r h' hr => ?_
      obtain ⟨⟨hne, hcore⟩ | ⟨rfl, hcore⟩, -⟩ := hr
      · exact ⟨capacity, _, hcore.trans h₁core, fun hle => (hroom hle).le, .inl ⟨hne, rfl⟩⟩
      · rw [h₁core, hreg, hnext] at hcore
        refine ⟨capacity, _, hcore, fun hle => ?_, .inr ⟨rfl, s, rfl, rfl⟩⟩
        rw [List.length_append]
        exact hroom hle
    rw [wp_ite]
    split
    case isTrue hfull =>
      rw [wp_bind]
      refine wp_mono (registryGrow_spec h) fun r h₁ hgrow => ?_
      have hmoves : h.movesSchemas name cols =
          (!h.heap.fails h.heap.tick && h.heap.moves h.heap.tick) := by
        simp [SqlRDBHandle.movesSchemas, hv, hc, Except.isOk, Except.toBool, hfull]
      rw [hmoves]
      obtain ⟨hne, hf, hcore⟩ | ⟨rfl, hf, capacity, hlt, hcore⟩ := hgrow
      · rw [if_pos hne, hf]
        exact ⟨_, _, hcore, id, .inl ⟨hne, rfl⟩⟩
      · rw [if_neg (by simp), hf, Bool.not_false, Bool.true_and]
        exact hnew h₁ _ _ capacity hcore fun _ => hfull.trans_lt hlt
    case isFalse hfull =>
      have hmoves : h.movesSchemas name cols = false := by
        simp [SqlRDBHandle.movesSchemas, hfull]
      rw [hmoves]
      exact hnew h _ _ h.registry.capacity rfl fun hle => lt_of_le_of_ne hle hfull

/-- With enough memory, a registration succeeds exactly if its checks do. -/
theorem internalSchemaRegister_ok_iff {h : SqlRDBHandle σ} (hv : h.valid = true)
    (hheap : ∀ k, h.heap.fails k = false) (name : Option CStr)
    (cols : Option (List (Option SqlRDBColumnDef))) :
    (internalSchemaRegister name cols h).1 = .ok ↔
      ∃ s, checkSchema h.registry.entries name cols = .ok s := by
  change wp (internalSchemaRegister name cols) (fun r _ => r = .ok ↔ _) h
  simp only [internalSchemaRegister, wp_bind, wp_get, hv, Bool.not_true, Bool.false_eq_true,
    if_false]
  cases hc : checkSchema h.registry.entries name cols with
  | error e =>
    simp only [wp_bind, wp_errSet, wp_pure]
    simpa using checkSchema_error_ne_ok hc
  | ok s =>
    have happend : ∀ h₁ : SqlRDBHandle σ, (∀ k, h₁.heap.fails k = false) →
        wp (appendEntry s) (fun r _ => r = .ok) h₁ := fun h₁ hf =>
      wp_mono (appendEntry_spec s h₁) fun _ _ hr => hr.2 hf
    have hdone : ∃ s', Except.ok (ε := SqlRDBResult × CStr) s = .ok s' := ⟨s, rfl⟩
    simp only [hdone, iff_true]
    rw [wp_ite]
    split
    · rw [wp_bind]
      refine wp_mono (registryGrow_spec h) fun r h₁ hgrow => ?_
      obtain ⟨-, hf, -⟩ | ⟨rfl, -, capacity, -, hcore⟩ := hgrow
      · rw [hheap] at hf
        cases hf
      · have hf : h₁.heap.fails = h.heap.fails := congrArg (fun v => v.heap.fails) hcore
        rw [if_neg (not_not.2 rfl)]
        exact happend h₁ (by rw [hf]; exact hheap)
    · exact happend h hheap

/-- The removal of the schema that was appended last. -/
theorem internalSchemaUnregister_last {h : SqlRDBHandle σ} (hv : h.valid = true) {name : CStr}
    {entries : List SqlRDBSchema} {s : SqlRDBSchema}
    (hentries : h.registry.entries = entries ++ [s]) (hs : s.name = name)
    (hnew : ∀ t ∈ entries, t.name ≠ name) :
    wp (internalSchemaUnregister name) (fun r h' => r = .ok ∧
      h'.core = h.core.withSchemas h.registry.block h.heap.nextBlock h.registry.capacity entries)
      h := by
  have hfind : (entries ++ [s]).findIdx? (fun t => t.name == name) = some entries.length := by
    rw [List.findIdx?_append, List.findIdx?_eq_none_iff.2 (by simpa using hnew)]
    simp [hs]
  simp only [internalSchemaUnregister, wp_bind, wp_get, hv, Bool.not_true, Bool.false_eq_true,
    if_false, hentries, hfind, wp_set, wp_pure]
  simp [SqlRDBHandle.core, SqlRDBHandle.withSchemas, List.eraseIdx_append_of_length_le]

/-- A registration is known by the core of the handle that it ends in. -/
theorem Registered.of_core {h h' : SqlRDBHandle σ} {name : Option CStr}
    {cols : Option (List (Option SqlRDBColumnDef))} {code : SqlRDBResult} (capacity : ℕ)
    {entries : List SqlRDBSchema} (mutex : SqlRDBMutex)
    (hcore : h'.core = { h.core.withSchemas
        (if h.movesSchemas name cols then h.heap.nextBlock else h.registry.block)
        (if h.movesSchemas name cols then h.heap.nextBlock + 1 else h.heap.nextBlock)
        capacity entries with mutex := mutex })
    (hmutex : mutex = h.mutex ∨ mutex = h.mutex.lock.unlock)
    (hentries : (code ≠ .ok ∧ entries = h.registry.entries) ∨
      code = .ok ∧ ∃ s, checkSchema h.registry.entries name cols = .ok s ∧
        entries = h.registry.entries ++ [s]) : Registered h name cols code h' := by
  have hreg : h'.registry = ⟨if h.movesSchemas name cols then h.heap.nextBlock
      else h.registry.block, entries, capacity⟩ := congrArg SqlRDBHandle.registry hcore
  have hm : h'.mutex = mutex := congrArg SqlRDBHandle.mutex hcore
  have hes : h'.registry.entries = entries := by rw [hreg]
  refine ⟨congrArg (fun v => v.magic) hcore, congrArg (fun v => v.config) hcore, hm ▸ hmutex,
    congrArg (fun v => v.heap.moves) hcore, by rw [hreg],
    congrArg (fun v => v.heap.nextBlock) hcore, fun hne => ?_, fun hok => ?_⟩
  · obtain ⟨-, rfl⟩ | ⟨hok, -⟩ := hentries
    · exact hes
    · exact absurd hok hne
  · obtain ⟨hne, -⟩ | ⟨-, s, hs, rfl⟩ := hentries
    · exact absurd hok hne
    · exact ⟨s, hs, hes⟩

/-- A registration that is refused at once. -/
theorem Registered.refused {h h' : SqlRDBHandle σ} {name : Option CStr}
    {cols : Option (List (Option SqlRDBColumnDef))} {code : SqlRDBResult}
    (hmoves : h.movesSchemas name cols = false) (hcore : h'.core = h.core) (hcode : code ≠ .ok) :
    Registered h name cols code h' := by
  refine .of_core h.registry.capacity h.mutex ?_ (.inl rfl) (.inl ⟨hcode, rfl⟩)
  rw [hmoves, hcore]
  rfl

/-- The schema that has been appended is the one that is looked up. -/
theorem lookup_of_appended {h h' : SqlRDBHandle σ} {schema : SqlRDBSchema} {name : CStr}
    {cols : Option (List (Option SqlRDBColumnDef))}
    (hcheck : checkSchema h.registry.entries (some name) cols = .ok schema)
    (hv : h'.valid = true) (hentries : h'.registry.entries = h.registry.entries ++ [schema]) :
    h'.lookup name = some schema := by
  obtain ⟨hname, hnew⟩ := checkSchema_ok hcheck
  rw [SqlRDBHandle.lookup, hv, hentries]
  simp only [Bool.not_true, Bool.false_eq_true, if_false, List.find?_append]
  rw [List.find?_eq_none.2 (by simpa using hnew)]
  simp [hname]

/-- The name and at least one column. -/
def RegisterArgs (name : Option CStr) (cols : Option (List (Option SqlRDBColumnDef))) : Prop :=
  ∃ n cs, name = some n ∧ cols = some cs ∧ cs ≠ []

theorem checkSchema_of_missing {entries : List SqlRDBSchema} {name : Option CStr}
    {cols : Option (List (Option SqlRDBColumnDef))} (hargs : ¬RegisterArgs name cols) :
    (checkSchema entries name cols).isOk = false := by
  rcases name with _ | name
  · rfl
  · rcases cols with _ | _ | ⟨c, cs⟩
    · rfl
    · rfl
    · exact absurd ⟨name, c :: cs, rfl, rfl, List.cons_ne_nil c cs⟩ hargs

/-- A registration without a name or a column. -/
theorem wp_registerStruct_missing {d : SqlRDBDriver σ} {fuel : ℕ} {h : SqlRDBHandle σ}
    (hv : h.valid = true) {name : Option CStr} {cols : Option (List (Option SqlRDBColumnDef))}
    (hargs : ¬RegisterArgs name cols) {Q : Option SqlRDBResult → SqlRDBHandle σ → Prop}
    (hQ : ∀ message, Q (some .errInvalidArg) { h with error := ⟨.errInvalidArg, message⟩ }) :
    wp (sqlRDBRegisterStruct d fuel name cols) Q h := by
  simp only [sqlRDBRegisterStruct, wp_bind, wp_get, hv, Bool.not_true, Bool.false_eq_true,
    if_false]
  split
  case h_1 name c cs => exact absurd ⟨name, c :: cs, rfl, rfl, List.cons_ne_nil c cs⟩ hargs
  case h_2 => exact hQ _

/-- A registration whose arguments are given, step by step: the schema is not appended, or its table
is synchronised, and the schema removed again if that fails. -/
theorem wp_registerStruct {d : SqlRDBDriver σ} {fuel : ℕ} {h : SqlRDBHandle σ}
    (hv : h.valid = true) {name : CStr} {cols : List (Option SqlRDBColumnDef)} (hcols : cols ≠ [])
    {Q : Option SqlRDBResult → SqlRDBHandle σ → Prop}
    (hfailed : ∀ r h₁, internalSchemaRegister (some name) (some cols) h.locked = (r, h₁) →
      r ≠ .ok → Q (some r) h₁.unlocked)
    (hsynced : ∀ h₁ s, internalSchemaRegister (some name) (some cols) h.locked = (.ok, h₁) →
      checkSchema h.registry.entries (some name) (some cols) = .ok s →
      wp (internalMigrateTable d fuel s) (fun res h₂ =>
        (res = none → Q none h₂) ∧ (res = some .ok → Q (some .ok) h₂.unlocked) ∧
          ∀ r, res = some r → r ≠ .ok →
            Q (some r) (internalSchemaUnregister name h₂).2.unlocked) h₁) :
    wp (sqlRDBRegisterStruct d fuel (some name) (some cols)) Q h := by
  obtain ⟨c, cs, rfl⟩ := List.exists_cons_of_ne_nil hcols
  have hspec := internalSchemaRegister_spec h.locked hv (some name) (some (c :: cs))
  simp only [sqlRDBRegisterStruct, wp_bind, wp_get, hv, Bool.not_true, Bool.false_eq_true,
    if_false, wp_mutexLock]
  change wp (internalSchemaRegister (some name) (some (c :: cs))) _ h.locked
  rw [wp] at hspec ⊢
  generalize hres : internalSchemaRegister (some name) (some (c :: cs)) h.locked = res
    at hspec ⊢
  obtain ⟨r, h₁⟩ := res
  obtain ⟨capacity, entries, hcore, -, ⟨hne, -⟩ | ⟨rfl, s, hs, rfl⟩⟩ := hspec
  · dsimp only at hne ⊢
    rw [if_pos hne, wp_bind, wp_mutexUnlock]
    exact hfailed r h₁ hres hne
  · have hv₁ : h₁.valid = true := (congrArg (fun v => v.magic == handleMagic) hcore).trans hv
    have hlook : h₁.lookup name = some s :=
      lookup_of_appended hs hv₁ (congrArg (fun v => v.registry.entries) hcore)
    dsimp only
    rw [if_neg (not_not.2 rfl), wp_bind, wp_get, hlook]
    simp only [wp_bind]
    refine wp_mono (hsynced h₁ s hres hs) ?_
    rintro (_ | r) h₂ ⟨hnone, hok, hne⟩
    · exact hnone rfl
    · simp only [wp_ite, wp_bind]
      split
      case isTrue hr =>
        rw [wp, wp_mutexUnlock]
        exact hne r rfl hr
      case isFalse hr =>
        obtain rfl := not_not.1 hr
        rw [wp_mutexUnlock]
        exact hok rfl

/-- **Every registration.** It appends a schema or leaves the schemas as they are. -/
theorem registerStruct_registered (d : SqlRDBDriver σ) (fuel : ℕ) (name : Option CStr)
    (cols : Option (List (Option SqlRDBColumnDef))) (h : SqlRDBHandle σ) :
    wp (sqlRDBRegisterStruct d fuel name cols)
      (fun r h' => ∀ code, r = some code → Registered h name cols code h') h := by
  cases hv : h.valid with
  | false =>
    simp only [sqlRDBRegisterStruct, wp_bind, wp_get, hv]
    rintro _ ⟨⟩
    exact .refused (by simp [SqlRDBHandle.movesSchemas, hv]) rfl (by decide)
  | true =>
    by_cases hargs : RegisterArgs name cols
    · obtain ⟨name, cols, rfl, rfl, hcols⟩ := hargs
      have hspec := internalSchemaRegister_spec h.locked hv (some name) (some cols)
      rw [wp] at hspec
      refine wp_registerStruct hv hcols ?_ ?_
      · intro r h₁ hres hne
        rw [hres] at hspec
        obtain ⟨capacity, entries, hcore, -, ⟨-, rfl⟩ | ⟨hok, -⟩⟩ := hspec
        · rintro _ ⟨⟩
          refine .of_core capacity h.mutex.lock.unlock ?_ (.inr rfl) (.inl ⟨hne, rfl⟩)
          exact congrArg SqlRDBHandle.unlocked hcore
        · exact absurd hok hne
      · intro h₁ s hres hs
        rw [hres] at hspec
        obtain ⟨capacity, entries, hcore, -, ⟨hne, -⟩ | ⟨-, s', hs', rfl⟩⟩ := hspec
        · exact absurd rfl hne
        cases hs.symm.trans hs'
        obtain ⟨hname, hnew⟩ := checkSchema_ok hs
        have hkeeps := (background_core d).internalMigrateTable fuel s
        refine wp_mono (hkeeps.wp h₁) fun res h₂ hcore₂ => ?_
        rw [hcore] at hcore₂
        refine ⟨?_, ?_, ?_⟩
        · rintro - _ ⟨⟩
        · rintro - _ ⟨⟩
          refine .of_core capacity h.mutex.lock.unlock ?_ (.inr rfl) (.inr ⟨rfl, s, hs, rfl⟩)
          exact congrArg SqlRDBHandle.unlocked hcore₂
        · rintro r - hne _ ⟨⟩
          have hreg₂ : h₂.registry = _ := congrArg (fun v => v.registry) hcore₂
          have hv₂ : h₂.valid = true :=
            (congrArg (fun v => v.magic == handleMagic) hcore₂).trans hv
          obtain ⟨-, hcore₃⟩ :=
            internalSchemaUnregister_last hv₂ (congrArg (·.entries) hreg₂) hname hnew
          refine .of_core capacity h.mutex.lock.unlock ?_ (.inr rfl) (.inl ⟨hne, rfl⟩)
          have hnext : h₂.heap.nextBlock = _ := congrArg (fun v => v.heap.nextBlock) hcore₂
          rw [hcore₂, hreg₂, hnext] at hcore₃
          exact congrArg SqlRDBHandle.unlocked hcore₃
    · refine wp_registerStruct_missing hv hargs fun message => ?_
      rintro _ ⟨⟩
      exact .refused (by simp [SqlRDBHandle.movesSchemas, checkSchema_of_missing hargs]) rfl
        (by decide)

/-! ## Open handles -/

/-- A handle stays open. -/
theorem magic_exec (d : SqlRDBDriver σ) (w : Client σ) (c : Call)
    (hret : (c.exec d w).1.code.isSome) : (c.exec d w).2.handle.magic = w.handle.magic := by
  obtain ⟨code, hcode⟩ := Option.isSome_iff_exists.1 hret
  by_cases hc : c.changesCore = true
  · cases c with
    | registerStruct fuel name cols =>
      exact (registerStruct_registered d fuel name cols w.handle code hcode).magic
    | setConfig cfg =>
      by_cases hrefused : w.handle.valid = false ∨ cfg = none
      · exact congrArg SqlRDBHandle.magic (setConfig_refused d hrefused)
      · rw [not_or, Bool.not_eq_false] at hrefused
        obtain ⟨cfg, rfl⟩ := Option.ne_none_iff_exists'.1 hrefused.2
        obtain ⟨-, -, hcore⟩ | ⟨-, -, hcore⟩ := setConfig_core d hrefused.1 cfg code hcode
        · exact congrArg (fun v => v.magic) hcore
        · exact congrArg (fun v => v.magic) hcore
    | _ => cases hc
  · obtain hcore | hcore := bracketed_exec d (by simpa using hc) w
    · exact congrArg (fun v => v.magic) hcore
    · exact congrArg (fun v => v.magic) hcore

theorem valid_exec (d : SqlRDBDriver σ) {w : Client σ} (hw : w.handle.valid = true) (c : Call)
    (hret : (c.exec d w).1.code.isSome) : (c.exec d w).2.handle.valid = true :=
  (congrArg (· == handleMagic) (magic_exec d w c hret)).trans hw

theorem valid_run (d : SqlRDBDriver σ) {w : Client σ} (hw : w.handle.valid = true) {cs : List Call}
    (hret : Returns d cs w) : (run d cs w).2.handle.valid = true :=
  run_invariant (I := fun w => w.handle.valid = true)
    (fun _ c hw _ hret => valid_exec d hw c hret) hw (along_true cs) hret

end C2Sql
