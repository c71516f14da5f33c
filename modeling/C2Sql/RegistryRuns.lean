import C2Sql.Identifiers
import C2Sql.Registration

/-!
# The registry over runs

Sequences of calls of `c2sql_internal_schema_register` and `c2sql_internal_schema_unregister`, with
any arguments and whatever the allocator does.

* `RegistryCall.run_cases`: what one call can do to the entries;
* `RegistryInvariant`: what holds of the registry between calls;
* `registeredCols`: the columns of a name, from the calls and their results alone;
* `shiftDown_take`: the loop that closes the gap of a removed entry;
* `registry_runs`: the invariant holds after every sequence of calls, and a lookup finds what the
  calls have left.
-/

namespace C2Sql

open StateLogic

variable {σ : Type}

/-! ## Calls -/

/-- `c2sql_internal_schema_registry_init`. -/
def internalSchemaRegistryInit : Api σ SqlRDBResult := do
  modify fun h => { h with registry := ⟨0, [], 0⟩ }
  pure .ok

/-- A call on the registry; a NULL argument is `none`. -/
inductive RegistryCall
  | register (name : Option CStr) (cols : Option (List (Option SqlRDBColumnDef)))
  | unregister (name : Option CStr)

/-- The call on a handle. -/
def RegistryCall.run : RegistryCall → Api σ SqlRDBResult
  | register name cols => internalSchemaRegister name cols
  | unregister (some name) => internalSchemaUnregister name
  | unregister none => pure .errInvalidArg

/-- A call and what it returned. -/
abbrev RegistryEvent := RegistryCall × SqlRDBResult

/-- The calls, the latest one first: their events, and the handle after them. -/
def runRegistryCalls (h : SqlRDBHandle σ) : List RegistryCall → List RegistryEvent × SqlRDBHandle σ
  | [] => ([], h)
  | c :: past =>
    let (events, h) := runRegistryCalls h past
    ((c, (c.run h).1) :: events, (c.run h).2)

/-- The columns given to the last successful registration of a name that has not been removed since,
by the events, the latest one first. -/
def registeredCols (name : CStr) : List RegistryEvent → Option (List (Option SqlRDBColumnDef))
  | [] => none
  | (.register (some n) cols, .ok) :: past => if n = name then cols else registeredCols name past
  | (.unregister (some n), .ok) :: past => if n = name then none else registeredCols name past
  | _ :: past => registeredCols name past

/-! ## The invariant -/

/-- The least position of a primary key column. -/
def IsPkIndex (cols : List SqlRDBColumnDef) : Option ℕ → Prop
  | some i => (∃ c, cols[i]? = some c ∧ c.pk = true) ∧
      ∀ j < i, ∀ c, cols[j]? = some c → c.pk = false
  | none => ∀ c ∈ cols, c.pk = false

/-- What holds of an entry. -/
structure EntryOk (s : SqlRDBSchema) : Prop where
  length_pos : 1 ≤ s.cols.length
  length_le : s.cols.length ≤ 64
  col_valid : ∀ c ∈ s.cols, IsIdentifier c.name
  nodup : (s.cols.map fun c => c.name).Nodup
  int32_size : ∀ c ∈ s.cols, c.type = .int32 → c.size = 4
  int64_size : ∀ c ∈ s.cols, c.type = .int64 → c.size = 8
  isPkIndex : IsPkIndex s.cols s.pkIndex

/-- What holds of the registry. -/
structure RegistryInvariant (reg : SqlRDBSchemaRegistry) : Prop where
  count_le : reg.entries.length ≤ reg.capacity
  nodup : (reg.entries.map fun s => s.name).Nodup
  entries_ok : ∀ s ∈ reg.entries, EntryOk s

theorem isPkIndex_findIdx? (cols : List SqlRDBColumnDef) :
    IsPkIndex cols (cols.findIdx? fun c => c.pk) := by
  cases hi : cols.findIdx? fun c => c.pk with
  | none =>
    intro c hc
    exact List.findIdx?_eq_none_iff.1 hi c hc
  | some i =>
    obtain ⟨hlt, hpk, hbefore⟩ := List.findIdx?_eq_some_iff_getElem.1 hi
    refine ⟨⟨_, List.getElem?_eq_getElem hlt, hpk⟩, fun j hj c hc => ?_⟩
    obtain ⟨hlt', rfl⟩ := List.getElem?_eq_some_iff.1 hc
    exact Bool.eq_false_iff.2 (hbefore j hj)

theorem SqlRDBSchema.WellFormed.entryOk {s : SqlRDBSchema} (h : s.WellFormed) : EntryOk s where
  length_pos := List.length_pos_iff.2 h.cols_ne_nil
  length_le := h.length_le
  col_valid c hc := (isIdentifier_iff _).2 (h.col_valid c hc)
  nodup := h.nodup
  int32_size := h.int32_size
  int64_size := h.int64_size
  isPkIndex := h.pkIndex_eq ▸ isPkIndex_findIdx? s.cols

/-- An accepted schema has the columns that were given. -/
theorem checkSchema_cols {entries : List SqlRDBSchema} {name : Option CStr}
    {cols : Option (List (Option SqlRDBColumnDef))} {s : SqlRDBSchema}
    (h : checkSchema entries name cols = .ok s) :
    ∃ n, name = some n ∧ cols = some (s.cols.map some) := by
  unfold checkSchema at h
  split at h
  case h_2 => cases h
  case h_1 name cols =>
    split_ifs at h
    split at h
    case h_1 => cases h
    case h_2 cs hcs =>
      obtain ⟨new, rfl, rfl, -⟩ := (checkColumns_ok_iff (by simp)).1 hcs
      cases h
      exact ⟨name, rfl, rfl⟩

/-! ## One call -/

/-- What a call can do: it fails and leaves the entries, it appends an accepted entry, or it removes
the entry of a name. -/
theorem RegistryCall.run_cases (c : RegistryCall) (h : SqlRDBHandle σ) :
    wp c.run (fun r h' => h'.valid = h.valid ∧
      (h.registry.entries.length ≤ h.registry.capacity →
        h'.registry.entries.length ≤ h'.registry.capacity) ∧
      ((r ≠ .ok ∧ h'.registry.entries = h.registry.entries) ∨
        r = .ok ∧ h.valid = true ∧
          ((∃ name cols s, c = .register (some name) cols ∧
              checkSchema h.registry.entries (some name) cols = .ok s ∧
              h'.registry.entries = h.registry.entries ++ [s]) ∨
            ∃ name i, c = .unregister (some name) ∧
              h.registry.entries.findIdx? (fun s => s.name == name) = some i ∧
              h'.registry.entries = h.registry.entries.eraseIdx i))) h := by
  cases hv : h.valid with
  | false =>
    cases c with
    | register name cols =>
      simp only [run, internalSchemaRegister, wp_bind, wp_get, hv, Bool.not_false, if_true, wp_pure]
      exact ⟨trivial, id, .inl ⟨(by rintro ⟨⟩), trivial⟩⟩
    | unregister name =>
      cases name with
      | none => exact ⟨hv, id, .inl ⟨(by rintro ⟨⟩), rfl⟩⟩
      | some name =>
        simp only [run, internalSchemaUnregister, wp_bind, wp_get, hv, Bool.not_false, if_true,
          wp_pure]
        exact ⟨trivial, id, .inl ⟨(by rintro ⟨⟩), trivial⟩⟩
  | true =>
    cases c with
    | register name cols =>
      refine wp_mono (internalSchemaRegister_spec h hv name cols) fun r h' hr => ?_
      obtain ⟨capacity, entries, hcore, hle, hr⟩ := hr
      have hreg : h'.registry = ⟨_, entries, capacity⟩ := congrArg SqlRDBHandle.registry hcore
      have hvalid : h'.valid = true := (congrArg (fun v => v.magic == handleMagic) hcore).trans hv
      refine ⟨hvalid, by rwa [hreg], ?_⟩
      rw [hreg]
      obtain ⟨hne, rfl⟩ | ⟨rfl, s, hs, rfl⟩ := hr
      · exact .inl ⟨hne, rfl⟩
      · obtain ⟨n, rfl, -⟩ := checkSchema_cols hs
        exact .inr ⟨rfl, rfl, .inl ⟨n, cols, s, rfl, hs, rfl⟩⟩
    | unregister name =>
      cases name with
      | none => exact ⟨hv, id, .inl ⟨(by rintro ⟨⟩), rfl⟩⟩
      | some name =>
        simp only [run, internalSchemaUnregister, wp_bind, wp_get, hv, Bool.not_true,
          Bool.false_eq_true, if_false]
        cases hi : h.registry.entries.findIdx? fun s => s.name == name with
        | none => exact ⟨hv, id, .inl ⟨(by rintro ⟨⟩), rfl⟩⟩
        | some i =>
          refine ⟨hv, fun hle => ?_, .inr ⟨rfl, trivial, .inr ⟨name, i, rfl, hi, rfl⟩⟩⟩
          exact (List.length_eraseIdx_le _ _).trans hle

/-! ## Lookups -/

section Lookup

variable {entries : List SqlRDBSchema} {name : CStr}

/-- A new entry is found under its name, and changes no other lookup. -/
theorem find?_append_entry {s : SqlRDBSchema} (hnew : ∀ t ∈ entries, t.name ≠ s.name) (n : CStr) :
    (entries ++ [s]).find? (fun t => t.name == n) =
      if s.name = n then some s else entries.find? fun t => t.name == n := by
  rw [List.find?_append]
  split_ifs with hn
  · subst hn
    rw [List.find?_eq_none.2 (by simpa using hnew)]
    simp
  · simp [hn]

/-- The entry of a name, among the others. -/
theorem exists_of_findIdx? {i : ℕ} (hi : entries.findIdx? (fun s => s.name == name) = some i) :
    ∃ before s after, entries = before ++ s :: after ∧ before.length = i ∧ s.name = name := by
  obtain ⟨hlt, hname, -⟩ := List.findIdx?_eq_some_iff_getElem.1 hi
  refine ⟨entries.take i, entries[i], entries.drop (i + 1), ?_, ?_, beq_iff_eq.1 hname⟩
  · rw [← List.drop_eq_getElem_cons hlt, List.take_append_drop]
  · rw [List.length_take]
    omega

/-- Nothing is found under the name of a removed entry, and no other lookup changes. -/
theorem find?_eraseIdx_entry (hnodup : (entries.map fun s => s.name).Nodup) {i : ℕ}
    (hi : entries.findIdx? (fun s => s.name == name) = some i) (n : CStr) :
    (entries.eraseIdx i).find? (fun t => t.name == n) =
      if name = n then none else entries.find? fun t => t.name == n := by
  obtain ⟨before, s, after, rfl, rfl, rfl⟩ := exists_of_findIdx? hi
  rw [List.eraseIdx_append_of_length_le le_rfl, Nat.sub_self, List.eraseIdx_cons_zero]
  split_ifs with hn
  · subst hn
    rw [List.map_append, List.map_cons, List.nodup_middle, List.nodup_cons,
      ← List.map_append] at hnodup
    refine List.find?_eq_none.2 fun t ht hname => hnodup.1 ?_
    exact List.mem_map.2 ⟨t, ht, beq_iff_eq.1 hname⟩
  · simp [List.find?_append, hn]

end Lookup

/-- A failed call counts for nothing. -/
theorem registeredCols_of_ne_ok {name : CStr} {c : RegistryCall} {r : SqlRDBResult} (hr : r ≠ .ok)
    (past : List RegistryEvent) :
    registeredCols name ((c, r) :: past) = registeredCols name past := by
  match c with
  | .register none cols => rfl
  | .register (some n) cols => cases r <;> first | rfl | exact absurd rfl hr
  | .unregister none => rfl
  | .unregister (some n) => cases r <;> first | rfl | exact absurd rfl hr

/-- The handle after some events. -/
structure AfterEvents (events : List RegistryEvent) (h : SqlRDBHandle σ) : Prop where
  invariant : RegistryInvariant h.registry
  lookup : ∀ name, (h.lookup name).map (fun s => s.cols.map some) = registeredCols name events

theorem SqlRDBHandle.lookup_of_valid {h : SqlRDBHandle σ} (hv : h.valid = true) (name : CStr) :
    h.lookup name = h.registry.entries.find? fun s => s.name == name := by
  rw [lookup, hv]
  rfl

theorem SqlRDBHandle.lookup_congr {h h' : SqlRDBHandle σ} (hv : h'.valid = h.valid)
    (he : h'.registry.entries = h.registry.entries) (name : CStr) :
    h'.lookup name = h.lookup name := by
  rw [lookup, lookup, hv, he]

namespace AfterEvents

variable {events : List RegistryEvent} {h : SqlRDBHandle σ}

/-- After the initialisation, nothing has happened. -/
theorem init (h : SqlRDBHandle σ) : AfterEvents [] (internalSchemaRegistryInit h).2 where
  invariant := ⟨le_rfl, List.nodup_nil, fun s hs => absurd hs List.not_mem_nil⟩
  lookup name := by
    have hnone : (internalSchemaRegistryInit h).2.lookup name = none := by
      unfold SqlRDBHandle.lookup
      split <;> rfl
    rw [hnone]
    rfl

/-- **One call** keeps the invariant, and a lookup finds what the calls have left. -/
theorem run (ha : AfterEvents events h) (c : RegistryCall) :
    AfterEvents ((c, (c.run h).1) :: events) (c.run h).2 := by
  obtain ⟨hv, hcount, hcases⟩ : wp _ _ h := c.run_cases h
  generalize (c.run h).1 = r at hcases ⊢
  generalize (c.run h).2 = h' at hv hcount hcases ⊢
  have hcount' := hcount ha.invariant.count_le
  obtain ⟨hne, he⟩ | ⟨rfl, hval, ⟨name, cols, s, rfl, hs, he⟩ | ⟨name, i, rfl, hi, he⟩⟩ := hcases
  · refine ⟨⟨hcount', he ▸ ha.invariant.nodup, he ▸ ha.invariant.entries_ok⟩, fun n => ?_⟩
    rw [registeredCols_of_ne_ok hne, SqlRDBHandle.lookup_congr hv he, ha.lookup]
  · obtain ⟨rfl, hnew⟩ := checkSchema_ok hs
    obtain ⟨-, -, rfl⟩ := checkSchema_cols hs
    have hok : EntryOk s := ((SqlRDBSchema.accepted_iff s).1 ⟨_, _, _, hs⟩).entryOk
    refine ⟨⟨hcount', ?_, ?_⟩, fun n => ?_⟩
    · rw [he, List.map_append, List.map_singleton, List.nodup_append]
      refine ⟨ha.invariant.nodup, List.nodup_singleton _, fun a hmem b hb => ?_⟩
      obtain ⟨t, ht, rfl⟩ := List.mem_map.1 hmem
      rw [List.mem_singleton.1 hb]
      exact hnew t ht
    · rw [he]
      intro t ht
      obtain ht | ht := List.mem_append.1 ht
      · exact ha.invariant.entries_ok t ht
      · exact List.mem_singleton.1 ht ▸ hok
    · have hold := ha.lookup n
      rw [SqlRDBHandle.lookup_of_valid hval] at hold
      rw [SqlRDBHandle.lookup_of_valid (hv.trans hval), he, find?_append_entry hnew, registeredCols]
      split_ifs
      · rfl
      · exact hold
  · refine ⟨⟨hcount', ?_, ?_⟩, fun n => ?_⟩
    · rw [he]
      exact ha.invariant.nodup.sublist ((List.eraseIdx_sublist _ _).map _)
    · rw [he]
      exact fun t ht => ha.invariant.entries_ok t ((List.eraseIdx_sublist _ _).subset ht)
    · have hold := ha.lookup n
      rw [SqlRDBHandle.lookup_of_valid hval] at hold
      rw [SqlRDBHandle.lookup_of_valid (hv.trans hval), he,
        find?_eraseIdx_entry ha.invariant.nodup hi, registeredCols]
      split_ifs
      · rfl
      · exact hold

/-- **A sequence of calls.** -/
theorem runRegistryCalls (ha : AfterEvents [] h) (calls : List RegistryCall) :
    AfterEvents (C2Sql.runRegistryCalls h calls).1 (C2Sql.runRegistryCalls h calls).2 := by
  induction calls with
  | nil => exact ha
  | cons c past ih => exact ih.run c

end AfterEvents

/-! ## Failed and undone registrations -/

/-- A registration that fails changes no lookup. -/
theorem lookup_of_register_ne_ok {h : SqlRDBHandle σ} {name : Option CStr}
    {cols : Option (List (Option SqlRDBColumnDef))}
    (hr : (internalSchemaRegister name cols h).1 ≠ .ok) (n : CStr) :
    (internalSchemaRegister name cols h).2.lookup n = h.lookup n := by
  obtain ⟨hv, -, ⟨-, he⟩ | ⟨hok, -⟩⟩ : wp _ _ h := (RegistryCall.register name cols).run_cases h
  · exact SqlRDBHandle.lookup_congr hv he n
  · exact absurd hok hr

/-- A registration is undone by the removal of its name. -/
theorem unregister_register {h : SqlRDBHandle σ} {name : CStr}
    {cols : Option (List (Option SqlRDBColumnDef))}
    (hr : (internalSchemaRegister (some name) cols h).1 = .ok) :
    (internalSchemaUnregister name (internalSchemaRegister (some name) cols h).2).1 = .ok ∧
      (internalSchemaUnregister name
        (internalSchemaRegister (some name) cols h).2).2.registry.entries = h.registry.entries := by
  obtain ⟨hv, -, ⟨hne, -⟩ | ⟨-, hval, ⟨_, _, s, heq, hs, he⟩ | ⟨_, _, heq, -⟩⟩⟩ : wp _ _ h :=
    (RegistryCall.register (some name) cols).run_cases h
  · exact absurd hr hne
  · cases heq
    obtain ⟨hname, hnew⟩ := checkSchema_ok hs
    obtain ⟨hok, hcore⟩ : wp _ _ _ :=
      internalSchemaUnregister_last (hv.trans hval) he hname hnew
    exact ⟨hok, congrArg (fun v => v.registry.entries) hcore⟩
  · cases heq

/-! ## The array of entries -/

/-- The `k` rounds from the `j`-th slot on of the loop that moves the entries behind a removed one
down. -/
def shiftDown : ℕ → ℕ → List SqlRDBSchema → List SqlRDBSchema
  | 0, _, slots => slots
  | k + 1, j, slots =>
    shiftDown k (j + 1) (match slots[j]? with
      | some s => slots.set (j - 1) s
      | none => slots)

/-- The gap moves up behind the entries that the loop has moved. -/
theorem shiftDown_gap (before : List SqlRDBSchema) (s : SqlRDBSchema)
    (after rest : List SqlRDBSchema) :
    (shiftDown after.length (before.length + 1) (before ++ s :: (after ++ rest))).take
      (before.length + after.length) = before ++ after := by
  induction after generalizing before s with
  | nil => simp [shiftDown]
  | cons t after ih =>
    have hmove : (before ++ s :: (t :: after ++ rest)).set before.length t =
        (before ++ [t]) ++ t :: (after ++ rest) := by simp
    have hread : (before ++ s :: (t :: after ++ rest))[before.length + 1]? = some t := by simp
    have hgap := ih (before ++ [t]) t
    rw [List.length_append, List.length_singleton] at hgap
    rw [List.length_cons, shiftDown, hread]
    dsimp only
    rw [Nat.add_sub_cancel, hmove, show before.length + (after.length + 1) =
      before.length + 1 + after.length by omega, hgap, List.append_assoc, List.singleton_append]

/-- **The loop over the slots removes an entry from the list**: the first `count` slots hold the
entries before it, and the first `count - 1` after it. -/
theorem shiftDown_take {slots : List SqlRDBSchema} {i count : ℕ} (hi : i < count)
    (hcount : count ≤ slots.length) :
    (shiftDown (count - (i + 1)) (i + 1) slots).take (count - 1) =
      (slots.take count).eraseIdx i := by
  have hlt : i < slots.length := by omega
  have hsplit : slots = slots.take i ++
      slots[i] :: ((slots.drop (i + 1)).take (count - (i + 1)) ++ slots.drop count) := by
    have hdrop : slots.drop count = (slots.drop (i + 1)).drop (count - (i + 1)) := by
      rw [List.drop_drop]
      congr 1
      omega
    rw [hdrop, List.take_append_drop, ← List.drop_eq_getElem_cons hlt, List.take_append_drop]
  have hbefore : (slots.take i).length = i := by
    rw [List.length_take]
    omega
  have hafter : ((slots.drop (i + 1)).take (count - (i + 1))).length = count - (i + 1) := by
    rw [List.length_take, List.length_drop]
    omega
  have hgap := shiftDown_gap (slots.take i) slots[i] ((slots.drop (i + 1)).take (count - (i + 1)))
    (slots.drop count)
  rw [hbefore, hafter, ← hsplit, show i + (count - (i + 1)) = count - 1 by omega] at hgap
  rw [hgap, List.eraseIdx_eq_take_drop_succ, List.take_take, Nat.min_eq_left hi.le, List.drop_take]

/-- The entries after a removal are those that the loop leaves in the array. -/
theorem entries_of_unregister {h : SqlRDBHandle σ} {name : CStr} {slots : List SqlRDBSchema}
    (hslots : slots.take h.registry.entries.length = h.registry.entries)
    (hr : (internalSchemaUnregister name h).1 = .ok) :
    ∃ i, h.registry.entries.findIdx? (fun s => s.name == name) = some i ∧
      (internalSchemaUnregister name h).2.registry.entries =
        (shiftDown (h.registry.entries.length - (i + 1)) (i + 1) slots).take
          (h.registry.entries.length - 1) := by
  obtain ⟨-, -, ⟨hne, -⟩ | ⟨-, -, ⟨_, _, _, heq, -⟩ | ⟨_, i, heq, hi, he⟩⟩⟩ : wp _ _ h :=
    (RegistryCall.unregister (some name)).run_cases h
  · exact absurd hr hne
  · cases heq
  · cases heq
    obtain ⟨hlt, -⟩ := List.findIdx?_eq_some_iff_getElem.1 hi
    have hlen := congrArg List.length hslots
    rw [List.length_take] at hlen
    refine ⟨i, hi, he.trans ?_⟩
    rw [shiftDown_take hlt (by omega), hslots]

/-! ## Runs -/

/-- **The registry over every run.** After any sequence of calls, and whatever the allocator did,
the invariant holds and a lookup finds the columns that the calls have left; a registration that
then fails changes no lookup, and one that succeeds is undone by the removal of its name. -/
theorem registry_runs (h₀ : SqlRDBHandle σ) (calls : List RegistryCall) :
    let (events, h) := runRegistryCalls (internalSchemaRegistryInit h₀).2 calls
    AfterEvents events h ∧
      (∀ name cols, (internalSchemaRegister name cols h).1 ≠ .ok →
        ∀ n, (internalSchemaRegister name cols h).2.lookup n = h.lookup n) ∧
      ∀ name cols, (internalSchemaRegister (some name) cols h).1 = .ok →
        (internalSchemaUnregister name (internalSchemaRegister (some name) cols h).2).1 = .ok ∧
          (internalSchemaUnregister name
            (internalSchemaRegister (some name) cols h).2).2.registry.entries =
              h.registry.entries :=
  ⟨(AfterEvents.init h₀).runRegistryCalls calls, fun _ _ => lookup_of_register_ne_ok,
    fun _ _ => unregister_register⟩

/-- The first registration finds no memory for the copy of its name, and the second one succeeds. -/
theorem registry_runs_sample :
    let heap : Heap := ⟨fun k => k == 1, fun _ => true, 0, 1, ⟨[], [], none⟩, false⟩
    let register : RegistryCall := .register (some (lit "persons")) (some (personsCols.map some))
    let (events, h) := runRegistryCalls (internalSchemaRegistryInit (freshHandle () heap)).2
      [register, .unregister none, register]
    events.map Prod.snd = [.ok, .errInvalidArg, .errNoMemory] ∧ AfterEvents events h ∧
      (internalSchemaRegister (some (lit "persons")) none h).1 = .errInvalidArg ∧
      ∀ n, (internalSchemaRegister (some (lit "persons")) none h).2.lookup n = h.lookup n := by
  intro heap register
  obtain ⟨hafter, hfail, -⟩ := registry_runs (freshHandle () heap)
    [register, .unregister none, register]
  exact ⟨by decide +kernel, hafter, by decide +kernel, hfail _ _ (by decide +kernel)⟩

end C2Sql
