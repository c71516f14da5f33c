import C2Sql.Registration

/-!
# The schemas of open iterators

An iterator keeps a pointer into the array of schemas. The pointer stays good as long as the array
stays where it is: registrations append to the array, failed ones take back what they appended, and
no other call touches it. A registration that finds the array full may have `realloc` move it, and
then every open iterator points into freed memory.

* `OwnSchemas`: every open iterator points to the schema that its `SqlRDBReadMany` looked up;
* `lookedUp`: those schemas, along a run;
* `ownSchemas_iff`: what a call does to open iterators, and what a run does.
-/

namespace C2Sql

open StateLogic

variable {σ : Type}

/-! ## Pointers -/

/-- The pointer refers to the entry `s` of the current array of schemas. -/
def SqlRDBHandle.PointsTo (h : SqlRDBHandle σ) (p : SchemaPtr) (s : SqlRDBSchema) : Prop :=
  p.block = h.registry.block ∧ h.registry.entries[p.idx]? = some s

/-- A lookup finds a pointer to the schema that it finds. -/
theorem SqlRDBHandle.pointsTo_of_lookupPtr {h : SqlRDBHandle σ} {name : CStr} {p : SchemaPtr}
    (hp : h.lookupPtr name = some p) : ∃ s, h.lookup name = some s ∧ h.PointsTo p s := by
  rw [lookupPtr] at hp
  split_ifs at hp with hv
  obtain ⟨i, hi, rfl⟩ := Option.map_eq_some_iff.1 hp
  have hfind := List.findIdx?_eq_some_iff_getElem.1 hi
  obtain ⟨hlt, hname, hfirst⟩ := hfind
  refine ⟨h.registry.entries[i], ?_, rfl, List.getElem?_eq_getElem hlt⟩
  rw [lookup, if_neg hv, List.find?_eq_some_iff_getElem]
  exact ⟨hname, i, hlt, rfl, fun j hj => by simpa using hfirst j hj⟩

/-! ## Open iterators -/

/-- Every open iterator points to its schema: the list `schemas` has them in the same order. -/
def OwnSchemas (w : Client σ) (schemas : List SqlRDBSchema) : Prop :=
  List.Forall₂ (fun it s => w.handle.PointsTo it.schema s) w.iterators schemas

/-- The schemas of the open iterators after a call that leads from `w` to `w'`: a new iterator has
the schema that its call looked up. -/
def Call.lookedUp (w w' : Client σ) (schemas : List SqlRDBSchema) : Call → List SqlRDBSchema
  | readMany (some name) _ _ =>
    if w'.iterators.length = w.iterators.length then schemas
    else schemas ++ (w.handle.lookup name).toList
  | stmtFree i => schemas.eraseIdx i
  | _ => schemas

/-- The schemas of the open iterators after a run. -/
def lookedUp (d : SqlRDBDriver σ) : List Call → Client σ → List SqlRDBSchema → List SqlRDBSchema
  | [], _, schemas => schemas
  | c :: cs, w, schemas =>
    lookedUp d cs (c.exec d w).2 (c.lookedUp w (c.exec d w).2 schemas)

/-- A registration that moves the array of schemas while an iterator is open. -/
def Call.MovesSchemas (w : Client σ) : Call → Prop
  | registerStruct _ name cols =>
    w.iterators ≠ [] ∧ w.handle.movesSchemas name cols = true
  | _ => False

instance (w : Client σ) : ∀ c : Call, Decidable (c.MovesSchemas w)
  | .registerStruct _ name cols => inferInstanceAs (Decidable
      (w.iterators ≠ [] ∧ w.handle.movesSchemas name cols = true))
  | .write .. | .writeMany .. | .read .. | .readMany .. | .stmtNext .. | .stmtFree _ | .delete ..
  | .count .. | .beginTx | .commitTx | .rollbackTx | .writeBlobField .. | .readBlobField ..
  | .setConfig _ | .setLogger _ => isFalse id

/-- A new iterator points to what its call looked up. -/
theorem readMany_schema (d : SqlRDBDriver σ) (structName : Option CStr)
    (cond : Option SqlRDBCondition) (hasOut : Bool) (h : SqlRDBHandle σ) :
    wp (sqlRDBReadMany d structName cond hasOut) (fun res _ => ∀ it, res.2 = some it →
      ∃ name, structName = some name ∧ h.lookupPtr name = some it.schema) h := by
  simp only [sqlRDBReadMany, wp_bind, wp_get, wp_ite]
  split
  · rintro _ ⟨⟩
  split
  case h_2 => rintro _ ⟨⟩
  case h_1 name =>
    simp only [wp_bind, wp_mutexLock, wp_get]
    have hlook : SqlRDBHandle.lookupPtr { h with mutex := h.mutex.lock } name = h.lookupPtr name :=
      rfl
    rw [hlook]
    cases hp : h.lookupPtr name with
    | none =>
      simp only [wp_bind, wp_errSet, wp_mutexUnlock, wp_pure]
      rintro _ ⟨⟩
    | some p =>
      refine (?_ : Yields (fun res : SqlRDBResult × Option SqlRDBStmt => ∀ it, res.2 = some it →
        ∃ name', some name = some name' ∧ h.lookupPtr name' = some it.schema) _) _
      refine .bind fun res => ?_
      rcases res with r | ⟨sql, n⟩
      · exact .bind fun _ => .pure (by rintro _ ⟨⟩)
      refine .bind fun res => .ite (.bind fun _ => .pure (by rintro _ ⟨⟩)) (.bind fun r => ?_)
      refine .ite (.bind fun _ => .bind fun _ => .pure (by rintro _ ⟨⟩)) (.bind fun ok => ?_)
      refine .ite (.bind fun _ => .bind fun _ => .pure (by rintro _ ⟨⟩)) (.bind fun _ => .pure ?_)
      rintro _ ⟨⟩
      exact ⟨name, rfl, hp⟩

/-! ## One call -/

theorem forall₂_eraseIdx {α β : Type} {R : α → β → Prop} {l₁ : List α} {l₂ : List β}
    (h : List.Forall₂ R l₁ l₂) (i : ℕ) : List.Forall₂ R (l₁.eraseIdx i) (l₂.eraseIdx i) := by
  induction h generalizing i with
  | nil => exact .nil
  | cons hab hrest ih =>
    cases i with
    | zero => exact hrest
    | succ i => exact .cons hab (ih i)

section Steps

variable {w w' : Client σ} {schemas : List SqlRDBSchema}

/-- An array in the same place with the same schemas, and perhaps more behind them. -/
theorem OwnSchemas.mono (hw : OwnSchemas w schemas) (hit : w'.iterators = w.iterators)
    (hblock : w'.handle.registry.block = w.handle.registry.block)
    (hpre : w.handle.registry.entries <+: w'.handle.registry.entries) : OwnSchemas w' schemas := by
  rw [OwnSchemas, hit]
  refine List.Forall₂.imp (fun it s hp => ⟨hp.1.trans hblock.symm, ?_⟩) hw
  obtain ⟨rest, hrest⟩ := hpre
  obtain ⟨hlt, -⟩ := List.getElem?_eq_some_iff.1 hp.2
  rw [← hrest, List.getElem?_append_left hlt]
  exact hp.2

/-- Every open iterator points into the current array. -/
theorem OwnSchemas.block_eq (hw : OwnSchemas w schemas) :
    ∀ it ∈ w.iterators, it.schema.block = w.handle.registry.block := by
  rw [OwnSchemas] at hw
  generalize w.iterators = its at hw
  induction hw with
  | nil => simp
  | cons hp _ ih => exact List.forall_mem_cons.2 ⟨hp.1, ih⟩

/-- An array in another place. -/
theorem OwnSchemas.iterators_eq_nil (hw : OwnSchemas w schemas) (hw' : OwnSchemas w' schemas)
    (hit : w'.iterators = w.iterators)
    (hblock : w'.handle.registry.block ≠ w.handle.registry.block) : w.iterators = [] := by
  by_contra hne
  obtain ⟨it, hmem⟩ := List.exists_mem_of_ne_nil _ hne
  exact hblock ((hw'.block_eq it (hit ▸ hmem)).symm.trans (hw.block_eq it hmem))

/-- Only registrations touch the array of schemas. -/
theorem registry_exec (d : SqlRDBDriver σ) {c : Call} (w : Client σ)
    (hc : ∀ fuel name cols, c ≠ .registerStruct fuel name cols)
    (hret : (c.exec d w).1.code.isSome) :
    (c.exec d w).2.handle.registry = w.handle.registry ∧
      (c.exec d w).2.handle.heap.nextBlock = w.handle.heap.nextBlock := by
  have hcore : ∀ h' : SqlRDBHandle σ, h'.core = w.handle.core ∨
      h'.core = w.handle.core.locked.unlocked → h'.registry = w.handle.registry ∧
        h'.heap.nextBlock = w.handle.heap.nextBlock := by
    rintro h' (h | h) <;>
      exact ⟨congrArg (fun v => v.registry) h, congrArg (fun v => v.heap.nextBlock) h⟩
  by_cases hch : c.changesCore = true
  · cases c with
    | registerStruct fuel name cols => exact absurd rfl (hc fuel name cols)
    | setConfig cfg =>
      by_cases hrefused : w.handle.valid = false ∨ cfg = none
      · exact hcore _ (.inl (congrArg SqlRDBHandle.core (setConfig_refused d hrefused)))
      · rw [not_or, Bool.not_eq_false] at hrefused
        obtain ⟨cfg, rfl⟩ := Option.ne_none_iff_exists'.1 hrefused.2
        obtain ⟨code, hcode⟩ := Option.isSome_iff_exists.1 hret
        obtain ⟨-, -, h⟩ | ⟨-, -, h⟩ := setConfig_core d hrefused.1 cfg code hcode
        · exact hcore _ (.inr h)
        · exact ⟨congrArg (fun v => v.registry) h, congrArg (fun v => v.heap.nextBlock) h⟩
    | _ => cases hch
  · exact hcore _ (bracketed_exec d (by simpa using hch) w)

theorem ownSchemas_readMany (d : SqlRDBDriver σ) (hw : OwnSchemas w schemas)
    (name : Option CStr) (cond : Option SqlRDBCondition) (hasOut : Bool) :
    let c : Call := .readMany name cond hasOut
    OwnSchemas (c.exec d w).2 (c.lookedUp w (c.exec d w).2 schemas) := by
  intro c
  have hreg := (registry_exec d (c := c) w nofun rfl).1
  have hold : OwnSchemas ⟨(c.exec d w).2.handle, w.iterators⟩ schemas :=
    hw.mono rfl (congrArg (·.block) hreg) (hreg ▸ List.prefix_rfl)
  have hschema := readMany_schema d name cond hasOut w.handle
  have hits : (c.exec d w).2.iterators =
      w.iterators ++ (sqlRDBReadMany d name cond hasOut w.handle).1.2.toList := rfl
  rw [wp] at hschema
  generalize (sqlRDBReadMany d name cond hasOut w.handle).1.2 = stmt at hschema hits
  cases stmt with
  | none =>
    rw [Option.toList_none, List.append_nil] at hits
    have hlook : c.lookedUp w (c.exec d w).2 schemas = schemas := by
      cases name with
      | none => rfl
      | some n => exact if_pos (congrArg List.length hits)
    rw [hlook]
    exact hw.mono hits (congrArg (·.block) hreg) (hreg ▸ List.prefix_rfl)
  | some it =>
    obtain ⟨n, rfl, hp⟩ := hschema it rfl
    obtain ⟨s, hs, hpoints⟩ := SqlRDBHandle.pointsTo_of_lookupPtr hp
    have hlook : c.lookedUp w (c.exec d w).2 schemas = schemas ++ [s] := by
      rw [Call.lookedUp, if_neg (by rw [hits]; simp), hs]
      rfl
    rw [hlook, OwnSchemas, hits]
    refine List.rel_append hold (.cons ?_ .nil)
    rwa [SqlRDBHandle.PointsTo, hreg]

theorem ownSchemas_stmtFree (d : SqlRDBDriver σ) (hw : OwnSchemas w schemas) (i : ℕ) :
    let c : Call := .stmtFree i
    OwnSchemas (c.exec d w).2 (c.lookedUp w (c.exec d w).2 schemas) := by
  intro c
  have hreg := (registry_exec d (c := c) w nofun rfl).1
  have hits : (c.exec d w).2.iterators = w.iterators.eraseIdx i := rfl
  have hold : OwnSchemas ⟨(c.exec d w).2.handle, w.iterators⟩ schemas :=
    hw.mono rfl (congrArg (·.block) hreg) (hreg ▸ List.prefix_rfl)
  rw [OwnSchemas, hits]
  exact forall₂_eraseIdx hold i

/-- The block of the array has been allocated. -/
def SqlRDBHandle.BlockAllocated (h : SqlRDBHandle σ) : Prop := h.registry.block < h.heap.nextBlock

/-- One call: the open iterators keep their schemas, or the call has moved the array from under an
open iterator. -/
theorem exec_ownSchemas (d : SqlRDBDriver σ) (hw : OwnSchemas w schemas)
    (hb : w.handle.BlockAllocated) (c : Call) (hret : (c.exec d w).1.code.isSome) :
    (c.exec d w).2.handle.BlockAllocated ∧
      (OwnSchemas (c.exec d w).2 (c.lookedUp w (c.exec d w).2 schemas) ↔ ¬c.MovesSchemas w) := by
  by_cases hc : ∃ fuel name cols, c = .registerStruct fuel name cols
  · obtain ⟨fuel, name, cols, rfl⟩ := hc
    obtain ⟨code, hcode⟩ := Option.isSome_iff_exists.1 hret
    have hreg := registerStruct_registered d fuel name cols w.handle code hcode
    set w' := (Call.exec d (.registerStruct fuel name cols) w).2 with hw'
    have hits : w'.iterators = w.iterators := rfl
    have hpre : w.handle.registry.entries <+: w'.handle.registry.entries := by
      by_cases hok : code = .ok
      · obtain ⟨s, -, hs⟩ := hreg.ok hok
        exact hs ▸ List.prefix_append _ _
      · exact (hreg.failed hok) ▸ List.prefix_rfl
    have hblock : w'.handle.registry.block = _ := hreg.block
    have hnext : w'.handle.heap.nextBlock = _ := hreg.nextBlock
    rw [SqlRDBHandle.BlockAllocated] at hb ⊢
    rw [hblock, hnext]
    change _ ∧ (OwnSchemas w' schemas ↔ ¬(w.iterators ≠ [] ∧ _))
    cases hm : w.handle.movesSchemas name cols with
    | false =>
      rw [hm] at hblock
      exact ⟨hb, fun _ h => absurd h.2 (by simp), fun _ => hw.mono hits hblock hpre⟩
    | true =>
      rw [hm] at hblock
      have hne : w'.handle.registry.block ≠ w.handle.registry.block := by
        rw [hblock]
        exact hb.ne'
      refine ⟨Nat.lt_succ_self _, fun hw' h => h.1 (hw.iterators_eq_nil hw' hits hne), fun h => ?_⟩
      have hnil : w.iterators = [] := by simpa using h
      rw [OwnSchemas, hnil] at hw
      rw [OwnSchemas, hits, hnil]
      cases hw
      exact .nil
  · simp only [not_exists] at hc
    obtain ⟨hreg, hnext⟩ := registry_exec d w hc hret
    have hmoves : ¬c.MovesSchemas w := by
      cases c with
      | registerStruct fuel name cols => exact absurd rfl (hc fuel name cols)
      | _ => exact id
    refine ⟨by rw [SqlRDBHandle.BlockAllocated, hreg, hnext]; exact hb, fun _ => hmoves,
      fun _ => ?_⟩
    have hkeep : OwnSchemas ⟨(c.exec d w).2.handle, w.iterators⟩ schemas :=
      hw.mono rfl (congrArg (·.block) hreg) (hreg ▸ List.prefix_rfl)
    cases c with
    | registerStruct fuel name cols => exact absurd rfl (hc fuel name cols)
    | readMany name cond hasOut => exact ownSchemas_readMany d hw name cond hasOut
    | stmtFree i => exact ownSchemas_stmtFree d hw i
    | _ => exact hkeep

/-- **Open iterators keep their schemas, unless the array moves.** A call leaves every open
iterator with a pointer to its own schema exactly when it does not move the array of schemas while
an iterator is open; so do all the calls of a run. -/
theorem ownSchemas_iff (d : SqlRDBDriver σ) (hw : OwnSchemas w schemas)
    (hb : w.handle.BlockAllocated) :
    (∀ c : Call, (c.exec d w).1.code.isSome →
      (OwnSchemas (c.exec d w).2 (c.lookedUp w (c.exec d w).2 schemas) ↔ ¬c.MovesSchemas w)) ∧
    ∀ cs, Along d (fun w c => ¬c.MovesSchemas w) w cs → Returns d cs w →
      OwnSchemas (run d cs w).2 (lookedUp d cs w schemas) := by
  refine ⟨fun c hret => (exec_ownSchemas d hw hb c hret).2, fun cs hcs hret => ?_⟩
  induction cs generalizing w schemas with
  | nil => exact hw
  | cons c cs ih =>
    obtain ⟨hc, hret, hrun⟩ := returns_cons hret
    obtain ⟨hb', hown⟩ := exec_ownSchemas d hw hb c hc
    rw [hrun]
    exact ih (hown.2 hcs.1) hb' hcs.2 hret

end Steps

/-! ## A ninth registration -/

/-- A PostgreSQL driver on a database in which every table has one column, a nullable integer key
`a`; its context counts the rows that the last statement has delivered. -/
def oneColumnDriver : SqlRDBDriver ℕ where
  dialect := .postgres
  close := pure .ok
  exec := fun _ => pure .ok
  prepare := fun _ _ => ((.ok, 0), 0)
  bind := fun _ _ _ => pure .ok
  step := fun _ n => ((.ok, n == 0), n + 1)
  columnInt64 := fun _ _ => pure (.ok, 0)
  columnInt32 := fun _ _ => pure (.ok, 0)
  columnReal := fun _ _ => pure (.ok, 0)
  columnText := fun _ i => pure (.ok, some (lit (if i = 0 then "a" else if i = 1 then "integer"
    else "YES")))
  columnBlob := fun _ _ => pure (.ok, none)
  columnIsnull := fun _ _ => pure (.ok, false)
  reset := fun _ => pure .ok
  finalize := fun _ => pure .ok
  begin := pure .ok
  commit := pure .ok
  rollback := pure .ok
  savepoint := fun _ => pure .ok
  releaseSp := fun _ => pure .ok
  rollbackSp := fun _ => pure .ok
  changes := pure 0

/-- The registration of a struct with that column. -/
def registerOne (i : ℕ) : Call :=
  .registerStruct 3 (some (lit "t" ++ decimal i))
    (some [some ⟨lit "a", .int32, 0, 4, flagPrimaryKey ||| flagNullable⟩])

/-- A new handle, on a heap where every growth of the array moves it or none does. -/
def oneColumnClient (moves : Bool) : Client ℕ :=
  ⟨freshHandle 0 ⟨fun _ => false, fun _ => moves, 0, 1, ⟨[], [], none⟩, false⟩, []⟩

/-- Eight registrations, an iterator on the first struct, and a ninth registration. -/
def nineStructs : List Call :=
  (List.range 8).map registerOne ++ [.readMany (some (lit "t0")) none true, registerOne 8]

theorem ownSchemas_oneColumnClient (moves : Bool) :
    OwnSchemas (oneColumnClient moves) [] ∧ (oneColumnClient moves).handle.BlockAllocated :=
  ⟨.nil, Nat.zero_lt_one⟩

theorem ownSchemas_sample :
    OwnSchemas (run oneColumnDriver nineStructs (oneColumnClient false)).2
      (lookedUp oneColumnDriver nineStructs (oneColumnClient false) []) := by
  obtain ⟨hw, hb⟩ := ownSchemas_oneColumnClient false
  exact (ownSchemas_iff oneColumnDriver hw hb).2 nineStructs (by decide +kernel)
    (by decide +kernel)

/-- The ninth registration grows the array, and the iterator points into the old one. -/
theorem readMany_schema_dangles :
    let res := run oneColumnDriver nineStructs (oneColumnClient true)
    res.1.map Reply.code = List.replicate 10 (some .ok) ∧
      res.2.iterators.map (·.schema) = [⟨1, 0⟩] ∧ res.2.handle.registry.block = 2 ∧
      ¬OwnSchemas res.2 (lookedUp oneColumnDriver nineStructs (oneColumnClient true) []) := by
  intro res
  have hits : res.2.iterators.map (·.schema) = [⟨1, 0⟩] := by decide +kernel
  have hblock : res.2.handle.registry.block = 2 := by decide +kernel
  refine ⟨by decide +kernel, hits, hblock, fun how => ?_⟩
  obtain ⟨it, hit, hschema⟩ := List.map_eq_singleton_iff.1 hits
  have hp := how.block_eq it (hit ▸ List.mem_singleton_self it)
  rw [hschema, hblock] at hp
  cases hp

end C2Sql
