import C2Sql.Transactions

/-!
# Concurrent closes

`SqlRDBClose` looks its handle up in the live registry, reads its magic number, removes it from the
registry, overwrites the magic number and tears the handle down. Each of the five is one step here,
and a schedule says whose turn it is.

* `LiveRegistry`: `g_live_handles` with `live_register`, `live_contains` and `live_remove`;
* `closeStep`, `closeAll`: the steps of any number of callers on one handle;
* `closeAll_single`: a caller that is alone does what `sqlRDBClose` does;
* `Guarded`: every other caller makes its tests late enough;
* `closed_once_iff`: exactly one caller tears the handle down iff the schedule is guarded.
-/

namespace C2Sql

variable {σ ι : Type}

/-! ## The live registry -/

/-- `g_live_handles`, the addresses of the open handles, with `g_live_capacity`. -/
structure LiveRegistry where
  handles : List ℕ
  capacity : ℕ

namespace LiveRegistry

/-- `live_register`; `reallocOk` is whether `realloc` finds memory. -/
def register (g : LiveRegistry) (h : ℕ) (reallocOk : Bool) : Bool × LiveRegistry :=
  if g.handles.length = g.capacity then
    if reallocOk then
      (true, ⟨g.handles ++ [h], if g.capacity ≠ 0 then g.capacity * 2 else 8⟩)
    else (false, g)
  else (true, { g with handles := g.handles ++ [h] })

/-- `live_contains`. -/
def contains (g : LiveRegistry) (h : ℕ) : Bool := h != 0 && g.handles.contains h

/-- `live_remove`: the last address takes the place of the one removed. -/
def remove (g : LiveRegistry) (h : ℕ) : Bool × LiveRegistry :=
  match g.handles.idxOf? h with
  | some i => (true, { g with handles := (g.handles.set i (g.handles.getLastD h)).dropLast })
  | none => (false, g)

theorem count_register {g : LiveRegistry} {h : ℕ} {ok : Bool} (hok : (g.register h ok).1 = true)
    (x : ℕ) : (g.register h ok).2.handles.count x = g.handles.count x + [h].count x := by
  rw [register] at hok ⊢
  split at hok
  · split at hok
    · simp_all
    · cases hok
  · simp_all

theorem getLast_set_of_getLast? {l : List ℕ} {i a : ℕ} (ha : l.getLast? = some a)
    (hne : l.set i a ≠ []) : (l.set i a).getLast hne = a := by
  have hl : l ≠ [] := by simpa using hne
  rw [List.getLast?_eq_some_getLast hl, Option.some.injEq, List.getLast_eq_getElem] at ha
  rw [List.getLast_eq_getElem, List.getElem_set]
  simpa using fun _ => ha

theorem count_remove (g : LiveRegistry) (h x : ℕ) :
    (g.remove h).2.handles.count x = g.handles.count x - if h = x then 1 else 0 := by
  rw [remove]
  split
  case h_1 i hi =>
    obtain ⟨hlt, hget, -⟩ := List.idxOf?_eq_some_iff.1 hi
    have hl : g.handles ≠ [] := List.ne_nil_of_length_pos (by omega)
    have hlast : g.handles.getLast? = some (g.handles.getLastD h) := by
      rw [List.getLastD_eq_getLast?, List.getLast?_eq_some_getLast hl]
      rfl
    have hne : g.handles.set i (g.handles.getLastD h) ≠ [] := by simpa using hl
    have hset := List.count_set (a := g.handles.getLastD h) (b := x) hlt
    -- the address that is written over the removed one is the one that is cut off
    rw [← List.dropLast_concat_getLast hne, List.count_append, getLast_set_of_getLast? hlast,
      List.count_singleton, hget] at hset
    simpa using hset
  case h_2 hi =>
    have hmem : h ∉ g.handles := List.idxOf?_eq_none_iff.1 hi
    split
    next heq => simp [← heq, List.count_eq_zero.2 hmem]
    next => rfl

end LiveRegistry

/-! ## The steps of a close -/

theorem sqlRDBClose_of_valid (d : SqlRDBDriver σ) {h : SqlRDBHandle σ} (hv : h.valid = true) :
    sqlRDBClose d h = (.ok, (teardown d { h with magic := handleDead }).2) := by
  simp only [sqlRDBClose, bind, StateT.bind, get, getThe, MonadStateOf.get, StateT.get, pure, hv]
  rfl

/-- What a caller of `SqlRDBClose` does next. -/
inductive ClosePc where
  | contains
  | magic
  | remove
  | markDead
  | teardown
  | returned (r : SqlRDBResult)
  deriving DecidableEq

/-- A handle that the callers `ι` are closing, with the number of times it has been torn down. -/
structure Closing (σ ι : Type) where
  live : LiveRegistry
  handle : SqlRDBHandle σ
  pc : ι → ClosePc
  teardowns : ℕ

variable [DecidableEq ι]

/-- The next step of a caller, for the handle at `addr`. What lies at the place of a freed magic
number is `junk`. -/
def closeStep (d : SqlRDBDriver σ) (addr junk : ℕ) (s : Closing σ ι) (i : ι) : Closing σ ι :=
  let goto (s : Closing σ ι) (pc : ClosePc) : Closing σ ι :=
    { s with pc := Function.update s.pc i pc }
  match s.pc i with
  | .contains =>
    if s.live.contains addr then goto s .magic else goto s (.returned .errInvalidHandle)
  | .magic =>
    if s.handle.magic ≠ handleMagic then goto s (.returned .errInvalidHandle) else goto s .remove
  | .remove => goto { s with live := (s.live.remove addr).2 } .markDead
  | .markDead => goto { s with handle := { s.handle with magic := handleDead } } .teardown
  | .teardown =>
    goto { s with handle := { (teardown d s.handle).2 with magic := junk },
                  teardowns := s.teardowns + 1 } (.returned .ok)
  | .returned _ => s

/-- The callers take the turns of a schedule. -/
def closeAll (d : SqlRDBDriver σ) (addr junk : ℕ) (sched : List ι) (s : Closing σ ι) :
    Closing σ ι :=
  sched.foldl (closeStep d addr junk) s

theorem closeAll_concat (d : SqlRDBDriver σ) (addr junk : ℕ) (sched : List ι) (i : ι)
    (s : Closing σ ι) : closeAll d addr junk (sched ++ [i]) s =
      closeStep d addr junk (closeAll d addr junk sched s) i := by
  simp [closeAll]

namespace Closing

/-- The handle at `addr` is open, and no caller has begun. -/
structure Opened (addr : ℕ) (s : Closing σ ι) : Prop where
  addr_ne : addr ≠ 0
  live : s.live.handles.count addr = 1
  magic : s.handle.magic = handleMagic
  pc : ∀ i, s.pc i = .contains
  teardowns : s.teardowns = 0

/-- Every caller has returned. -/
def Finished (s : Closing σ ι) : Prop := ∀ i, ∃ r, s.pc i = .returned r

/-- One caller has torn the handle down and succeeded, and every other one has been refused. -/
def ClosedOnce (s : Closing σ ι) : Prop :=
  ∃ w, s.pc w = .returned .ok ∧ (∀ j, j ≠ w → s.pc j = .returned .errInvalidHandle) ∧
    s.teardowns = 1

end Closing

omit [DecidableEq ι] in
/-- What the last steps of `SqlRDBInit` leave: the magic number is set and `live_register` has
added the address, which was not in use. -/
theorem opened_register {g : LiveRegistry} {addr : ℕ} {ok : Bool} (hne : addr ≠ 0)
    (hfree : addr ∉ g.handles) (hok : (g.register addr ok).1 = true) (ctx : σ) (heap : Heap) :
    (⟨(g.register addr ok).2, freshHandle ctx heap, fun _ => .contains, 0⟩ :
      Closing σ ι).Opened addr where
  addr_ne := hne
  live := by simp [LiveRegistry.count_register hok, List.count_eq_zero.2 hfree]
  magic := rfl
  pc := fun _ => rfl
  teardowns := rfl

/-! ## Schedules -/

/-- The next step, after `n` turns, of a caller that nobody disturbs. -/
def pcAfter : ℕ → ClosePc
  | 0 => .contains
  | 1 => .magic
  | 2 => .remove
  | 3 => .markDead
  | 4 => .teardown
  | _ + 5 => .returned .ok

/-- The magic number after `n` turns of the caller that tears the handle down. -/
def magicAfter (junk n : ℕ) : ℕ :=
  if n < 4 then handleMagic else if n = 4 then handleDead else junk

/-- The first turn of `j` comes before the third of `w`, in which `w` removes the handle. -/
def FirstEarly (w : ι) (sched : List ι) (j : ι) : Prop :=
  ∃ pre post, sched = pre ++ j :: post ∧ j ∉ pre ∧ pre.count w < 3

/-- Every caller but `w` looks into the registry when `w` has removed the handle, or reads the magic
number when `w` has overwritten it; and if `w` has freed it by then, what lies there is not the
magic number. -/
def Guarded (junk : ℕ) (w : ι) (sched : List ι) : Prop :=
  ∀ j, j ≠ w → ∀ pre mid post, sched = pre ++ j :: (mid ++ j :: post) → j ∉ pre → j ∉ mid →
    3 ≤ pre.count w ∨ (pre ++ mid).count w = 4 ∨ 4 < (pre ++ mid).count w ∧ junk ≠ handleMagic

theorem magicAfter_ne {junk n : ℕ} :
    magicAfter junk n ≠ handleMagic ↔ n = 4 ∨ 4 < n ∧ junk ≠ handleMagic := by
  rw [magicAfter]
  split
  · exact ⟨fun h => absurd rfl h, fun h => by omega⟩
  · split
    next h4 => exact ⟨fun _ => .inl h4, fun _ => by decide⟩
    next h4 => exact ⟨fun h => .inr ⟨by omega, h⟩, fun h => (h.resolve_left h4).2⟩

theorem firstEarly_concat {w i j : ι} {sched : List ι} :
    FirstEarly w (sched ++ [i]) j ↔
      FirstEarly w sched j ∨ i = j ∧ j ∉ sched ∧ sched.count w < 3 := by
  constructor
  · rintro ⟨pre, post, heq, hpre, hw⟩
    obtain rfl | ⟨post, k, rfl⟩ := List.eq_nil_or_concat post
    · obtain ⟨rfl, hij⟩ := List.append_inj' heq rfl
      exact .inr ⟨List.head_eq_of_cons_eq hij, hpre, hw⟩
    · refine .inl ⟨pre, post, ?_, hpre, hw⟩
      rw [List.concat_eq_append, ← List.cons_append, ← List.append_assoc] at heq
      exact (List.append_inj' heq rfl).1
  · rintro (⟨pre, post, rfl, hpre, hw⟩ | ⟨rfl, hmem, hw⟩)
    · exact ⟨pre, post ++ [i], by simp, hpre, hw⟩
    · exact ⟨sched, [], rfl, hmem, hw⟩

theorem FirstEarly.mem {w j : ι} {sched : List ι} (h : FirstEarly w sched j) : j ∈ sched := by
  obtain ⟨pre, post, rfl, -⟩ := h
  simp

theorem guarded_concat {junk : ℕ} {w i : ι} {sched : List ι} :
    Guarded junk w (sched ++ [i]) ↔ Guarded junk w sched ∧
      (i ≠ w → FirstEarly w sched i → sched.count i = 1 →
        magicAfter junk (sched.count w) ≠ handleMagic) := by
  constructor
  · intro hg
    refine ⟨fun j hj pre mid post heq => hg j hj pre mid (post ++ [i]) (by simp [heq]), ?_⟩
    rintro hi ⟨pre, mid, rfl, hpre, hw⟩ hcount
    have hmid : i ∉ mid := by
      rw [List.count_append, List.count_cons_self, List.count_eq_zero.2 hpre] at hcount
      exact List.count_eq_zero.1 (by omega)
    have hgi := (hg i hi pre mid [] (by simp) hpre hmid).resolve_left (by omega)
    rw [magicAfter_ne]
    simpa [List.count_cons_of_ne hi] using hgi
  · rintro ⟨hg, hi⟩ j hj pre mid post heq hpre hmid
    obtain rfl | ⟨post, k, rfl⟩ := List.eq_nil_or_concat post
    · rw [← List.cons_append, ← List.append_assoc] at heq
      obtain ⟨rfl, hij⟩ := List.append_inj' heq rfl
      obtain rfl := List.head_eq_of_cons_eq hij
      by_cases hw : 3 ≤ pre.count w
      · exact .inl hw
      · have hlast := hi hj ⟨pre, mid, rfl, hpre, by omega⟩
          (by simp [List.count_eq_zero.2 hpre, List.count_eq_zero.2 hmid])
        rw [magicAfter_ne] at hlast
        exact .inr (by simpa [List.count_cons_of_ne hj] using hlast)
    · refine hg j hj pre mid post ?_ hpre hmid
      rw [List.concat_eq_append, ← List.cons_append, ← List.append_assoc, ← List.cons_append,
        ← List.append_assoc] at heq
      simpa using (List.append_inj' heq rfl).1

/-! ## One caller passes -/

namespace Closing

/-- The caller `w` has taken `n` turns, and nobody else has touched the handle. -/
structure Owned (addr junk : ℕ) (w : ι) (n : ℕ) (s : Closing σ ι) : Prop where
  live : s.live.handles.count addr = if n < 3 then 1 else 0
  magic : s.handle.magic = magicAfter junk n
  teardowns : s.teardowns = if n < 5 then 0 else 1
  pc : s.pc w = pcAfter n

/-- Where a caller `j` can be that has not passed both tests in the turns `sched`. -/
structure Refused (w : ι) (sched : List ι) (j : ι) (pc : ClosePc) : Prop where
  new : j ∉ sched → pc = .contains
  early : FirstEarly w sched j → sched.count j = 1 → pc = .magic
  refused : j ∈ sched → ¬(FirstEarly w sched j ∧ sched.count j = 1) →
    pc = .returned .errInvalidHandle

variable {addr junk n : ℕ} {w i : ι} {sched : List ι} {s : Closing σ ι}

omit [DecidableEq ι] in
theorem Owned.contains (haddr : addr ≠ 0) (hs : s.Owned addr junk w n) :
    s.live.contains addr = decide (n < 3) := by
  have hlive := hs.live
  rw [LiveRegistry.contains, Bool.eq_iff_iff]
  split at hlive
  · simp_all [List.count_pos_iff.1 (Nat.lt_of_lt_of_eq Nat.zero_lt_one hlive.symm)]
  · simp_all [List.count_eq_zero]

theorem Owned.step (d : SqlRDBDriver σ) (haddr : addr ≠ 0) (hs : s.Owned addr junk w n) :
    (closeStep d addr junk s w).Owned addr junk w (n + 1) := by
  have hcontains := hs.contains haddr
  obtain ⟨hlive, hmagic, htd, hpc⟩ := hs
  match n with
  | 0 | 1 => constructor <;> simp_all [closeStep, pcAfter, magicAfter]
  | 2 => constructor <;> simp_all [closeStep, pcAfter, magicAfter, LiveRegistry.count_remove]
  | 3 | 4 => constructor <;> simp_all [closeStep, pcAfter, magicAfter]
  | n + 5 =>
    have hstay : closeStep d addr junk s w = s := by simp [closeStep, hpc, pcAfter]
    rw [hstay]
    have hlt : ∀ m k, k ≤ 5 → ¬m + 5 < k := by omega
    refine ⟨?_, ?_, ?_, hpc⟩
    · rw [hlive, if_neg (hlt n 3 (by decide)), if_neg (hlt (n + 1) 3 (by decide))]
    · rw [hmagic, magicAfter, magicAfter, if_neg (hlt n 4 (by decide)), if_neg (by omega),
        if_neg (hlt (n + 1) 4 (by decide)), if_neg (by omega)]
    · rw [htd, if_neg (hlt n 5 (by decide)), if_neg (hlt (n + 1) 5 (by decide))]

/-- A step moves no other caller. -/
theorem closeStep_pc_of_ne (d : SqlRDBDriver σ) {j : ι} (hj : j ≠ i) :
    (closeStep d addr junk s i).pc j = s.pc j := by
  simp only [closeStep]
  split <;> (try split) <;> simp [Function.update_of_ne hj]

/-- The first two steps, and the turns of a caller that has returned, only move the caller. -/
theorem Owned.step_other (d : SqlRDBDriver σ) (hs : s.Owned addr junk w n) (hi : i ≠ w)
    (hpc : s.pc i = .contains ∨ s.pc i = .magic ∨ s.pc i = .returned .errInvalidHandle) :
    (closeStep d addr junk s i).Owned addr junk w n := by
  refine ⟨hs.live ▸ ?_, hs.magic ▸ ?_, hs.teardowns ▸ ?_,
    (closeStep_pc_of_ne d (Ne.symm hi)).trans hs.pc⟩
  all_goals
    rcases hpc with hpc | hpc | hpc <;> simp only [closeStep, hpc]
    · split <;> rfl
    · split <;> rfl

theorem Refused.pc_cases {pc : ClosePc} (hr : Refused w sched i pc) :
    pc = .contains ∨ pc = .magic ∨ pc = .returned .errInvalidHandle := by
  by_cases hmem : i ∈ sched
  · by_cases he : FirstEarly w sched i ∧ sched.count i = 1
    · exact .inr (.inl (hr.early he.1 he.2))
    · exact .inr (.inr (hr.refused hmem he))
  · exact .inl (hr.new hmem)

/-- The turn of another caller. -/
theorem Refused.concat_of_ne {j : ι} {pc : ClosePc} (hr : Refused w sched j pc) (hi : i ≠ j) :
    Refused w (sched ++ [i]) j pc := by
  have hcount : (sched ++ [i]).count j = sched.count j := by simp [hi]
  have hmem : j ∈ sched ++ [i] ↔ j ∈ sched := by simp [Ne.symm hi]
  have hearly : FirstEarly w (sched ++ [i]) j ↔ FirstEarly w sched j := by
    rw [firstEarly_concat]
    exact or_iff_left fun h => hi h.1
  constructor
  · rw [hmem]
    exact hr.new
  · rw [hearly, hcount]
    exact hr.early
  · rw [hmem, hearly, hcount]
    exact hr.refused

/-- A turn of the caller's own, in which its test of the magic number fails if it comes to it. -/
theorem Refused.step (d : SqlRDBDriver σ) (haddr : addr ≠ 0)
    (ho : s.Owned addr junk w (sched.count w)) (hr : Refused w sched i (s.pc i))
    (hmagic : FirstEarly w sched i → sched.count i = 1 →
      magicAfter junk (sched.count w) ≠ handleMagic) :
    Refused w (sched ++ [i]) i ((closeStep d addr junk s i).pc i) := by
  have hcount : (sched ++ [i]).count i = sched.count i + 1 := by simp
  by_cases hmem : i ∈ sched
  · -- a later turn: the caller has returned when it is over
    have hpos : 0 < sched.count i := List.count_pos_iff.2 hmem
    have hpc : (closeStep d addr junk s i).pc i = .returned .errInvalidHandle := by
      by_cases he : FirstEarly w sched i ∧ sched.count i = 1
      · simp [closeStep, hr.early he.1 he.2, ho.magic, hmagic he.1 he.2]
      · simp [closeStep, hr.refused hmem he]
    exact ⟨fun h => absurd (by simp) h, fun _ h => absurd h (by omega), fun _ _ => hpc⟩
  · -- the first turn looks into the registry
    have hzero : sched.count i = 0 := List.count_eq_zero.2 hmem
    have hearly : FirstEarly w (sched ++ [i]) i ↔ sched.count w < 3 := by
      rw [firstEarly_concat]
      exact ⟨fun h => h.elim (fun h => absurd h.mem hmem) fun h => h.2.2,
        fun h => .inr ⟨rfl, hmem, h⟩⟩
    refine ⟨fun h => absurd (by simp) h, fun he _ => ?_, fun _ hn => ?_⟩
    · simp [closeStep, hr.new hmem, ho.contains haddr, hearly.1 he]
    · have hlate : ¬sched.count w < 3 := fun h => hn ⟨hearly.2 h, by omega⟩
      simp [closeStep, hr.new hmem, ho.contains haddr, hlate]

/-- After the turns `sched`, no caller but `w` has passed both tests. -/
structure Alone (addr junk : ℕ) (w : ι) (sched : List ι) (s : Closing σ ι) : Prop where
  owned : s.Owned addr junk w (sched.count w)
  refused : ∀ j, j ≠ w → Refused w sched j (s.pc j)

theorem Opened.alone (hs : s.Opened addr) (w : ι) : s.Alone addr junk w [] where
  owned := ⟨by simpa using hs.live, hs.magic, by simpa using hs.teardowns, hs.pc w⟩
  refused := fun j _ => ⟨fun _ => hs.pc j, fun he => absurd he.mem (by simp),
    fun hmem => absurd hmem (by simp)⟩

theorem Alone.step (d : SqlRDBDriver σ) (haddr : addr ≠ 0) (hs : s.Alone addr junk w sched)
    (hmagic : i ≠ w → FirstEarly w sched i → sched.count i = 1 →
      magicAfter junk (sched.count w) ≠ handleMagic) :
    (closeStep d addr junk s i).Alone addr junk w (sched ++ [i]) := by
  by_cases hi : i = w
  · subst hi
    constructor
    · simpa using hs.owned.step d haddr
    · intro j hj
      rw [closeStep_pc_of_ne d hj]
      exact (hs.refused j hj).concat_of_ne (Ne.symm hj)
  · constructor
    · simpa [hi] using hs.owned.step_other d hi (hs.refused i hi).pc_cases
    · intro j hj
      by_cases hij : j = i
      · subst hij
        exact (hs.refused j hj).step d haddr hs.owned (hmagic hj)
      · rw [closeStep_pc_of_ne d hij]
        exact (hs.refused j hj).concat_of_ne (Ne.symm hij)

/-! ## Whole schedules -/

theorem Alone.of_guarded (d : SqlRDBDriver σ) (hs : s.Opened addr) (hg : Guarded junk w sched) :
    (closeAll d addr junk sched s).Alone addr junk w sched := by
  induction sched using List.reverseRecOn with
  | nil => exact hs.alone w
  | append_singleton sched i ih =>
    rw [guarded_concat] at hg
    rw [closeAll_concat]
    exact (ih hg.1).step d hs.addr_ne hg.2

end Closing

/-- The caller has passed both tests. -/
def ClosePc.passed : ClosePc → Bool
  | .remove | .markDead | .teardown | .returned .ok => true
  | _ => false

namespace Closing

variable {addr junk : ℕ} {w i : ι} {sched : List ι} {s : Closing σ ι}

theorem passed_closeStep (d : SqlRDBDriver σ) {j : ι} (hj : (s.pc j).passed = true) :
    ((closeStep d addr junk s i).pc j).passed = true := by
  by_cases hij : j = i
  · subst hij
    simp only [closeStep]
    split <;> simp_all [ClosePc.passed]
  · rwa [closeStep_pc_of_ne d hij]

/-- If no caller but `w` has passed both tests at the end, the schedule has seen to it. -/
theorem guarded_of_not_passed (d : SqlRDBDriver σ) (hs : s.Opened addr)
    (hn : ∀ j, j ≠ w → ((closeAll d addr junk sched s).pc j).passed = false) :
    Guarded junk w sched := by
  induction sched using List.reverseRecOn with
  | nil =>
    intro j _ pre mid post heq
    simp at heq
  | append_singleton sched i ih =>
    simp only [closeAll_concat] at hn
    have hbefore : ∀ j, j ≠ w → ((closeAll d addr junk sched s).pc j).passed = false :=
      fun j hj => Bool.eq_false_iff.2 fun hp =>
        Bool.eq_false_iff.1 (hn j hj) (passed_closeStep d hp)
    have hg := ih hbefore
    have halone := Alone.of_guarded d hs hg
    refine guarded_concat.2 ⟨hg, fun hi he hc hm => ?_⟩
    -- the caller would read the magic number and pass
    have hpc := (halone.refused i hi).early he hc
    have hnow := hn i hi
    simp [closeStep, hpc, halone.owned.magic, hm, ClosePc.passed] at hnow

theorem Alone.closedOnce (hs : s.Alone addr junk w sched) (hfin : s.Finished) : s.ClosedOnce := by
  refine ⟨w, ?_⟩
  have hn : 5 ≤ sched.count w := by
    obtain ⟨r, hr⟩ := hfin w
    rw [hs.owned.pc] at hr
    by_contra hlt
    interval_cases sched.count w <;> simp [pcAfter] at hr
  obtain ⟨m, hm⟩ := Nat.exists_eq_add_of_le' hn
  refine ⟨?_, fun j hj => ?_, ?_⟩
  · rw [hs.owned.pc, hm]
    rfl
  · obtain ⟨r, hr⟩ := hfin j
    rcases (hs.refused j hj).pc_cases with hpc | hpc | hpc
    · simp [hpc] at hr
    · simp [hpc] at hr
    · exact hpc
  · rw [hs.owned.teardowns, if_neg (by omega)]

end Closing

/-- A caller that takes its five turns in a row does what `sqlRDBClose` does, and frees the
handle. -/
theorem closeAll_single (d : SqlRDBDriver σ) {addr : ℕ} (junk : ℕ) {s : Closing σ ι}
    (hs : s.Opened addr) (i : ι) :
    let s' := closeAll d addr junk [i, i, i, i, i] s
    s'.pc i = .returned (sqlRDBClose d s.handle).1 ∧
      s'.handle = { (sqlRDBClose d s.handle).2 with magic := junk } := by
  have hv : s.handle.valid = true := by simp [SqlRDBHandle.valid, hs.magic]
  have halone : s.Alone addr junk i [] := hs.alone i
  have hlive : s.live.contains addr = true := by simpa using halone.owned.contains hs.addr_ne
  simp [closeAll, closeStep, hs.pc i, hlive, hs.magic, sqlRDBClose_of_valid d hv]

/-- **A handle is torn down once iff the schedule is guarded.** Any number of callers close an open
handle, and all of them return. -/
theorem closed_once_iff (d : SqlRDBDriver σ) (addr junk : ℕ) (s : Closing σ ι)
    (hs : s.Opened addr) (sched : List ι) (hfin : (closeAll d addr junk sched s).Finished) :
    (closeAll d addr junk sched s).ClosedOnce ↔ ∃ w, Guarded junk w sched := by
  constructor
  · rintro ⟨w, -, hother, -⟩
    refine ⟨w, Closing.guarded_of_not_passed d hs fun j hj => ?_⟩
    rw [hother j hj]
    rfl
  · rintro ⟨w, hg⟩
    exact (Closing.Alone.of_guarded d hs hg).closedOnce hfin

/-- Two callers of an open handle at address 16. -/
def twoCallers : Closing (Session (List (CStr × List SqlValue))) Bool where
  live := ⟨[16], 8⟩
  handle := journalHandle
  pc := fun _ => .contains
  teardowns := 0

/-- One caller looks into the registry first, but reads the magic number when the other one has
overwritten it. -/
theorem closed_once_sample :
    let s' := closeAll (driver .sqlite journal) 16 0
      [true, false, false, false, false, true, false] twoCallers
    s'.pc false = .returned .ok ∧ s'.pc true = .returned .errInvalidHandle ∧
      s'.ClosedOnce ∧ ∃ w, Guarded 0 w [true, false, false, false, false, true, false] := by
  have hfalse : (closeAll (driver .sqlite journal) 16 0
      [true, false, false, false, false, true, false] twoCallers).pc false = .returned .ok := by
    decide +kernel
  have htrue : (closeAll (driver .sqlite journal) 16 0
      [true, false, false, false, false, true, false] twoCallers).pc true =
      .returned .errInvalidHandle := by
    decide +kernel
  have honce : (closeAll (driver .sqlite journal) 16 0
      [true, false, false, false, false, true, false] twoCallers).ClosedOnce :=
    ⟨false, hfalse, by simpa using htrue, by decide +kernel⟩
  refine ⟨hfalse, htrue, honce, ?_⟩
  refine (closed_once_iff _ 16 0 twoCallers ⟨by decide, rfl, rfl, fun _ => rfl, rfl⟩ _ ?_).1 honce
  exact Bool.forall_bool.2 ⟨⟨_, hfalse⟩, ⟨_, htrue⟩⟩

/-- Both callers make both tests before either removes the handle: both tear it down. -/
theorem close_tears_down_twice :
    let s' := closeAll (driver .sqlite journal) 16 0
      [false, true, false, true, false, false, false, true, true, true] twoCallers
    twoCallers.Opened 16 ∧ s'.Finished ∧ s'.pc false = .returned .ok ∧
      s'.pc true = .returned .ok ∧ s'.teardowns = 2 ∧ ¬s'.ClosedOnce := by
  have hfalse : (closeAll (driver .sqlite journal) 16 0
      [false, true, false, true, false, false, false, true, true, true] twoCallers).pc false =
      .returned .ok := by
    decide +kernel
  have htrue : (closeAll (driver .sqlite journal) 16 0
      [false, true, false, true, false, false, false, true, true, true] twoCallers).pc true =
      .returned .ok := by
    decide +kernel
  have htwice : (closeAll (driver .sqlite journal) 16 0
      [false, true, false, true, false, false, false, true, true, true] twoCallers).teardowns =
      2 := by
    decide +kernel
  refine ⟨⟨by decide, rfl, rfl, fun _ => rfl, rfl⟩,
    Bool.forall_bool.2 ⟨⟨_, hfalse⟩, ⟨_, htrue⟩⟩, hfalse, htrue, htwice, ?_⟩
  rintro ⟨w, -, -, hone⟩
  rw [htwice] at hone
  cases hone

end C2Sql
