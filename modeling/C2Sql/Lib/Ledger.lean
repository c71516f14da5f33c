import C2Sql.Lib.StateLogic
import Mathlib.Data.Multiset.AddSub
import Mathlib.Data.Finset.Basic

/-!
# Ledgers of resources

A ledger records which of the resources that a program has acquired are still open, which of them
have been worked with since they were last put to rest, and whether a resource was ever worked with
or closed when it was not open.

* `Ledger.acquire`, `Ledger.touch`, `Ledger.rest`, `Ledger.close`: the events;
* `Holding`: a multiset of resources that are open, and those of them that may be at work;
* `Ledger.Owns`: nothing but the resources of the holding is open, and none was ever misused;
* `Accounts`: a computation turns one holding into another and keeps the rest of its state. It is
  closed under the constructions of programs.
-/

namespace StateLogic

/-! ## Ledgers -/

/-- The open resources, those at work, the next name to give out, and whether a resource that is
not open was ever named. -/
structure Ledger where
  live : Multiset ℕ
  busy : Finset ℕ
  next : ℕ
  misused : Bool

namespace Ledger

/-- A resource with a new name is opened. -/
def acquire (l : Ledger) : Ledger :=
  { l with live := l.next ::ₘ l.live, next := l.next + 1 }

/-- A resource is worked with. -/
def touch (l : Ledger) (i : ℕ) : Ledger :=
  { l with busy := insert i l.busy, misused := l.misused || decide (i ∉ l.live) }

/-- A resource is put to rest. -/
def rest (l : Ledger) (i : ℕ) : Ledger :=
  { l with busy := l.busy.erase i, misused := l.misused || decide (i ∉ l.live) }

/-- A resource is closed. -/
def close (l : Ledger) (i : ℕ) : Ledger :=
  { l with live := l.live.erase i, busy := l.busy.erase i,
           misused := l.misused || decide (i ∉ l.live) }

/-- Nothing has happened. -/
def empty : Ledger := ⟨0, ∅, 0, false⟩

end Ledger

/-! ## Holdings -/

/-- Resources that are open, and the ones that may be at work. -/
structure Holding where
  live : Multiset ℕ
  busy : Set ℕ

namespace Holding

/-- One more resource, at rest. -/
def add (A : Holding) (i : ℕ) : Holding := ⟨i ::ₘ A.live, A.busy⟩

/-- The same resources, with one at work. -/
def use (A : Holding) (i : ℕ) : Holding := ⟨A.live, insert i A.busy⟩

/-- One more resource, at work. -/
def take (A : Holding) (i : ℕ) : Holding := (A.add i).use i

/-- The resources of a list, all of which may be at work. -/
def ofList (is : List ℕ) : Holding := ⟨↑is, {i | i ∈ is}⟩

/-- A resource that is open and may be worked with. -/
structure Has (A : Holding) (i : ℕ) : Prop where
  live : i ∈ A.live
  busy : i ∈ A.busy

theorem has_take (A : Holding) (i : ℕ) : (A.take i).Has i :=
  ⟨Multiset.mem_cons_self i A.live, Set.mem_insert i A.busy⟩

theorem has_use {A : Holding} {i : ℕ} (h : i ∈ A.live) : (A.use i).Has i :=
  ⟨h, Set.mem_insert i A.busy⟩

end Holding

namespace Ledger

variable {l : Ledger} {A : Holding} {i : ℕ}

/-- The open resources are those of the holding, each once, and none was ever misused. -/
structure Owns (l : Ledger) (A : Holding) : Prop where
  live_eq : l.live = A.live
  busy_mem : ∀ i ∈ l.busy, i ∈ A.busy
  nodup : l.live.Nodup
  fresh : ∀ i ∈ l.live, i < l.next
  not_misused : l.misused = false

theorem owns_empty : empty.Owns ⟨0, ∅⟩ where
  live_eq := rfl
  busy_mem _ hi := absurd hi (Finset.notMem_empty _)
  nodup := Multiset.nodup_zero
  fresh _ hi := absurd hi (Multiset.notMem_zero _)
  not_misused := rfl

theorem Owns.mono {B : Holding} (h : l.Owns A) (hlive : A.live = B.live)
    (hbusy : A.busy ⊆ B.busy) : l.Owns B :=
  { h with live_eq := h.live_eq.trans hlive, busy_mem := fun i hi => hbusy (h.busy_mem i hi) }

theorem Owns.use (h : l.Owns A) (i : ℕ) : l.Owns (A.use i) := h.mono rfl (Set.subset_insert _ _)

theorem Owns.acquire (h : l.Owns A) : l.acquire.Owns (A.add l.next) where
  live_eq := congrArg (l.next ::ₘ ·) h.live_eq
  busy_mem := h.busy_mem
  nodup := Multiset.nodup_cons.2 ⟨fun hn => (h.fresh _ hn).ne rfl, h.nodup⟩
  fresh i hi := by
    obtain rfl | hi := Multiset.mem_cons.1 hi
    · exact Nat.lt_succ_self _
    · exact (h.fresh i hi).trans (Nat.lt_succ_self _)
  not_misused := h.not_misused

theorem Owns.touch (h : l.Owns A) (hi : A.Has i) : (l.touch i).Owns A where
  live_eq := h.live_eq
  busy_mem j hj := by
    obtain rfl | hj := Finset.mem_insert.1 hj
    · exact hi.busy
    · exact h.busy_mem j hj
  nodup := h.nodup
  fresh := h.fresh
  not_misused := by simp [Ledger.touch, h.not_misused, h.live_eq, hi.live]

theorem Owns.rest (h : l.Owns (A.use i)) (hi : i ∈ A.live) : (l.rest i).Owns A where
  live_eq := h.live_eq
  busy_mem j hj := by
    obtain ⟨hne, hj⟩ := Finset.mem_erase.1 hj
    exact Set.mem_of_mem_insert_of_ne (h.busy_mem j hj) hne
  nodup := h.nodup
  fresh := h.fresh
  not_misused := by
    have hlive : i ∈ l.live := h.live_eq ▸ hi
    simp [Ledger.rest, h.not_misused, hlive]

theorem Owns.close (h : l.Owns (A.take i)) : (l.close i).Owns A where
  live_eq := by
    change l.live.erase i = A.live
    rw [h.live_eq]
    exact Multiset.erase_cons_head i A.live
  busy_mem j hj := by
    obtain ⟨hne, hj⟩ := Finset.mem_erase.1 hj
    exact Set.mem_of_mem_insert_of_ne (h.busy_mem j hj) hne
  nodup := h.nodup.erase i
  fresh j hj := h.fresh j (Multiset.mem_of_mem_erase hj)
  not_misused := by
    have hlive : i ∈ l.live := h.live_eq ▸ Multiset.mem_cons_self i A.live
    simp [Ledger.close, h.not_misused, hlive]

end Ledger

/-! ## Computations that account for their resources -/

variable {S α β γ : Type}

/-- The computation turns the holding `A` into the holding `B a`, where `a` is its result, and
leaves the value of `f` as it is. -/
def Accounts (view : S → Ledger) (f : S → γ) (A : Holding) (c : StateM S α) (B : α → Holding) :
    Prop :=
  ∀ s, (view s).Owns A → wp c (fun a s' => (view s').Owns (B a) ∧ f s' = f s) s

namespace Accounts

variable {view : S → Ledger} {f : S → γ} {A : Holding}

theorem pure (a : α) : Accounts view f A (Pure.pure a) fun _ => A := fun _ hs => ⟨hs, rfl⟩

/-- The result decides which holding is left. -/
theorem result {B : α → Holding} (a : α) : Accounts view f (B a) (Pure.pure a) B :=
  fun _ hs => ⟨hs, rfl⟩

theorem bind {c : StateM S α} {k : α → StateM S β} {B : α → Holding} {C : β → Holding}
    (hc : Accounts view f A c B) (hk : ∀ a, Accounts view f (B a) (k a) C) :
    Accounts view f A (c >>= k) C := fun s hs => by
  obtain ⟨howns, hf⟩ := hc s hs
  obtain ⟨howns', hf'⟩ := hk _ _ howns
  exact ⟨howns', hf'.trans hf⟩

theorem ite {p : Prop} [Decidable p] {c₁ c₂ : StateM S α} {B : α → Holding}
    (h₁ : p → Accounts view f A c₁ B) (h₂ : ¬p → Accounts view f A c₂ B) :
    Accounts view f A (if p then c₁ else c₂) B := by
  split
  case isTrue h => exact h₁ h
  case isFalse h => exact h₂ h

/-- A computation that leaves the ledger alone. -/
theorem of_keeps {c : StateM S α} (hview : Keeps view c) (hf : Keeps f c) :
    Accounts view f A c fun _ => A := fun s hs => by
  refine ⟨?_, hf s⟩
  rw [hview s]
  exact hs

theorem mono {A' : Holding} {c : StateM S α} {B : α → Holding} (h : Accounts view f A' c B)
    (hlive : A.live = A'.live) (hbusy : A.busy ⊆ A'.busy) : Accounts view f A c B :=
  fun s hs => h s (hs.mono hlive hbusy)

/-- A resource that is open already is taken to work. -/
theorem of_use {c : StateM S α} {B : α → Holding} {i : ℕ}
    (h : Accounts view f (A.use i) c B) : Accounts view f A c B := fun s hs => h s (hs.use i)

end Accounts

/-! ## Computations that may not return -/

/-- The computation turns `A` into `B a` where it returns `a`; nothing is said about a computation
that ends in `none`. -/
def AccountsSome (view : S → Ledger) (f : S → γ) (A : Holding) (c : StateM S (Option α))
    (B : α → Holding) : Prop :=
  ∀ s, (view s).Owns A →
    wp c (fun res s' => ∀ a, res = some a → (view s').Owns (B a) ∧ f s' = f s) s

namespace AccountsSome

variable {view : S → Ledger} {f : S → γ} {A : Holding}

theorem none {B : α → Holding} : AccountsSome view f A (pure .none) B := by
  rintro s - a ⟨⟩

theorem some (a : α) : AccountsSome view f A (pure (.some a)) fun _ => A :=
  fun _ hs _ _ => ⟨hs, rfl⟩

/-- A first step that always returns. -/
theorem bind {c : StateM S α} {k : α → StateM S (Option β)} {B : α → Holding} {C : β → Holding}
    (hc : Accounts view f A c B) (hk : ∀ a, AccountsSome view f (B a) (k a) C) :
    AccountsSome view f A (c >>= k) C := fun s hs b hb => by
  obtain ⟨howns, hf⟩ := hc s hs
  obtain ⟨howns', hf'⟩ := hk _ _ howns b hb
  exact ⟨howns', hf'.trans hf⟩

/-- A first step that may not return, and then nothing else does. -/
theorem seq {c : StateM S (Option α)} {k : Option α → StateM S (Option β)} {B : α → Holding}
    {C : β → Holding} (hc : AccountsSome view f A c B) (hnone : k .none = pure .none)
    (hk : ∀ a, AccountsSome view f (B a) (k (.some a)) C) :
    AccountsSome view f A (c >>= k) C := fun s hs b hb => by
  rcases hrun : c s with ⟨res, s'⟩
  have hbind : (c >>= k) s = k res s' := bind_of_run hrun
  cases res with
  | none =>
    rw [hbind, hnone] at hb
    cases hb
  | some a =>
    rw [hbind] at hb ⊢
    obtain ⟨howns, hf⟩ := (hc s hs).of_eq hrun a rfl
    obtain ⟨howns', hf'⟩ := hk a s' howns b hb
    exact ⟨howns', hf'.trans hf⟩

theorem of_use {c : StateM S (Option α)} {B : α → Holding} {i : ℕ}
    (h : AccountsSome view f (A.use i) c B) : AccountsSome view f A c B :=
  fun s hs => h s (hs.use i)

theorem ite {p : Prop} [Decidable p] {c₁ c₂ : StateM S (Option α)} {B : α → Holding}
    (h₁ : p → AccountsSome view f A c₁ B) (h₂ : ¬p → AccountsSome view f A c₂ B) :
    AccountsSome view f A (if p then c₁ else c₂) B := by
  split
  case isTrue h => exact h₁ h
  case isFalse h => exact h₂ h

end AccountsSome

end StateLogic
