import Mathlib.Control.Monad.Basic

/-!
# Reasoning about state monads

Weakest preconditions for computations in `StateM`, for one run and for two runs side by side, and
the frame rule for the parts of a state that a computation does not change.

* `wp_bind`, `rwp_bind`: the rules of composition;
* `wp_mono`, `rwp_mono`, `rwp_seq`: a specification of a part is used in the proof of the whole;
* `rwp_of_wp`: two runs are specified apart from each other;
* `Keeps f c`: the computation `c` leaves the value of `f` as it is. It is closed under the
  constructions of programs;
* `Yields Q c`: every value that `c` returns has the property `Q`.
-/

namespace StateLogic

variable {S T α β γ δ : Type}

theorem pure_run (a : α) (s : S) : (pure a : StateM S α) s = (a, s) := rfl

theorem bind_of_run {c : StateM S α} {k : α → StateM S β} {s s' : S} {a : α}
    (hc : c s = (a, s')) : (c >>= k) s = k a s' := by
  change k (c s).1 (c s).2 = k a s'
  rw [hc]

/-! ## Weakest preconditions -/

/-- The run of `c` from `s` ends with a result and a state that satisfy `Q`. -/
def wp (c : StateM S α) (Q : α → S → Prop) (s : S) : Prop := Q (c s).1 (c s).2

section Rules

variable {Q : β → S → Prop} {s : S}

@[simp]
theorem wp_pure (a : β) : wp (pure a : StateM S β) Q s ↔ Q a s := Iff.rfl

@[simp]
theorem wp_bind (c : StateM S α) (k : α → StateM S β) :
    wp (c >>= k) Q s ↔ wp c (fun a s => wp (k a) Q s) s := Iff.rfl

@[simp]
theorem wp_get {Q : S → S → Prop} : wp (get : StateM S S) Q s ↔ Q s s := Iff.rfl

@[simp]
theorem wp_set {Q : PUnit → S → Prop} (s' : S) : wp (set s' : StateM S PUnit) Q s ↔ Q ⟨⟩ s' :=
  Iff.rfl

@[simp]
theorem wp_modify {Q : PUnit → S → Prop} (f : S → S) :
    wp (modify f : StateM S PUnit) Q s ↔ Q ⟨⟩ (f s) := Iff.rfl

@[simp]
theorem wp_ite (p : Prop) [Decidable p] (c₁ c₂ : StateM S β) :
    wp (if p then c₁ else c₂) Q s ↔ if p then wp c₁ Q s else wp c₂ Q s := by
  split <;> rfl

theorem wp_mono {Q Q' : β → S → Prop} {c : StateM S β} (h : wp c Q s)
    (hQ : ∀ b s', Q b s' → Q' b s') : wp c Q' s := hQ _ _ h

theorem wp.of_run {c : StateM S β} {b : β} {s' : S} (hc : c s = (b, s')) (h : Q b s') :
    wp c Q s := by
  rw [wp, hc]
  exact h

/-- Two continuations that agree on the outcomes of a command. -/
theorem bind_eq_of_wp {c : StateM S β} {k k' : β → StateM S α}
    (h : wp c (fun b s' => k b s' = k' b s') s) : (c >>= k) s = (c >>= k') s := h

theorem wp.of_eq {c : StateM S β} (h : wp c Q s) {b : β} {s' : S} (hc : c s = (b, s')) :
    Q b s' := by
  rw [wp, hc] at h
  exact h

end Rules

/-! ## Two runs -/

/-- The runs of `c` from `s` and of `d` from `t` end with results and states that satisfy `Φ`. -/
def rwp (c : StateM S α) (d : StateM T γ) (Φ : α → S → γ → T → Prop) (s : S) (t : T) : Prop :=
  Φ (c s).1 (c s).2 (d t).1 (d t).2

section TwoRuns

variable {Φ : β → S → δ → T → Prop} {s : S} {t : T}

@[simp]
theorem rwp_pure (a : β) (b : δ) :
    rwp (pure a : StateM S β) (pure b : StateM T δ) Φ s t ↔ Φ a s b t := Iff.rfl

@[simp]
theorem rwp_bind (c : StateM S α) (k : α → StateM S β) (d : StateM T γ) (m : γ → StateM T δ) :
    rwp (c >>= k) (d >>= m) Φ s t ↔
      rwp c d (fun a s b t => rwp (k a) (m b) Φ s t) s t := Iff.rfl

@[simp]
theorem rwp_get {Φ : S → S → T → T → Prop} :
    rwp (get : StateM S S) (get : StateM T T) Φ s t ↔ Φ s s t t := Iff.rfl

theorem rwp_mono {Φ Φ' : β → S → δ → T → Prop} {c : StateM S β} {d : StateM T δ}
    (h : rwp c d Φ s t) (hΦ : ∀ a s' b t', Φ a s' b t' → Φ' a s' b t') : rwp c d Φ' s t :=
  hΦ _ _ _ _ h

/-- A first step whose runs are related. -/
theorem rwp_seq {Ψ : α → S → γ → T → Prop} {c : StateM S α} {k : α → StateM S β}
    {d : StateM T γ} {m : γ → StateM T δ} (h : rwp c d Ψ s t)
    (hk : ∀ a s' b t', Ψ a s' b t' → rwp (k a) (m b) Φ s' t') :
    rwp (c >>= k) (d >>= m) Φ s t := hk _ _ _ _ h

theorem rwp_of_wp {c : StateM S β} {d : StateM T δ} {P : β → S → Prop} {Q : δ → T → Prop}
    (hc : wp c P s) (hd : wp d Q t) (h : ∀ a s' b t', P a s' → Q b t' → Φ a s' b t') :
    rwp c d Φ s t := h _ _ _ _ hc hd

/-- Two runs that branch on the same condition. -/
theorem rwp_ite {p : Prop} [Decidable p] {c₁ c₂ : StateM S β} {d₁ d₂ : StateM T δ}
    (h₁ : p → rwp c₁ d₁ Φ s t) (h₂ : ¬p → rwp c₂ d₂ Φ s t) :
    rwp (if p then c₁ else c₂) (if p then d₁ else d₂) Φ s t := by
  split
  case isTrue h => exact h₁ h
  case isFalse h => exact h₂ h

end TwoRuns

/-! ## What a computation keeps -/

/-- The computation `c` leaves the value of `f` as it is. -/
def Keeps (f : S → γ) (c : StateM S α) : Prop := ∀ s, f (c s).2 = f s

namespace Keeps

variable {f : S → γ}

theorem pure (a : α) : Keeps f (Pure.pure a : StateM S α) := fun _ => rfl

theorem bind {c : StateM S α} {k : α → StateM S β} (hc : Keeps f c) (hk : ∀ a, Keeps f (k a)) :
    Keeps f (c >>= k) := fun s => (hk (c s).1 (c s).2).trans (hc s)

theorem of_wp {c : StateM S α} (h : ∀ s, StateLogic.wp c (fun _ s' => f s' = f s) s) :
    Keeps f c := h

theorem ite {p : Prop} [Decidable p] {c₁ c₂ : StateM S α} (h₁ : Keeps f c₁) (h₂ : Keeps f c₂) :
    Keeps f (if p then c₁ else c₂) := by
  split
  · exact h₁
  · exact h₂

/-- What is kept may be used in a proof of the rest. -/
theorem wp {c : StateM S α} (h : Keeps f c) (s : S) :
    StateLogic.wp c (fun _ s' => f s' = f s) s := h s

end Keeps

/-! ## What a computation returns -/

/-- Every value that the computation `c` returns has the property `Q`. -/
def Yields (Q : α → Prop) (c : StateM S α) : Prop := ∀ s, Q (c s).1

namespace Yields

variable {Q : β → Prop}

theorem pure {b : β} (h : Q b) : Yields Q (Pure.pure b : StateM S β) := fun _ => h

theorem bind {c : StateM S α} {k : α → StateM S β} (hk : ∀ a, Yields Q (k a)) :
    Yields Q (c >>= k) := fun s => hk (c s).1 (c s).2

/-- What the first step returns may be used in a proof of the rest. -/
theorem seq {P : α → Prop} {c : StateM S α} {k : α → StateM S β} (hc : Yields P c)
    (hk : ∀ a, P a → Yields Q (k a)) : Yields Q (c >>= k) := fun s => hk _ (hc s) _

theorem ite {p : Prop} [Decidable p] {c₁ c₂ : StateM S β} (h₁ : Yields Q c₁) (h₂ : Yields Q c₂) :
    Yields Q (if p then c₁ else c₂) := by
  split
  · exact h₁
  · exact h₂

end Yields

end StateLogic
