import Mathlib.Data.List.Nodup
import Mathlib.Logic.Function.Basic

/-!
# Linked lists

Lists in a memory where every address has one link: `Seg next s l t` says that the links `next`
lead from `s` through the addresses `l` to `t`. A store through a pointer is an update of `next`.

* `Seg.append_iff`: segments compose;
* `Seg.update`: a store at an address outside a segment keeps it;
* `bypass`, `Seg.bypass`: the removal of an address from a list;
* `Linked`: a list with links in both directions, and `Linked.unlink`, `Linked.pushFront`.
-/

namespace Links

variable {A : Type*}

/-! ## Segments -/

/-- The links lead from `s` through the addresses of the list to `t`. -/
def Seg (next : A → Option A) : Option A → List A → Option A → Prop
  | s, [], t => s = t
  | s, a :: l, t => s = some a ∧ Seg next (next a) l t

namespace Seg

variable {next next' : A → Option A} {s t : Option A} {l r : List A} {a : A}

theorem append_iff : Seg next s (l ++ r) t ↔ ∃ m, Seg next s l m ∧ Seg next m r t := by
  induction l generalizing s with
  | nil => exact ⟨fun h => ⟨s, rfl, h⟩, fun ⟨_, hm, h⟩ => hm ▸ h⟩
  | cons a l ih => simp only [List.cons_append, Seg, ih, exists_and_left, and_assoc]

theorem congr (h : Seg next s l t) (hl : ∀ a ∈ l, next' a = next a) : Seg next' s l t := by
  induction l generalizing s with
  | nil => exact h
  | cons a l ih =>
    obtain ⟨hs, h⟩ := h
    rw [Seg, hl a (by simp)]
    exact ⟨hs, ih h fun b hb => hl b (by simp [hb])⟩

variable [DecidableEq A]

theorem update (h : Seg next s l t) {p : A} (hp : p ∉ l) (m : Option A) :
    Seg (Function.update next p m) s l t :=
  h.congr fun _ ha => Function.update_of_ne (ne_of_mem_of_not_mem ha hp) ..

/-- A new first address. -/
theorem cons (h : Seg next s l t) (ha : a ∉ l) :
    Seg (Function.update next a s) (some a) (a :: l) t := by
  rw [Seg, Function.update_self]
  exact ⟨rfl, h.update ha s⟩

end Seg

/-- The links from `s` spell one list only. -/
theorem Seg.unique {next : A → Option A} {s : Option A} {l r : List A} (hl : Seg next s l none)
    (hr : Seg next s r none) : l = r := by
  induction l generalizing s r with
  | nil =>
    cases r with
    | nil => rfl
    | cons b r =>
      rw [Seg] at hl
      exact absurd (hl.symm.trans hr.1) (by simp)
  | cons a l ih =>
    cases r with
    | nil =>
      rw [Seg] at hr
      exact absurd (hr.symm.trans hl.1) (by simp)
    | cons b r =>
      obtain rfl : a = b := Option.some.inj (hl.1.symm.trans hr.1)
      rw [ih hl.2 hr.2]

theorem Seg.head_eq {next : A → Option A} {head : Option A} {l : List A}
    (h : Seg next head l none) : head = l.head? := by
  cases l with
  | nil => exact h
  | cons a l => exact h.1

/-- The address after another one in a list. -/
theorem Seg.next_eq {next : A → Option A} {head : Option A} {l r : List A} {e : A}
    (h : Seg next head (l ++ e :: r) none) : next e = r.head? := by
  obtain ⟨m, -, -, hr⟩ := Seg.append_iff.1 h
  exact hr.head_eq

/-! ## Removal -/

section Removal

variable [DecidableEq A]

/-- The first link and the links after the address behind `p` has been taken out, where `t` is what
followed it; without a `p` it was the first. -/
def bypass (p t : Option A) (head : Option A) (next : A → Option A) :
    Option A × (A → Option A) :=
  match p with
  | some p => (head, Function.update next p t)
  | none => (t, next)

/-- An address is taken out of a list by the link before it. -/
theorem Seg.bypass {next : A → Option A} {head : Option A} {l r : List A} {e : A}
    (h : Seg next head (l ++ e :: r) none) (hn : (l ++ e :: r).Nodup) :
    Seg (Links.bypass l.getLast? (next e) head next).2
      (Links.bypass l.getLast? (next e) head next).1 (l ++ r) none := by
  obtain ⟨m, hl, rfl, hr⟩ := Seg.append_iff.1 h
  rcases List.eq_nil_or_concat l with rfl | ⟨l, p, rfl⟩
  · exact hr
  · rw [List.concat_eq_append, List.getLast?_concat]
    obtain ⟨m, hl, rfl, -⟩ := Seg.append_iff.1 (List.concat_eq_append ▸ hl)
    have hp : p ∉ l ∧ p ∉ r := by
      rw [List.concat_eq_append] at hn
      simp only [List.append_assoc, List.nodup_append, List.nodup_cons] at hn
      grind
    refine Seg.append_iff.2 ⟨next e, Seg.append_iff.2 ⟨some p, hl.update hp.1 _, rfl, ?_⟩,
      hr.update hp.2 _⟩
    exact Function.update_self ..

end Removal

/-! ## Links in both directions -/

/-- A list without repetition, with links in both directions. -/
structure Linked (head tail : Option A) (next prev : A → Option A) (l : List A) : Prop where
  forward : Seg next head l none
  backward : Seg prev tail l.reverse none
  nodup : l.Nodup

/-- The backward link of the first address, once `e` stands before it. -/
def linkBack [DecidableEq A] (head : Option A) (e : A) (prev : A → Option A) : A → Option A :=
  match head with
  | some a => Function.update prev a (some e)
  | none => prev

namespace Linked

variable {head tail : Option A} {next prev : A → Option A} {l r : List A} {e : A}

theorem head_eq (h : Linked head tail next prev l) : head = l.head? := h.forward.head_eq

theorem tail_eq (h : Linked head tail next prev l) : tail = l.getLast? := by
  rw [List.getLast?_eq_head?_reverse]
  exact h.backward.head_eq

theorem next_eq (h : Linked head tail next prev (l ++ e :: r)) : next e = r.head? :=
  h.forward.next_eq

theorem backward_append (h : Linked head tail next prev (l ++ e :: r)) :
    Seg prev tail (r.reverse ++ e :: l.reverse) none := by
  have hb := h.backward
  rwa [List.reverse_append, List.reverse_cons, List.append_assoc, List.singleton_append] at hb

theorem prev_eq (h : Linked head tail next prev (l ++ e :: r)) : prev e = l.getLast? := by
  rw [h.backward_append.next_eq, List.getLast?_eq_head?_reverse]

variable [DecidableEq A]

/-- The removal of an address, and the clearing of its links. -/
theorem unlink (h : Linked head tail next prev (l ++ e :: r)) :
    Linked (bypass (prev e) (next e) head next).1 (bypass (next e) (prev e) tail prev).1
      (Function.update (bypass (prev e) (next e) head next).2 e none)
      (Function.update (bypass (next e) (prev e) tail prev).2 e none) (l ++ r) := by
  have hn := h.nodup
  have he : e ∉ l ++ r := by
    simp only [List.nodup_append, List.nodup_cons] at hn
    grind
  have hsub : (l ++ r).Sublist (l ++ e :: r) :=
    List.Sublist.append_left (List.sublist_cons_self e r) l
  refine ⟨?_, ?_, hn.sublist hsub⟩
  · rw [h.prev_eq]
    exact (h.forward.bypass hn).update he none
  · have hrev : (r.reverse ++ e :: l.reverse).Nodup := by
      simpa using List.nodup_reverse.2 hn
    have hlast : next e = r.reverse.getLast? := by rw [h.next_eq, List.getLast?_reverse]
    rw [List.reverse_append, hlast]
    exact (h.backward_append.bypass hrev).update (by simpa [and_comm] using he) none

/-- A new first address. -/
theorem pushFront (h : Linked head tail next prev l) (he : e ∉ l) :
    Linked (some e) (tail.or (some e)) (Function.update next e head)
      (linkBack head e (Function.update prev e none)) (e :: l) := by
  refine ⟨h.forward.cons he, ?_, List.nodup_cons.2 ⟨he, h.nodup⟩⟩
  rw [List.reverse_cons, h.head_eq, h.tail_eq]
  cases l with
  | nil => exact ⟨rfl, Function.update_self ..⟩
  | cons a l =>
    have hb := h.backward
    rw [List.reverse_cons] at hb ⊢
    obtain ⟨m, hl, rfl, -⟩ := Seg.append_iff.1 hb
    obtain ⟨hea, hel⟩ : e ≠ a ∧ e ∉ l := by simpa using he
    have ha : a ∉ l := (List.nodup_cons.1 h.nodup).1
    have hlast : (a :: l).getLast?.or (some e) = tail := by
      rw [h.tail_eq, List.getLast?_cons]
      rfl
    rw [hlast]
    refine Seg.append_iff.2 ⟨some e, Seg.append_iff.2 ⟨some a, ?_, rfl, ?_⟩, rfl, ?_⟩
    · exact (hl.update (by simpa using hel) _).update (by simpa using ha) _
    · exact Function.update_self ..
    · rw [List.head?_cons, linkBack, Function.update_of_ne hea, Function.update_self]
      rfl

end Linked

end Links
