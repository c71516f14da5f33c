import Mathlib.Data.List.Perm.Subperm

/-!
# Least-recently-used maps

A bounded map as a list of its items, the most recently used one first. Operations return the values
that leave the map.

* `Lru.get`, `Lru.put`, `Lru.resize`: the operations;
* `Lru.Valid`: the items fit, and no key occurs twice;
* `Lru.perm_get`, `Lru.perm_put`, `Lru.perm_resize`: every value of a valid map, and one that
  enters, leaves it once or stays.
-/

/-- A map with at most `capacity` items, the most recently used one first. -/
structure Lru (K V : Type) where
  capacity : ℕ
  items : List (K × V)

namespace Lru

variable {K V : Type} [DecidableEq K]

/-- The value of a key. -/
def lookup (c : Lru K V) (k : K) : Option V := (c.items.find? fun p => p.1 = k).map Prod.snd

/-- The items of other keys. -/
def without (k : K) (l : List (K × V)) : List (K × V) := l.filter fun p => p.1 ≠ k

/-- The value of a key, which becomes the most recently used one. -/
def get (c : Lru K V) (k : K) : Option V × Lru K V :=
  match c.lookup k with
  | none => (none, c)
  | some v => (some v, { c with items := (k, v) :: without k c.items })

/-- A new value for a key. What leaves the map is the old value of the key, or what no longer fits;
without any capacity it is the new value. -/
def put (c : Lru K V) (k : K) (v : V) : Lru K V × List V :=
  if c.capacity = 0 then (c, [v])
  else match c.lookup k with
    | some old => ({ c with items := (k, v) :: without k c.items }, [old])
    | none => ({ c with items := (k, v) :: c.items.take (c.capacity - 1) },
        (c.items.drop (c.capacity - 1)).map Prod.snd)

/-- Another capacity. What no longer fits leaves the map, the least recently used item first. -/
def resize (c : Lru K V) (n : ℕ) : Lru K V × List V :=
  (⟨n, c.items.take n⟩, ((c.items.drop n).map Prod.snd).reverse)

/-- The items fit, and no key occurs twice. -/
structure Valid (c : Lru K V) : Prop where
  length_le : c.items.length ≤ c.capacity
  nodup : (c.items.map Prod.fst).Nodup

/-- The values in the map. -/
def values (c : Lru K V) : List V := c.items.map Prod.snd

theorem lookup_eq_none_iff {c : Lru K V} {k : K} :
    c.lookup k = none ↔ k ∉ c.items.map Prod.fst := by
  simp only [lookup, Option.map_eq_none_iff, List.find?_eq_none, decide_eq_true_eq, List.mem_map,
    not_exists, not_and]

theorem get_fst (c : Lru K V) (k : K) : (c.get k).1 = c.lookup k := by
  rw [get]
  cases c.lookup k <;> rfl

/-- A key that has a value splits the items. -/
theorem exists_of_lookup_eq_some {c : Lru K V} (hc : c.Valid) {k : K} {v : V}
    (h : c.lookup k = some v) :
    ∃ l r, c.items = l ++ (k, v) :: r ∧ without k c.items = l ++ r := by
  obtain ⟨p, hp, rfl⟩ := Option.map_eq_some_iff.1 h
  obtain ⟨hpk, l, r, hitems, hl⟩ := List.find?_eq_some_iff_append.1 hp
  obtain rfl : p.1 = k := by simpa using hpk
  refine ⟨l, r, hitems, ?_⟩
  have hn := hc.nodup
  rw [hitems, List.map_append, List.map_cons, List.nodup_append, List.nodup_cons] at hn
  have hl' : ∀ q ∈ l, q.1 ≠ p.1 := fun q hq => by simpa using hl q hq
  have hr' : ∀ q ∈ r, q.1 ≠ p.1 := fun q hq h =>
    hn.2.1.1 (List.mem_map.2 ⟨q, hq, h⟩)
  rw [without, hitems, List.filter_append, List.filter_cons_of_neg (by simp),
    List.filter_eq_self.2 (by simpa using hl'), List.filter_eq_self.2 (by simpa using hr')]

theorem mem_of_lookup_eq_some {c : Lru K V} {k : K} {v : V} (h : c.lookup k = some v) :
    (k, v) ∈ c.items := by
  obtain ⟨p, hp, rfl⟩ := Option.map_eq_some_iff.1 h
  obtain rfl : p.1 = k := by simpa using List.find?_some hp
  exact List.mem_of_find?_eq_some hp

/-! ## What leaves the map -/

/-- The values before a `put`, with the new one, are those that leave and those that stay. -/
theorem perm_put {c : Lru K V} (hc : c.Valid) (k : K) (v : V) :
    (v :: c.values).Perm ((c.put k v).2 ++ (c.put k v).1.values) := by
  rw [put]
  split_ifs with h0
  · exact List.Perm.refl _
  · cases hl : c.lookup k with
    | none =>
      simp only [values, List.map_cons]
      refine (List.Perm.cons v ?_).trans List.perm_middle.symm
      rw [← List.map_append]
      exact ((List.perm_append_comm.trans (by rw [List.take_append_drop])).map Prod.snd).symm
    | some old =>
      obtain ⟨l, r, hitems, hwithout⟩ := exists_of_lookup_eq_some hc hl
      simp only [values, List.map_cons, hwithout, List.singleton_append]
      rw [hitems, List.map_append, List.map_cons, List.map_append]
      exact (List.Perm.cons v List.perm_middle).trans (List.Perm.swap ..)

omit [DecidableEq K] in
/-- The values before a `resize` are those that leave and those that stay. -/
theorem perm_resize (c : Lru K V) (n : ℕ) :
    c.values.Perm ((c.resize n).2 ++ (c.resize n).1.values) := by
  simp only [resize, values]
  refine List.Perm.trans ?_ (List.Perm.append_right _ (List.reverse_perm _).symm)
  rw [← List.map_append]
  exact ((List.perm_append_comm.trans (by rw [List.take_append_drop])).map Prod.snd).symm

theorem perm_get {c : Lru K V} (hc : c.Valid) (k : K) : c.values.Perm (c.get k).2.values := by
  rw [get]
  cases hl : c.lookup k with
  | none => exact List.Perm.refl _
  | some v =>
    obtain ⟨l, r, hitems, hwithout⟩ := exists_of_lookup_eq_some hc hl
    simp only [values, hwithout]
    rw [hitems]
    exact List.perm_middle.map _

/-! ## What stays in the map -/

theorem mem_of_mem_get {c : Lru K V} {k : K} {p : K × V} (h : p ∈ (c.get k).2.items) :
    p ∈ c.items := by
  rw [get] at h
  cases hl : c.lookup k with
  | none =>
    rw [hl] at h
    exact h
  | some v =>
    rw [hl] at h
    obtain rfl | h := List.mem_cons.1 h
    · exact mem_of_lookup_eq_some hl
    · exact List.mem_of_mem_filter h

/-- The items after a `put` are the new one and old ones of other keys. -/
theorem mem_of_mem_put {c : Lru K V} (hc : c.Valid) {k : K} {v : V} {p : K × V}
    (h : p ∈ (c.put k v).1.items) : p = (k, v) ∨ p ∈ c.items ∧ p.1 ≠ k := by
  rw [put] at h
  split_ifs at h with h0
  · have hnil : c.items = [] := List.length_eq_zero_iff.1 (by have := hc.length_le; omega)
    rw [hnil] at h
    cases h
  · cases hl : c.lookup k with
    | none =>
      rw [hl] at h
      obtain rfl | h := List.mem_cons.1 h
      · exact .inl rfl
      · have hmem := List.mem_of_mem_take h
        exact .inr ⟨hmem, fun hk => lookup_eq_none_iff.1 hl (List.mem_map.2 ⟨p, hmem, hk⟩)⟩
    | some old =>
      rw [hl] at h
      obtain rfl | h := List.mem_cons.1 h
      · exact .inl rfl
      · exact .inr (by simpa [without] using h)

end Lru
