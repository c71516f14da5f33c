import Mathlib.Data.List.TakeWhile
import C2Sql.Lib.SqlLexer
import C2Sql.Migration

/-!
# Identifiers in memory

`identifier_valid` on the bytes of its argument and of its local array `upper`. An access outside of
either one has no result.

* `identifierValidMem`: the function, with every access;
* `identifierValidMem_eq`: on a string in memory it makes no access out of range, and decides what
  `identifierValid` decides on the list of its bytes;
* `identifierValidMem_iff`: it accepts the identifiers of the grammar.
-/

namespace C2Sql

open SqlText

/-! ## The function -/

variable {n : ℕ}

/-- A store into an array; `none` where the index is out of range. -/
def storeAt (a : Vector UInt8 n) (i : ℕ) (c : UInt8) : Option (Vector UInt8 n) :=
  if h : i < n then some (a.set i c h) else none

/-- The loop over the characters after the first: the length, or `none` where it rejects. -/
def scanName (name : List UInt8) (len : ℕ) : Option (Option ℕ) :=
  match name[len]? with
  | none => none
  | some c =>
    if c = 0 then some (some len)
    else if len ≥ maxIdentLen then some none
    else if !isalnum c && c ≠ 95 then some none
    else scanName name (len + 1)
termination_by maxIdentLen - len

/-- The `k` rounds from the `i`-th on of the loop that converts to upper case. -/
def copyUpper (name : List UInt8) : ℕ → ℕ → Vector UInt8 n → Option (Vector UInt8 n)
  | 0, _, upper => some upper
  | k + 1, i, upper => do
    let c ← name[i]?
    let upper ← storeAt upper i (toupper c)
    copyUpper name k (i + 1) upper

/-- The part of `identifier_valid` after the length is known. -/
def reservedCheck (name : List UInt8) (len : ℕ) (upper : Vector UInt8 (maxIdentLen + 1)) :
    Option Bool := do
  let upper ← copyUpper name len 0 upper
  let upper ← storeAt upper len 0
  pure (!reservedWords.contains (cstr upper.toList))

/-- `identifier_valid` on a pointer to the block `name`, with the array `upper` as it is found on
the stack; `none` where an access is out of range. -/
def identifierValidMem (name : Option (List UInt8)) (upper : Vector UInt8 (maxIdentLen + 1)) :
    Option Bool :=
  match name with
  | none => some false
  | some name => do
    let first ← name[0]?
    if first = 0 then pure false
    else if !isalpha first && first ≠ 95 then pure false
    else
      let len ← scanName name 1
      match len with
      | none => pure false
      | some len => reservedCheck name len upper

/-! ## Strings in memory -/

theorem toupper_ne_zero {c : UInt8} (hc : c ≠ 0) : toupper c ≠ 0 := by
  unfold toupper
  split_ifs with hlower
  · grind
  · exact hc

theorem cstr_of_notMem {s : List UInt8} (hs : 0 ∉ s) : cstr s = s := by
  refine List.takeWhile_eq_self_iff.2 fun c hc => ?_
  rw [decide_eq_true_iff]
  rintro rfl
  exact hs hc

/-- A string ends at the first zero. -/
theorem cstr_append {s rest : List UInt8} (hs : ∀ c ∈ s, c ≠ 0) : cstr (s ++ 0 :: rest) = s := by
  rw [cstr, List.takeWhile_append_of_pos fun c hc => decide_eq_true (hs c hc)]
  simp

/-- The bytes of a string, its terminator, and what follows in memory. -/
def inMemory (s : CStr) (rest : List UInt8) : List UInt8 := s ++ 0 :: rest

theorem getElem?_inMemory {s : CStr} {rest : List UInt8} {i : ℕ} (hi : i < s.length) :
    (inMemory s rest)[i]? = some s[i] := by
  rw [inMemory, List.getElem?_append_left hi, List.getElem?_eq_getElem hi]

theorem getElem?_inMemory_length (s : CStr) (rest : List UInt8) :
    (inMemory s rest)[s.length]? = some 0 := by
  simp [inMemory]

section Strings

variable {s : CStr} (hs : 0 ∉ s) (rest : List UInt8)

include hs

/-- The scan in memory is the scan of the list. -/
theorem scanName_eq {len : ℕ} (hlen : len ≤ s.length) :
    scanName (inMemory s rest) len = some (identLen len (s.drop len)) := by
  -- along the bytes that the scan has not seen
  induction hk : s.length - len generalizing len with
  | zero =>
    obtain rfl : len = s.length := by omega
    rw [scanName, getElem?_inMemory_length, List.drop_length]
    rfl
  | succ k ih =>
    have hlt : len < s.length := by omega
    have hne : s[len] ≠ 0 := fun h0 => hs (h0 ▸ List.getElem_mem hlt)
    rw [scanName, getElem?_inMemory hlt, List.drop_eq_getElem_cons hlt, identLen]
    dsimp only
    rw [if_neg hne]
    split_ifs with hmax hbyte
    · rfl
    · rfl
    · exact ih hlt (by omega)

omit hs in
/-- The loop that converts to upper case fills its part of the array. -/
theorem copyUpper_eq {k i : ℕ} (hk : i + k ≤ s.length) (hn : s.length < n)
    (upper : Vector UInt8 n) :
    ∃ upper', copyUpper (inMemory s rest) k i upper = some upper' ∧
      upper'.toList = upper.toList.take i ++ ((s.drop i).take k).map toupper ++
        upper.toList.drop (i + k) := by
  induction k generalizing i upper with
  | zero => exact ⟨upper, rfl, by simp⟩
  | succ k ih =>
    have hlt : i < s.length := by omega
    have hin : i < n := by omega
    have hlen : upper.toList.length = n := Vector.length_toList
    obtain ⟨upper', hrun, hlist⟩ := ih (i := i + 1) (by omega) (upper.set i (toupper s[i]) hin)
    refine ⟨upper', ?_, ?_⟩
    · rw [copyUpper, getElem?_inMemory hlt, Option.bind_eq_bind, Option.bind_some, storeAt,
        dif_pos hin]
      exact hrun
    · rw [hlist, Vector.toList_set, List.take_set, List.drop_set_of_lt (by omega),
        List.drop_eq_getElem_cons hlt, List.take_succ_cons, List.map_cons,
        List.take_succ_eq_append_getElem (by omega),
        List.set_append_right _ _ (by rw [List.length_take]; omega)]
      simp [Nat.min_eq_left (show i ≤ n by omega), Nat.add_right_comm, Nat.add_assoc]

/-- The array holds the upper case of the name when it is compared. -/
theorem reservedCheck_eq (hlen : s.length ≤ maxIdentLen)
    (upper : Vector UInt8 (maxIdentLen + 1)) :
    reservedCheck (inMemory s rest) s.length upper =
      some (!reservedWords.contains (s.map toupper)) := by
  have hin : s.length < maxIdentLen + 1 := by omega
  obtain ⟨upper', hcopy, hlist⟩ := copyUpper_eq (i := 0) (k := s.length) rest (by omega) hin upper
  have hstr : cstr (upper'.set s.length 0 hin).toList = s.map toupper := by
    have hdrop : upper.toList.drop s.length ≠ [] := by
      rw [Ne, List.drop_eq_nil_iff, Vector.length_toList]
      omega
    obtain ⟨b, bs, hb⟩ := List.exists_cons_of_ne_nil hdrop
    rw [Vector.toList_set, hlist, Nat.zero_add, hb, List.take_zero, List.nil_append, List.drop_zero,
      List.take_length, List.set_append_right _ _ (by simp), List.length_map, Nat.sub_self,
      List.set_cons_zero]
    exact cstr_append fun c hc => by
      obtain ⟨b, hb, rfl⟩ := List.mem_map.1 hc
      exact toupper_ne_zero fun h0 => hs (h0 ▸ hb)
  rw [reservedCheck, hcopy, Option.bind_eq_bind, Option.bind_some, storeAt, dif_pos hin,
    Option.bind_some, hstr]
  rfl

/-- **The function in memory decides what the function on lists decides**, and makes no access out
of range. -/
theorem identifierValidMem_eq (upper : Vector UInt8 (maxIdentLen + 1)) :
    identifierValidMem (some (inMemory s rest)) upper = some (identifierValid s) := by
  cases s with
  | nil => rfl
  | cons first tail =>
    have hfirst : first ≠ 0 := fun h0 => hs (h0 ▸ List.mem_cons_self)
    have hone : 1 ≤ (first :: tail).length := by
      rw [List.length_cons]
      omega
    have hscan := scanName_eq hs rest hone
    rw [List.drop_one, List.tail_cons] at hscan
    rw [identifierValidMem, identifierValid]
    simp only [inMemory, List.cons_append, List.getElem?_cons_zero, Option.bind_eq_bind,
      Option.bind_some, if_neg hfirst]
    split_ifs with hbyte
    · rfl
    · rw [← List.cons_append, ← inMemory, hscan, Option.bind_some]
      cases hlen : identLen 1 tail with
      | none => rfl
      | some len =>
        obtain ⟨-, hn, hle⟩ := identLen_eq_some hlen
        have hmax : (first :: tail).length ≤ maxIdentLen := by
          cases tail with
          | nil => exact Nat.le_of_ble_eq_true rfl
          | cons b bs => exact (hle (by simp)).trans' (by rw [hn, List.length_cons]; omega)
        obtain rfl : len = (first :: tail).length := by rw [hn, List.length_cons]; omega
        dsimp only
        rw [List.take_length]
        exact reservedCheck_eq hs rest hmax upper

end Strings

/-! ## The grammar -/

/-- The grammar of identifiers. -/
structure IsIdentifier (s : CStr) : Prop where
  length_pos : 1 ≤ s.length
  length_le : s.length ≤ 128
  first : ∀ c ∈ s.head?, isalpha c = true ∨ c = byte '_'
  rest : ∀ c ∈ s.tail, isalpha c = true ∨ byte '0' ≤ c ∧ c ≤ byte '9' ∨ c = byte '_'
  not_reserved : s.map toupper ∉ reservedWords

theorem identByte_iff {c : UInt8} :
    identByte c = true ↔ isalpha c = true ∨ byte '0' ≤ c ∧ c ≤ byte '9' ∨ c = byte '_' := by
  have hzero : byte '0' = 48 := rfl
  have hnine : byte '9' = 57 := rfl
  have hunder : byte '_' = 95 := rfl
  simp only [identByte, isalnum, Bool.or_eq_true, Bool.and_eq_true, decide_eq_true_eq, beq_iff_eq,
    hzero, hnine, hunder, or_assoc]

theorem isIdentifier_iff (s : CStr) : IsIdentifier s ↔ identifierValid s = true := by
  cases s with
  | nil => exact ⟨fun h => absurd h.length_pos (by decide), nofun⟩
  | cons c cs =>
    rw [identifierValid_cons_iff]
    constructor
    · intro h
      exact ⟨h.first c rfl, fun b hb => identByte_iff.2 (h.rest b hb),
        Nat.lt_of_succ_le h.length_le, h.not_reserved⟩
    · rintro ⟨hfirst, hrest, hlen, hres⟩
      refine ⟨by simp, hlen, ?_, fun b hb => identByte_iff.1 (hrest b hb), hres⟩
      rintro b ⟨rfl⟩
      exact hfirst

/-- **`identifier_valid` accepts exactly the grammar** on every string in memory, whatever follows
the string and whatever the array holds at first; all its accesses are in range. -/
theorem identifierValidMem_iff {s : CStr} (hs : 0 ∉ s) (rest : List UInt8)
    (upper : Vector UInt8 (maxIdentLen + 1)) :
    ∃ b, identifierValidMem (some (inMemory s rest)) upper = some b ∧
      (b = true ↔ IsIdentifier s) :=
  ⟨identifierValid s, identifierValidMem_eq hs rest upper, (isIdentifier_iff s).symm⟩

/-- The longest identifiers, and names that are longer by one. -/
theorem identifierValidMem_longest :
    0 ∉ List.replicate 128 (byte 'a') ∧
      (∃ b, identifierValidMem (some (inMemory (List.replicate 128 (byte 'a')) []))
        (Vector.replicate _ 0) = some b ∧
          (b = true ↔ IsIdentifier (List.replicate 128 (byte 'a')))) ∧
      identifierValidMem (some (inMemory (List.replicate 129 (byte 'a')) []))
        (Vector.replicate _ 0) = some false :=
  ⟨by decide, identifierValidMem_iff (by decide) _ _, by
    rw [identifierValidMem_eq (by decide)]
    decide +kernel⟩

end C2Sql
