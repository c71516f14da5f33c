import C2Sql.TypeMapping

/-!
# Words, buffers and bitmaps

The memory that `type_mapping.c` works on.

* `bytesOf_ofBytes`, `ofBytes_bytesOf`: reading a word from memory and storing it are inverse;
* `Buffer.write_of_lt`, `Buffer.write_of_ge`, `Buffer.write_add`: a byte of a buffer after a store;
* `nullBitGet_nullBitSet`: a bit of a bitmap after another one was set.
-/

namespace C2Sql

/-! ## Words -/

theorem ofBytes_cons (w : ℕ) (b : UInt8) (bytes : List UInt8) :
    ofBytes w (b :: bytes) = (ofBytes w bytes <<< 8) ||| b.toBitVec.setWidth w := rfl

/-- Bit `k` of a word is bit `k % 8` of byte `k / 8`. -/
theorem getLsbD_ofBytes {w : ℕ} (bytes : List UInt8) {k : ℕ} (hk : k < w) :
    (ofBytes w bytes).getLsbD k = (bytes.getD (k / 8) 0).toBitVec.getLsbD (k % 8) := by
  induction bytes generalizing k with
  | nil => simp [ofBytes]
  | cons b bytes ih =>
    rw [ofBytes_cons, BitVec.getLsbD_or, BitVec.getLsbD_shiftLeft, BitVec.getLsbD_setWidth]
    by_cases h8 : k < 8
    · simp [hk, h8, Nat.div_eq_of_lt h8, Nat.mod_eq_of_lt h8]
    · obtain ⟨j, rfl⟩ := Nat.exists_eq_add_of_le (not_lt.1 h8)
      rw [BitVec.getLsbD_of_ge b.toBitVec (8 + j) (by omega), show 8 + j - 8 = j by omega,
        ih (by omega), show (8 + j) / 8 = j / 8 + 1 by omega, show (8 + j) % 8 = j % 8 by omega]
      simp [hk]

@[simp]
theorem length_bytesOf {w : ℕ} (v : BitVec w) (n : ℕ) : (bytesOf v n).length = n := by
  simp [bytesOf]

/-- A word that was read from memory is stored as the same bytes. -/
theorem bytesOf_ofBytes {w : ℕ} {bytes : List UInt8} (h : 8 * bytes.length = w) :
    bytesOf (ofBytes w bytes) bytes.length = bytes := by
  refine List.ext_getElem (length_bytesOf ..) fun i _ hi => ?_
  simp only [bytesOf, List.getElem_map, List.getElem_range]
  refine UInt8.toBitVec_inj.1 (BitVec.eq_of_getLsbD_eq fun k hk => ?_)
  rw [UInt8.toBitVec_ofBitVec, BitVec.getLsbD_setWidth, BitVec.getLsbD_ushiftRight,
    getLsbD_ofBytes bytes (by omega), show (8 * i + k) / 8 = i by omega,
    show (8 * i + k) % 8 = k by omega]
  simp [hk, hi]

/-- A word that was stored is read again. -/
theorem ofBytes_bytesOf {w n : ℕ} (v : BitVec w) (h : 8 * n = w) : ofBytes w (bytesOf v n) = v := by
  refine BitVec.eq_of_getLsbD_eq fun k hk => ?_
  have hlt : k / 8 < n := by omega
  have hmod : k % 8 < 8 := by omega
  rw [getLsbD_ofBytes _ hk, List.getD_eq_getElem?_getD, bytesOf, List.getElem?_map,
    List.getElem?_range hlt, Option.map_some, Option.getD_some, UInt8.toBitVec_ofBitVec,
    BitVec.getLsbD_setWidth, BitVec.getLsbD_ushiftRight, show 8 * (k / 8) + k % 8 = k by omega]
  simp [hmod]

/-- The narrow integer that is sent through a wide one. -/
theorem setWidth_signExtend (v : BitVec 32) : (v.signExtend 64).setWidth 32 = v := by
  refine BitVec.eq_of_getLsbD_eq fun k hk => ?_
  rw [BitVec.getLsbD_setWidth, BitVec.getLsbD_signExtend]
  simp [hk, show k < 64 by omega]

theorem toInt_signExtend (v : BitVec 32) : (v.signExtend 64).toInt = v.toInt :=
  BitVec.toInt_signExtend_of_le (by decide)

/-! ## Reading memory -/

namespace Mem

variable (m : Mem) (off n : ℕ)

@[simp]
theorem length_read : (m.read off n).length = n := by simp [read]

theorem getElem?_read {i : ℕ} (hi : i < n) : (m.read off n)[i]? = some (m (off + i)) := by
  simp [read, List.getElem?_range hi]

theorem read_eq_iff {m m' : Mem} {off n : ℕ} :
    m.read off n = m'.read off n ↔ ∀ i < n, m (off + i) = m' (off + i) := by
  simp [read, List.map_inj_left]

theorem take_read {k : ℕ} (hk : k ≤ n) : (m.read off n).take k = m.read off k := by
  rw [read, ← List.map_take, List.take_range, Nat.min_eq_left hk, read]

end Mem

/-! ## The length of a string -/

theorem boundedStrlen_eq (m : Mem) (off n : ℕ) :
    boundedStrlen m off n = (m.read off n).findIdx fun c => c == 0 := by
  have hle : (m.read off n).findIdx (fun c => c == 0) ≤ (m.read off n).length :=
    List.findIdx_le_length
  have hnot : (fun c : UInt8 => !decide (c ≠ 0)) = fun c => c == 0 := by
    funext c
    by_cases hc : c = 0 <;> simp [hc]
  rw [boundedStrlen, List.takeWhile_eq_take_findIdx_not, List.length_take, hnot,
    Nat.min_eq_left hle]

theorem boundedStrlen_le (m : Mem) (off n : ℕ) : boundedStrlen m off n ≤ n := by
  have hle : (m.read off n).findIdx (fun c => c == 0) ≤ (m.read off n).length :=
    List.findIdx_le_length
  rw [boundedStrlen_eq]
  simpa using hle

/-- The bytes before the end of a string are not zero. -/
theorem ne_zero_of_lt_boundedStrlen {m : Mem} {off n i : ℕ} (hi : i < boundedStrlen m off n) :
    m (off + i) ≠ 0 := by
  rw [boundedStrlen_eq] at hi
  simpa [Mem.read] using List.not_of_lt_findIdx hi

theorem eq_zero_of_boundedStrlen_lt {m : Mem} {off n : ℕ} (h : boundedStrlen m off n < n) :
    m (off + boundedStrlen m off n) = 0 := by
  rw [boundedStrlen_eq] at h ⊢
  have hlt : ((m.read off n).findIdx fun c => c == 0) < (m.read off n).length := by simpa using h
  simpa [Mem.read] using List.findIdx_getElem (w := hlt)

/-- A string that ends within its member has a zero at its end. -/
theorem eq_zero_at_boundedStrlen {m : Mem} {off n : ℕ} (h : 0 ∈ m.read off n) :
    boundedStrlen m off n < n ∧ m (off + boundedStrlen m off n) = 0 := by
  have hlt : boundedStrlen m off n < n := by
    rw [boundedStrlen_eq]
    simpa using List.findIdx_lt_length_of_exists (p := fun c : UInt8 => c == 0) ⟨0, h, rfl⟩
  exact ⟨hlt, eq_zero_of_boundedStrlen_lt hlt⟩

/-- Strings that agree up to the NUL of one of them, or to the end of the member. -/
theorem boundedStrlen_of_agree {m m' : Mem} {off n : ℕ}
    (h : ∀ k < min (boundedStrlen m off n + 1) n, m (off + k) = m' (off + k)) :
    boundedStrlen m' off n = boundedStrlen m off n := by
  have hle := boundedStrlen_le m off n
  have hle' := boundedStrlen_le m' off n
  rcases lt_trichotomy (boundedStrlen m' off n) (boundedStrlen m off n) with hlt | heq | hgt
  · have hne := ne_zero_of_lt_boundedStrlen hlt
    rw [h _ (by omega)] at hne
    exact absurd (eq_zero_of_boundedStrlen_lt (by omega)) hne
  · exact heq
  · have hne := ne_zero_of_lt_boundedStrlen hgt
    rw [← h _ (by omega)] at hne
    exact absurd (eq_zero_of_boundedStrlen_lt (by omega)) hne

/-! ## Stores -/

namespace Buffer

variable (b : Buffer) (off : ℕ) (bytes : List UInt8)

@[simp]
theorem size_write : (b.write off bytes).size = b.size := rfl

theorem write_of_lt {i : ℕ} (hi : i < off) : (b.write off bytes).data i = b.data i :=
  if_neg (by omega)

theorem write_add (k : ℕ) :
    (b.write off bytes).data (off + k) = (bytes[k]?).getD (b.data (off + k)) := by
  simp [write]

theorem write_of_ge {i : ℕ} (hi : off + bytes.length ≤ i) :
    (b.write off bytes).data i = b.data i := by
  obtain ⟨k, rfl⟩ := Nat.exists_eq_add_of_le (show off ≤ i by omega)
  rw [write_add, List.getElem?_eq_none (by omega)]
  rfl

@[simp]
theorem write_nil : b.write off [] = b := by
  simp [write]

/-- Two stores next to each other. -/
theorem write_append (more : List UInt8) :
    (b.write off bytes).write (off + bytes.length) more = b.write off (bytes ++ more) := by
  simp only [write, Buffer.mk.injEq, true_and]
  constructor
  · funext i
    by_cases hi : off ≤ i
    · rw [if_pos hi, if_pos hi]
      by_cases hlt : i - off < bytes.length
      · rw [if_neg (by omega), List.getElem?_append_left hlt]
      · rw [if_pos (by omega), List.getElem?_append_right (by omega),
          List.getElem?_eq_none (l := bytes) (by omega), Nat.sub_sub]
        rfl
    · rw [if_neg hi, if_neg hi, if_neg (by omega)]
  · cases bytes <;> cases more <;> simp [Nat.add_assoc]
    grind

end Buffer

/-! ## Bitmaps -/

theorem nullBitGet_nullBitSet (map : Option Mem) (i j : ℕ) :
    nullBitGet (nullBitSet map i) j = (nullBitGet map j || (map.isSome && i == j)) := by
  cases map with
  | none => rfl
  | some m =>
    simp only [nullBitSet, nullBitGet, Option.map_some, Function.update_apply, Option.isSome_some,
      Bool.true_and]
    by_cases hj : j / 8 = i / 8
    · have hpow : (UInt8.ofNat (1 <<< (i % 8))).toNat = 1 <<< (i % 8) := by
        have : i % 8 < 8 := Nat.mod_lt _ (by decide)
        interval_cases i % 8 <;> rfl
      rw [if_pos hj, UInt8.toNat_or, hpow, Nat.testBit_or, hj, Nat.one_shiftLeft,
        Nat.testBit_two_pow]
      congr 1
      simp only [beq_eq_decide, decide_eq_decide]
      omega
    · rw [if_neg hj]
      have : (i == j) = false := by
        simp only [beq_eq_false_iff_ne]
        rintro rfl
        exact hj rfl
      rw [this, Bool.or_false]

@[simp]
theorem isSome_nullBitSet (map : Option Mem) (i : ℕ) :
    (nullBitSet map i).isSome = map.isSome := by
  cases map <;> rfl

end C2Sql
