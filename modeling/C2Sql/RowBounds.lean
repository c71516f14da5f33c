import C2Sql.Api.Rows
import C2Sql.RowImage

/-!
# The bytes a row operation touches

Registration checks the sizes of the integer members only, and the type decides how many bytes are
copied. So the temporary row of `SqlRDBRead` is large enough, and the bytes that are bound belong to
a member, exactly if the eight bytes of every REAL member do (`row_bounds_iff`).

* `rowReads`: the bytes that `c2sql_internal_tm_bind_row` reads, which decide what it does
  (`bindRowFrom_congr`);
* `readRowFrom_bounds`: what `c2sql_internal_tm_read_row` may write, whatever the driver returns.
-/

namespace C2Sql

open StateLogic

variable {σ : Type}

/-! ## What is read -/

/-- The bytes that `bind_one` reads: a string up to its NUL, within the member. -/
def bindReads (row : Mem) (c : SqlRDBColumnDef) : Set ℕ :=
  match c.type with
  | .int32 => Set.Ico c.offset (c.offset + 4)
  | .int64 => Set.Ico c.offset (c.offset + 8)
  | .real => Set.Ico c.offset (c.offset + 8)
  | .text => Set.Ico c.offset (c.offset + min (boundedStrlen row c.offset c.size + 1) c.size)
  | .blob => Set.Ico c.offset (c.offset + c.size)
  | .other _ => ∅

/-- Whether the type is outside the enumeration. -/
def SqlRDBType.unknown : SqlRDBType → Bool
  | .other _ => true
  | _ => false

/-- The bytes that `c2sql_internal_tm_bind_row` reads, from the `i`-th column on, with every driver
call succeeding. -/
def rowReads (row : Mem) (nullMap : Option Mem) : ℕ → List SqlRDBColumnDef → Set ℕ
  | _, [] => ∅
  | i, c :: cs =>
    if nullBitGet nullMap i then
      if c.nullable then rowReads row nullMap (i + 1) cs else ∅
    else bindReads row c ∪ if c.type.unknown then ∅ else rowReads row nullMap (i + 1) cs

theorem read_congr {m m' : Mem} {off n : ℕ} (h : ∀ b ∈ Set.Ico off (off + n), m b = m' b) :
    m.read off n = m'.read off n :=
  Mem.read_eq_iff.2 fun k hk => h (off + k) ⟨by omega, by omega⟩

/-- The bytes that are read decide the value that is bound. -/
theorem boundValue_congr {row row' : Mem} {c : SqlRDBColumnDef}
    (h : ∀ b ∈ bindReads row c, row b = row' b) : boundValue c row = boundValue c row' := by
  unfold bindReads at h
  unfold boundValue
  cases hty : c.type with
  | int32 => rw [hty] at h; rw [read_congr h]
  | int64 => rw [hty] at h; rw [read_congr h]
  | real => rw [hty] at h; rw [read_congr h]
  | blob => rw [hty] at h; rw [read_congr h]
  | other v => rfl
  | text =>
    rw [hty] at h
    have hlen : boundedStrlen row' c.offset c.size = boundedStrlen row c.offset c.size :=
      boundedStrlen_of_agree fun k hk => h (c.offset + k) ⟨by omega, by omega⟩
    have hle := boundedStrlen_le row c.offset c.size
    simp only [hlen, Option.some.injEq, SqlValue.text.injEq]
    apply Mem.read_eq_iff.2
    intro k hk
    exact h (c.offset + k) ⟨by omega, by omega⟩

theorem boundValue_eq_none_iff {c : SqlRDBColumnDef} {row : Mem} :
    boundValue c row = none ↔ c.type.unknown = true := by
  unfold boundValue
  cases c.type <;> simp [SqlRDBType.unknown]

/-- **The bytes that are read decide what `c2sql_internal_tm_bind_row` does**, with any driver. -/
theorem bindRowFrom_congr (d : SqlRDBDriver σ) (stmt : StmtId) {row row' : Mem}
    {nullMap : Option Mem} {cols : List SqlRDBColumnDef} {i : ℕ}
    (h : ∀ b ∈ rowReads row nullMap i cols, row b = row' b) :
    bindRowFrom d stmt row nullMap i cols = bindRowFrom d stmt row' nullMap i cols := by
  induction cols generalizing i with
  | nil => rfl
  | cons c cols ih =>
    rw [rowReads] at h
    rw [bindRowFrom, bindRowFrom]
    by_cases hbit : nullBitGet nullMap i = true
    · rw [if_pos hbit] at h
      rw [if_pos hbit, if_pos hbit]
      by_cases hnull : c.nullable = true
      · rw [if_pos hnull] at h
        rw [ih h]
      · rw [if_pos (by simpa using hnull), if_pos (by simpa using hnull)]
    · rw [if_neg hbit] at h
      have hval := boundValue_congr fun b hb => h b (.inl hb)
      rw [if_neg hbit, if_neg hbit, bindOne, bindOne, ← hval]
      by_cases hty : c.type.unknown = true
      · simp only [boundValue_eq_none_iff.2 hty, pure_bind, ne_eq, reduceCtorEq, not_false_eq_true,
          if_true]
      · rw [if_neg hty] at h
        rw [ih fun b hb => h b (.inr hb)]

/-! ## What is written -/

/-- The number of bytes that `read_one` may write. -/
def readReach (c : SqlRDBColumnDef) : ℕ :=
  match c.type with
  | .int32 => 4
  | .int64 => 8
  | .real => 8
  | .text => c.size
  | .blob => c.size
  | .other _ => 0

/-- A store within a buffer is no overrun. -/
theorem Buffer.overrun_write {b : Buffer} {off : ℕ} {bytes : List UInt8}
    (h : off + bytes.length ≤ b.size) : (b.write off bytes).overrun = b.overrun := by
  simp only [Buffer.write, Bool.or_eq_left_iff_imp, Bool.and_eq_true, decide_eq_true_eq]
  omega

/-- `read_one` keeps the size of the buffer, and does not overrun one that holds the bytes it may
write. -/
theorem readOne_bounds (d : SqlRDBDriver σ) (stmt : StmtId) (i : ℕ) {c : SqlRDBColumnDef}
    {row : Buffer} (h : c.offset + readReach c ≤ row.size) :
    Yields (fun r => r.2.size = row.size ∧ r.2.overrun = row.overrun) (readOne d stmt i c row) := by
  have hstore : ∀ {bytes : List UInt8} (r : SqlRDBResult), c.offset + bytes.length ≤ row.size →
      (r, row.write c.offset bytes).2.size = row.size ∧
        (r, row.write c.offset bytes).2.overrun = row.overrun :=
    fun r hb => ⟨rfl, Buffer.overrun_write hb⟩
  unfold readOne
  unfold readReach at h
  cases hty : c.type with
  | int32 =>
    simp only [hty] at h
    apply Yields.bind
    rintro ⟨r, v⟩
    exact Yields.ite (.pure ⟨rfl, rfl⟩) (.pure (hstore _ (by simpa using h)))
  | int64 =>
    simp only [hty] at h
    apply Yields.bind
    rintro ⟨r, v⟩
    exact Yields.ite (.pure ⟨rfl, rfl⟩) (.pure (hstore _ (by simpa using h)))
  | real =>
    simp only [hty] at h
    apply Yields.bind
    rintro ⟨r, v⟩
    exact Yields.ite (.pure ⟨rfl, rfl⟩) (.pure (hstore _ (by simpa using h)))
  | text =>
    simp only [hty] at h
    apply Yields.bind
    rintro ⟨r, p⟩
    refine Yields.ite (.pure ⟨rfl, rfl⟩) ?_
    by_cases hz : c.size = 0
    · rw [if_pos hz]
      exact .pure ⟨rfl, rfl⟩
    · rw [if_neg hz]
      have hcopy : c.offset + ((p.getD []).take (min (p.getD []).length (c.size - 1))).length ≤
          row.size := by
        rw [List.length_take]
        omega
      refine .pure ⟨rfl, (Buffer.overrun_write ?_).trans (Buffer.overrun_write hcopy)⟩
      simp only [Buffer.size_write, List.length_singleton]
      omega
  | blob =>
    simp only [hty] at h
    apply Yields.bind
    rintro ⟨r, p⟩
    refine Yields.ite (.pure ⟨rfl, rfl⟩) (.pure (hstore _ ?_))
    simp only [List.length_take]
    omega
  | other v => exact .pure ⟨rfl, rfl⟩

/-- **A buffer that holds the bytes of every column is not overrun**, whatever the driver
returns. -/
theorem readRowFrom_bounds (d : SqlRDBDriver σ) (stmt : StmtId) {size : ℕ}
    {cols : List SqlRDBColumnDef} (hcols : ∀ c ∈ cols, c.offset + readReach c ≤ size) (i : ℕ)
    (cut : Bool) {row : Buffer} (hrow : row.size = size ∧ row.overrun = false)
    (nullMap : Option Mem) :
    Yields (fun r => r.2.1.overrun = false) (readRowFrom d stmt i cols cut row nullMap) := by
  induction cols generalizing i cut row nullMap with
  | nil => exact .pure hrow.2
  | cons c cols ih =>
    have htail := ih fun c' hc' => hcols c' (by simp [hc'])
    rw [readRowFrom]
    apply Yields.bind
    rintro ⟨r, isNull⟩
    refine Yields.ite (.pure hrow.2) (Yields.ite (htail _ _ hrow _) ?_)
    have hreach : c.offset + readReach c ≤ row.size := by
      rw [hrow.1]
      exact hcols c (by simp)
    have hone := readOne_bounds d stmt i hreach
    rw [hrow.1, hrow.2] at hone
    refine hone.seq ?_
    rintro ⟨r, row'⟩ hrow'
    exact Yields.ite (htail _ _ hrow' _) (Yields.ite (.pure hrow'.2) (htail _ _ hrow' _))

theorem le_foldl_max (cols : List SqlRDBColumnDef) (m : ℕ) :
    m ≤ cols.foldl (fun m c => max m (sizeT (c.offset + c.size))) m := by
  induction cols generalizing m with
  | nil => exact le_rfl
  | cons c cols ih => exact (le_max_left _ _).trans (ih _)

/-- `buf_size` is the greatest end of a member. -/
theorem le_bufSize {cols : List SqlRDBColumnDef} {c : SqlRDBColumnDef} (hc : c ∈ cols)
    (hlt : c.offset + c.size < 2 ^ 64) : c.offset + c.size ≤ bufSize cols := by
  unfold bufSize
  generalize 0 = m
  induction cols generalizing m with
  | nil => cases hc
  | cons c₀ cols ih =>
    rw [List.foldl_cons]
    rcases List.mem_cons.1 hc with rfl | hc
    · have hsize : sizeT (c.offset + c.size) = c.offset + c.size := Nat.mod_eq_of_lt hlt
      rw [hsize]
      exact (le_max_right _ _).trans (le_foldl_max ..)
    · exact ih hc _

/-! ## Which schemas are safe -/

/-- The loop gets past a column: it is bound, or it may be NULL and is. -/
def Passed (nullMap : Option Mem) (i : ℕ) (c : SqlRDBColumnDef) : Prop :=
  if nullBitGet nullMap i then c.nullable = true else c.type.unknown = false

theorem mem_rowReads_iff {row : Mem} {nullMap : Option Mem} {cols : List SqlRDBColumnDef}
    {i b : ℕ} :
    b ∈ rowReads row nullMap i cols ↔ ∃ j c, cols[j]? = some c ∧
      nullBitGet nullMap (i + j) = false ∧ b ∈ bindReads row c ∧
        ∀ j' c', j' < j → cols[j']? = some c' → Passed nullMap (i + j') c' := by
  induction cols generalizing i with
  | nil => simp [rowReads]
  | cons c cols ih =>
    -- what is read after the first column
    have hrest : b ∈ rowReads row nullMap (i + 1) cols ∧ Passed nullMap i c ↔
        ∃ j c', (c :: cols)[j + 1]? = some c' ∧ nullBitGet nullMap (i + (j + 1)) = false ∧
          b ∈ bindReads row c' ∧ ∀ j' c'', j' < j + 1 → (c :: cols)[j']? = some c'' →
            Passed nullMap (i + j') c'' := by
      rw [ih]
      constructor
      · rintro ⟨⟨j, c', hj, hbit, hb, hpass⟩, hc⟩
        refine ⟨j, c', hj, by rwa [show i + (j + 1) = i + 1 + j by omega], hb, ?_⟩
        rintro (_ | j') c'' hlt hj'
        · obtain rfl : c = c'' := by simpa using hj'
          exact hc
        · rw [show i + (j' + 1) = i + 1 + j' by omega]
          exact hpass j' c'' (by omega) hj'
      · rintro ⟨j, c', hj, hbit, hb, hpass⟩
        refine ⟨⟨j, c', hj, by rwa [show i + 1 + j = i + (j + 1) by omega], hb, ?_⟩,
          hpass 0 c (by omega) rfl⟩
        intro j' c'' hlt hj'
        rw [show i + 1 + j' = i + (j' + 1) by omega]
        exact hpass (j' + 1) c'' (by omega) hj'
    have hfirst : (∃ j c', (c :: cols)[j]? = some c' ∧ nullBitGet nullMap (i + j) = false ∧
        b ∈ bindReads row c' ∧ ∀ j' c'', j' < j → (c :: cols)[j']? = some c'' →
          Passed nullMap (i + j') c'') ↔
        (nullBitGet nullMap i = false ∧ b ∈ bindReads row c) ∨
          (b ∈ rowReads row nullMap (i + 1) cols ∧ Passed nullMap i c) := by
      rw [hrest]
      constructor
      · rintro ⟨_ | j, c', hj, hbit, hb, hpass⟩
        · obtain rfl : c = c' := by simpa using hj
          exact .inl ⟨hbit, hb⟩
        · exact .inr ⟨j, c', hj, hbit, hb, hpass⟩
      · rintro (⟨hbit, hb⟩ | ⟨j, c', hj, hbit, hb, hpass⟩)
        · exact ⟨0, c, rfl, hbit, hb, fun j' c'' hlt => absurd hlt (by omega)⟩
        · exact ⟨j + 1, c', hj, hbit, hb, hpass⟩
    rw [hfirst, rowReads, Passed]
    by_cases hbit : nullBitGet nullMap i = true
    · by_cases hnull : c.nullable = true <;> simp [hbit, hnull]
    · by_cases hty : c.type.unknown = true <;> simp [hbit, hty]

/-- The eight bytes of every REAL member belong to members, as far as they can be read, and end
within the temporary row. -/
structure RealsCovered (cols : List SqlRDBColumnDef) : Prop where
  stored : ∀ c ∈ cols, c.type = .real → c.offset + 8 ≤ bufSize cols
  bound : ∀ (i : ℕ) (c : SqlRDBColumnDef), cols[i]? = some c → c.type = .real →
    (∀ (j : ℕ) (c' : SqlRDBColumnDef), j < i → cols[j]? = some c' → c'.type.unknown = true →
      c'.nullable = true) →
      ∀ b ∈ Set.Ico c.offset (c.offset + 8), ∃ c' ∈ cols, b ∈ c'.range

/-- Only a REAL member is read beyond its size. -/
theorem mem_range_of_mem_bindReads {s : SqlRDBSchema} (hs : s.WellFormed) {c : SqlRDBColumnDef}
    (hc : c ∈ s.cols) (hty : c.type ≠ .real) {row : Mem} {b : ℕ} (hb : b ∈ bindReads row c) :
    b ∈ c.range := by
  unfold bindReads at hb
  unfold SqlRDBColumnDef.range
  cases h : c.type with
  | int32 => simpa [h, hs.int32_size c hc h] using hb
  | int64 => simpa [h, hs.int64_size c hc h] using hb
  | real => exact absurd h hty
  | text =>
    simp only [h, Set.mem_Ico] at hb
    exact ⟨hb.1, by omega⟩
  | blob => simpa [h] using hb
  | other v => simp [h] at hb

/-- Only a REAL member is written beyond its size. -/
theorem readReach_le {s : SqlRDBSchema} (hs : s.WellFormed) {c : SqlRDBColumnDef}
    (hc : c ∈ s.cols) (hty : c.type ≠ .real) : readReach c ≤ c.size := by
  unfold readReach
  cases h : c.type with
  | int32 => simp [hs.int32_size c hc h]
  | int64 => simp [hs.int64_size c hc h]
  | real => exact absurd h hty
  | text => simp
  | blob => simp
  | other v => simp

theorem overrun_storeCells_of_overrun (vals : ℕ → SqlValue) (cols : List SqlRDBColumnDef) (i : ℕ)
    {row : Buffer} (h : row.overrun = true) : (storeCells vals i cols row).overrun = true := by
  induction cols generalizing i row with
  | nil => exact h
  | cons c cols ih =>
    apply ih
    simp [Buffer.write, h]

/-- A value that does not fit into the buffer overruns it. -/
theorem overrun_storeCells {vals : ℕ → SqlValue} {cols : List SqlRDBColumnDef} {i j : ℕ}
    {c : SqlRDBColumnDef} (hj : cols[j]? = some c) (hne : cellBytes c (vals (i + j)) ≠ [])
    {row : Buffer} (hlt : row.size < c.offset + (cellBytes c (vals (i + j))).length) :
    (storeCells vals i cols row).overrun = true := by
  induction cols generalizing i j row with
  | nil => cases hj
  | cons c₀ cols ih =>
    rw [storeCells]
    cases j with
    | zero =>
      obtain rfl : c₀ = c := by simpa using hj
      apply overrun_storeCells_of_overrun
      rw [Nat.add_zero] at hne hlt
      simp [Buffer.write, hne, hlt]
    | succ j =>
      rw [show i + (j + 1) = i + 1 + j by omega] at hne hlt
      exact ih (by simpa using hj) hne hlt

/-- **The buffer sizes are right exactly if the doubles are covered.** For every schema that
registration accepts, without overflow: no row, and no driver, makes `c2sql_internal_tm_read_row`
write past the temporary row of `SqlRDBRead`, and every byte that `c2sql_internal_tm_bind_row` reads
belongs to a member, iff the eight bytes at every REAL member do. -/
theorem row_bounds_iff {schema : SqlRDBSchema} (hs : schema.Accepted)
    (hlt : ∀ c ∈ schema.cols, c.offset + c.size < 2 ^ 64) :
    ((∀ (σ : Type) (d : SqlRDBDriver σ) (stmt : StmtId) (nullMap : Option Mem) (s : σ),
        (internalTmReadRow d stmt schema ⟨bufSize schema.cols, fun _ => 0, false⟩
          nullMap s).1.2.1.overrun = false) ∧
      ∀ row nullMap, ∀ b ∈ rowReads row nullMap 0 schema.cols,
        ∃ c ∈ schema.cols, b ∈ c.range) ↔ RealsCovered schema.cols := by
  have hwf := (SqlRDBSchema.accepted_iff _).1 hs
  constructor
  · rintro ⟨hwrite, hread⟩
    constructor
    · -- a row with this double only
      intro c hc hty
      obtain ⟨i, hi⟩ := List.mem_iff_getElem?.1 hc
      let ps : ℕ → SqlValue := fun k => if k = i + 1 then .real 0 else .null
      have hholds : schema.HoldsRow (echoed ps) := by
        intro j c' hj
        by_cases hij : j = i
        · subst hij
          obtain rfl : c = c' := Option.some.inj (hi.symm.trans hj)
          simpa [echoed, ps, SqlRDBColumnDef.Holds] using hty
        · simp [echoed, ps, hij, SqlRDBColumnDef.Holds]
      have hrun := readRow_spec (delivers_echo 0 schema.cols.length ps) hholds
        ⟨bufSize schema.cols, fun _ => 0, false⟩ none rfl
      have hsafe := hwrite _ echo 0 none ps
      rw [hrun] at hsafe
      by_contra hlong
      have hcell : cellBytes c (echoed ps (0 + i)) = bytesOf (0 : BitVec 64) 8 := by
        simp [echoed, ps, cellBytes]
      have hover : (storeCells (echoed ps) 0 schema.cols
          ⟨bufSize schema.cols, fun _ => 0, false⟩).overrun = true :=
        overrun_storeCells hi (by rw [hcell]; decide)
          (by rw [hcell, length_bytesOf]; simpa using hlong)
      simp only [hover, Bool.true_eq_false] at hsafe
    · -- the columns that cannot be bound are NULL
      intro i c hi hty hpass b hb
      let vals : ℕ → SqlValue := fun j =>
        if ((schema.cols[j]?).map fun c => c.type.unknown) = some true then .null else .int 0
      let nullMap := markNulls vals 0 schema.cols (some fun _ => 0)
      have hbits : ∀ j c', schema.cols[j]? = some c' →
          (nullBitGet nullMap j = true ↔ c'.type.unknown = true) := by
        intro j c' hj
        obtain ⟨hlen, rfl⟩ := List.getElem?_eq_some_iff.1 hj
        rw [nullBitGet_markNulls]
        simp [vals, nullBitGet, hlen]
      refine hread (fun _ => 0) nullMap b (mem_rowReads_iff.2 ⟨i, c, hi, ?_, ?_, ?_⟩)
      · rw [Nat.zero_add, Bool.eq_false_iff, Ne, hbits i c hi, hty]
        simp [SqlRDBType.unknown]
      · simpa [bindReads, hty] using hb
      · intro j c' hlt hj
        rw [Nat.zero_add, Passed]
        split_ifs with hbit
        · exact hpass j c' hlt hj ((hbits j c' hj).1 hbit)
        · rwa [hbits j c' hj, Bool.not_eq_true] at hbit
  · intro hcov
    constructor
    · intro σ d stmt nullMap s
      have hinit : (⟨bufSize schema.cols, fun _ => 0, false⟩ : Buffer).size =
          bufSize schema.cols ∧ false = false := ⟨rfl, rfl⟩
      refine readRowFrom_bounds d stmt (fun c hc => ?_) 0 false hinit nullMap s
      by_cases hty : c.type = .real
      · have hreach : readReach c = 8 := by simp [readReach, hty]
        rw [hreach]
        exact hcov.stored c hc hty
      · have hreach := readReach_le hwf hc hty
        have hsize := le_bufSize hc (hlt c hc)
        omega
    · intro row nullMap b hb
      obtain ⟨j, c, hj, -, hb, hpass⟩ := mem_rowReads_iff.1 hb
      by_cases hty : c.type = .real
      · refine hcov.bound j c hj hty (fun j' c' hlt hj' hun => ?_) b
          (by simpa [bindReads, hty] using hb)
        have := hpass j' c' hlt hj'
        rw [Passed] at this
        split_ifs at this
        · exact this
        · rw [hun] at this
          cases this
      · exact ⟨c, List.mem_of_getElem? hj,
          mem_range_of_mem_bindReads hwf (List.mem_of_getElem? hj) hty hb⟩

/-- The sample struct. -/
theorem row_bounds_sample :
    RealsCovered personsSchema.cols ∧
      ∀ row nullMap, ∀ b ∈ rowReads row nullMap 0 personsSchema.cols,
        ∃ c ∈ personsSchema.cols, b ∈ c.range := by
  have hcov : RealsCovered personsSchema.cols := by
    constructor
    · decide
    · rintro i c hi hty - b hb
      have hmem := List.mem_of_getElem? hi
      refine ⟨c, hmem, ?_⟩
      rwa [SqlRDBColumnDef.range, personsSchema_laidOut.real_size c hmem hty]
  exact ⟨hcov, ((row_bounds_iff personsSchema_accepted (by decide)).2 hcov).2⟩

/-- A REAL column of four bytes, which registration accepts: eight bytes are written to a temporary
row of four, and eight bytes are read from the struct. -/
theorem short_real_overruns :
    let s : SqlRDBSchema := ⟨lit "points", [⟨lit "x", .real, 0, 4, 0⟩], none⟩
    s.Accepted ∧ bufSize s.cols = 4 ∧
      (internalTmReadRow echo 0 s ⟨bufSize s.cols, fun _ => 0, false⟩ none
        fun _ => .real 0).1.2.1.overrun = true ∧
      7 ∈ rowReads (fun _ => 0) none 0 s.cols ∧ ¬∃ c ∈ s.cols, 7 ∈ c.range := by
  intro s
  have hacc : s.Accepted :=
    ⟨[], some (lit "points"), some [some ⟨lit "x", .real, 0, 4, 0⟩], by decide +kernel⟩
  refine ⟨hacc, by decide, by decide +kernel, ?_, ?_⟩
  · simp [s, rowReads, bindReads, nullBitGet]
  · simp [s, SqlRDBColumnDef.range]

end C2Sql
