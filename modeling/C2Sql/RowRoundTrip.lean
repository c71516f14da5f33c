import C2Sql.RowImage

/-!
# Reading a row that was bound

What `c2sql_internal_tm_bind_row` takes from a struct, for any driver that keeps what is bound
(`Records`), and what comes back from a statement that delivers these values.

* `bindRow_spec`: every member is bound to its value (`rowValue`);
* `readRow_bindRow_iff`: a row that was bound is read back, as long as its strings have at most
  `INT_MAX` bytes.
-/

namespace C2Sql

open StateLogic

variable {σ τ : Type}

/-! ## Binding a row -/

/-- In the states `I`, binding one of the first `n` parameters of a statement succeeds, and the
values bound so far are `bound`. -/
def Records (d : SqlRDBDriver σ) (stmt : StmtId) (n : ℕ) (bound : σ → ℕ → SqlValue)
    (I : σ → Prop) : Prop :=
  ∀ i < n, ∀ v s, I s → wp (d.bind stmt (i + 1 : ℕ) v)
    (fun r s' => r = .ok ∧ bound s' = Function.update (bound s) i v ∧ I s') s

/-- The value of the `i`-th column of a row. -/
def rowValue (row : Mem) (nullMap : Option Mem) (i : ℕ) (c : SqlRDBColumnDef) : SqlValue :=
  if nullBitGet nullMap i then .null else (boundValue c row).getD .null

/-- The bits of a bitmap are on NULLABLE columns. -/
def NullsAllowed (cols : List SqlRDBColumnDef) (nullMap : Option Mem) : Prop :=
  ∀ i, nullBitGet nullMap i = true → ∃ c, cols[i]? = some c ∧ c.nullable = true

section Binding

variable {d : SqlRDBDriver σ} {stmt : StmtId} {n : ℕ} {bound : σ → ℕ → SqlValue} {I : σ → Prop}
  {row : Mem} {nullMap : Option Mem}

theorem exists_boundValue {c : SqlRDBColumnDef} (h : ∀ v, c.type ≠ .other v) (row : Mem) :
    ∃ v, boundValue c row = some v := by
  rw [boundValue]
  cases hc : c.type with
  | other v => exact absurd hc (h v)
  | int32 => exact ⟨_, rfl⟩
  | int64 => exact ⟨_, rfl⟩
  | real => exact ⟨_, rfl⟩
  | text => exact ⟨_, rfl⟩
  | blob => exact ⟨_, rfl⟩

/-- The loop of `c2sql_internal_tm_bind_row`, from the `i`-th column on. -/
theorem bindRowFrom_spec (hrec : Records d stmt n bound I) (cols : List SqlRDBColumnDef) {i : ℕ}
    (hn : i + cols.length ≤ n) (htype : ∀ c ∈ cols, ∀ v, c.type ≠ .other v)
    (hnull : ∀ j (c : SqlRDBColumnDef), cols[j]? = some c → nullBitGet nullMap (i + j) = true →
      c.nullable = true) {s : σ} (hI : I s) :
    wp (bindRowFrom d stmt row nullMap i cols) (fun r s' => r = .ok ∧
      ∀ j (c : SqlRDBColumnDef), (j < i → bound s' j = bound s j) ∧
        (cols[j]? = some c → bound s' (i + j) = rowValue row nullMap (i + j) c)) s := by
  induction cols generalizing i s with
  | nil => exact ⟨rfl, fun j c => ⟨fun _ => rfl, fun h => by cases h⟩⟩
  | cons c cols ih =>
    rw [List.length_cons] at hn
    -- one column is bound to its value
    have hone : ∀ v, v = rowValue row nullMap i c →
        wp (d.bind stmt (i + 1 : ℕ) v) (fun r s₁ =>
          wp (if r ≠ .ok then pure r else bindRowFrom d stmt row nullMap (i + 1) cols)
            (fun r s' => r = .ok ∧ ∀ j (c' : SqlRDBColumnDef), (j < i → bound s' j = bound s j) ∧
              ((c :: cols)[j]? = some c' → bound s' (i + j) = rowValue row nullMap (i + j) c')) s₁)
          s := by
      intro v hv
      refine wp_mono (hrec i (by omega) v s hI) ?_
      rintro _ s₁ ⟨rfl, hbound, hI₁⟩
      simp only [ne_eq, not_true_eq_false, if_false]
      refine wp_mono (ih (i := i + 1) (by omega) (fun c' hc' => htype c' (by simp [hc']))
        (fun j c' hj hbit => ?_) hI₁) ?_
      · exact hnull (j + 1) c' hj (by rwa [show i + (j + 1) = i + 1 + j by omega])
      · rintro r s' ⟨rfl, hrest⟩
        refine ⟨rfl, fun j c' => ⟨fun hj => ?_, fun hj => ?_⟩⟩
        · rw [(hrest j c').1 (by omega), hbound, Function.update_of_ne (by omega)]
        · cases j with
          | zero =>
            obtain rfl : c = c' := by simpa using hj
            rw [Nat.add_zero, (hrest i c).1 (by omega), hbound, Function.update_self, hv]
          | succ j =>
            rw [show i + (j + 1) = i + 1 + j by omega]
            exact (hrest j c').2 (by simpa using hj)
    rw [bindRowFrom]
    by_cases hbit : nullBitGet nullMap i = true
    · have hc : c.nullable = true := hnull 0 c rfl hbit
      rw [if_pos hbit, if_neg (by simp [hc]), wp_bind]
      exact hone .null (by rw [rowValue, if_pos hbit])
    · obtain ⟨v, hv⟩ := exists_boundValue (htype c (by simp)) row
      rw [if_neg hbit, wp_bind, bindOne, hv]
      exact hone v (by rw [rowValue, if_neg hbit, hv, Option.getD_some])

/-- **What `c2sql_internal_tm_bind_row` binds for a row.** -/
theorem bindRow_spec {schema : SqlRDBSchema} (hrec : Records d stmt schema.cols.length bound I)
    (hl : schema.LaidOut) (hnull : NullsAllowed schema.cols nullMap) {s : σ} (hI : I s) :
    wp (internalTmBindRow d stmt schema row nullMap) (fun r s' => r = .ok ∧
      ∀ i c, schema.cols[i]? = some c → bound s' i = rowValue row nullMap i c) s := by
  refine wp_mono (bindRowFrom_spec hrec schema.cols (Nat.zero_add _).le hl.type_known
    (fun j c hj hbit => ?_) hI) ?_
  · rw [Nat.zero_add] at hbit
    obtain ⟨c', hc', hn⟩ := hnull j hbit
    obtain rfl : c = c' := Option.some.inj (hj.symm.trans hc')
    exact hn
  · rintro r s' ⟨rfl, h⟩
    exact ⟨rfl, fun i c hi => by simpa using (h i c).2 hi⟩

end Binding

/-! ## A row that was bound is read back -/

section RoundTrip

variable {row : Mem} {nullMap : Option Mem}

theorem boundValue_holds {c : SqlRDBColumnDef} {v : SqlValue} (h : boundValue c row = some v) :
    c.Holds v := by
  rw [boundValue] at h
  cases hc : c.type with
  | other n => simp [hc] at h
  | int32 => simp only [hc, Option.some.injEq] at h; exact h ▸ .inl hc
  | int64 => simp only [hc, Option.some.injEq] at h; exact h ▸ .inr hc
  | real => simp only [hc, Option.some.injEq] at h; exact h ▸ hc
  | text => simp only [hc, Option.some.injEq] at h; exact h ▸ hc
  | blob => simp only [hc, Option.some.injEq] at h; exact h ▸ hc

theorem rowValue_holds (i : ℕ) (c : SqlRDBColumnDef) : c.Holds (rowValue row nullMap i c) := by
  rw [rowValue]
  split_ifs
  · trivial
  · cases h : boundValue c row with
    | none => trivial
    | some v => exact boundValue_holds h

/-- The value that is bound for a TEXT member. -/
theorem rowValue_text {i : ℕ} {c : SqlRDBColumnDef} (hbit : nullBitGet nullMap i = false)
    (hc : c.type = .text) : rowValue row nullMap i c =
      .text (row.read c.offset (min (boundedStrlen row c.offset c.size) intMax)) := by
  simp [rowValue, hbit, boundValue, hc]

/-- What is bound for a member other than a text has the bytes of the member. -/
theorem cellBytes_rowValue {s : SqlRDBSchema} (hs : s.WellFormed) (hl : s.LaidOut) {i : ℕ}
    {c : SqlRDBColumnDef} (hc : c ∈ s.cols) (hbit : nullBitGet nullMap i = false)
    (htext : c.type ≠ .text) :
    cellBytes c (rowValue row nullMap i c) = row.read c.offset c.size := by
  have hword : ∀ {w n : ℕ}, 8 * n = w →
      bytesOf (ofBytes w (row.read c.offset n)) n = row.read c.offset n := fun {w n} h => by
    have hbytes : 8 * (row.read c.offset n).length = w := by rw [Mem.length_read, h]
    have hword := bytesOf_ofBytes hbytes
    rwa [Mem.length_read] at hword
  simp only [rowValue, hbit, Bool.false_eq_true, if_false, boundValue]
  cases hty : c.type with
  | other v => exact absurd hty (hl.type_known c hc v)
  | text => exact absurd hty htext
  | int32 => simp [cellBytes, hty, setWidth_signExtend, hword, hs.int32_size c hc hty]
  | int64 => simp [cellBytes, hty, hword, hs.int64_size c hc hty]
  | real => simp [cellBytes, hword, hl.real_size c hc hty]
  | blob => simp [cellBytes, Mem.take_read]

/-- What is bound for a text with an end is stored with a NUL. -/
theorem cellBytes_text {c : SqlRDBColumnDef} (hzero : 0 ∈ row.read c.offset c.size) :
    cellBytes c (.text (row.read c.offset (min (boundedStrlen row c.offset c.size) intMax))) =
      row.read c.offset (min (boundedStrlen row c.offset c.size) intMax) ++ [0] := by
  have hlt := (eq_zero_at_boundedStrlen hzero).1
  rw [cellBytes, if_neg (by omega), List.take_of_length_le (by rw [Mem.length_read]; omega)]

/-- No value of a row with ended strings is cut. -/
theorem cellCut_rowValue {i : ℕ} {c : SqlRDBColumnDef}
    (hzero : c.type = .text → 0 ∈ row.read c.offset c.size) :
    cellCut c (rowValue row nullMap i c) = false := by
  rw [rowValue]
  split_ifs
  · rfl
  · rw [boundValue]
    cases hty : c.type with
    | other v => rfl
    | int32 =>
      have hlo := BitVec.le_toInt (ofBytes 32 (row.read c.offset 4))
      have hhi := BitVec.toInt_lt (x := ofBytes 32 (row.read c.offset 4))
      simp only [Option.getD_some, cellCut, toInt_signExtend, decide_eq_false_iff_not]
      omega
    | int64 => simp [cellCut, hty]
    | real => rfl
    | text =>
      have hlt := (eq_zero_at_boundedStrlen (hzero hty)).1
      simp only [Option.getD_some, cellCut, Mem.length_read, decide_eq_false_iff_not]
      omega
    | blob => simp [cellCut]

/-- A destination after a row has been read back: the members of the source, the bytes it had
before at the NULL members, and the bitmap of the source. -/
structure Restored (s : SqlRDBSchema) (row : Mem) (nullMap : Option Mem) (dst : Buffer)
    (res : SqlRDBResult × Buffer × Option Mem) : Prop where
  code : res.1 = .ok
  member : ∀ i c, s.cols[i]? = some c → nullBitGet nullMap i = false → c.type ≠ .text →
    res.2.1.data.read c.offset c.size = row.read c.offset c.size
  text : ∀ i c, s.cols[i]? = some c → nullBitGet nullMap i = false → c.type = .text →
    res.2.1.data.read c.offset (boundedStrlen row c.offset c.size + 1) =
      row.read c.offset (boundedStrlen row c.offset c.size + 1)
  null : ∀ i c, s.cols[i]? = some c → nullBitGet nullMap i = true →
    res.2.1.data.read c.offset c.size = dst.data.read c.offset c.size
  bits : ∀ j, nullBitGet res.2.2 j = nullBitGet nullMap j

/-- The strings of a row can be counted in an `int`. -/
def StringsFit (s : SqlRDBSchema) (row : Mem) (nullMap : Option Mem) : Prop :=
  ∀ i c, s.cols[i]? = some c → nullBitGet nullMap i = false → c.type = .text →
    boundedStrlen row c.offset c.size ≤ intMax

theorem restored_iff {s : SqlRDBSchema} (hs : s.WellFormed) (hl : s.LaidOut)
    (hzero : ∀ c ∈ s.cols, c.type = .text → 0 ∈ row.read c.offset c.size)
    (hnull : NullsAllowed s.cols nullMap) {vals : ℕ → SqlValue}
    (hvals : ∀ i c, s.cols[i]? = some c → vals i = rowValue row nullMap i c) (dst : Buffer) :
    Restored s row nullMap dst (if cellsCut vals 0 s.cols then .warnTruncated else .ok,
        storeCells vals 0 s.cols dst, markNulls vals 0 s.cols (some fun _ => 0)) ↔
      StringsFit s row nullMap := by
  have hholds : s.HoldsRow vals := fun i c hi => hvals i c hi ▸ rowValue_holds i c
  have hmember := @storeCells_member vals s hs hl hholds dst
  constructor
  · -- the byte after a string that was cut is a NUL, and the source has none there
    intro h i c hi hbit hc
    by_contra hlong
    have hlt := (eq_zero_at_boundedStrlen (hzero c (List.mem_of_getElem? hi) hc)).1
    have hbyte := Mem.read_eq_iff.1 (h.text i c hi hbit hc) intMax (by omega)
    rw [hmember hi (by omega), hvals i c hi, rowValue_text hbit hc,
      cellBytes_text (hzero c (List.mem_of_getElem? hi) hc), Nat.min_eq_right (by omega),
      List.getElem?_append_right (by simp)] at hbyte
    refine ne_zero_of_lt_boundedStrlen (not_le.1 hlong) (hbyte.symm.trans ?_)
    simp
  · intro hfit
    refine ⟨?_, ?_, ?_, ?_, ?_⟩
    · have hcut : cellsCut vals 0 s.cols ≠ true := by
        rw [Ne, cellsCut_eq_true_iff]
        rintro ⟨j, c, hj, hcut⟩
        rw [Nat.zero_add, hvals j c hj,
          cellCut_rowValue (hzero c (List.mem_of_getElem? hj))] at hcut
        cases hcut
      simp [hcut]
    · intro i c hi hbit htext
      refine Mem.read_eq_iff.2 fun k hk => ?_
      rw [hmember hi hk, hvals i c hi,
        cellBytes_rowValue hs hl (List.mem_of_getElem? hi) hbit htext, Mem.getElem?_read _ _ _ hk]
      rfl
    · intro i c hi hbit htext
      obtain ⟨hlt, hend⟩ := eq_zero_at_boundedStrlen (hzero c (List.mem_of_getElem? hi) htext)
      refine Mem.read_eq_iff.2 fun k hk => ?_
      rw [hmember hi (by omega), hvals i c hi, rowValue_text hbit htext,
        cellBytes_text (hzero c (List.mem_of_getElem? hi) htext),
        Nat.min_eq_left (hfit i c hi hbit htext)]
      rcases Nat.lt_succ_iff_lt_or_eq.1 hk with hk | rfl
      · rw [List.getElem?_append_left (by simpa using hk), Mem.getElem?_read _ _ _ hk]
        rfl
      · rw [List.getElem?_append_right (by simp), hend]
        simp
    · intro i c hi hbit
      refine Mem.read_eq_iff.2 fun k hk => ?_
      rw [hmember hi hk, hvals i c hi, rowValue, if_pos hbit]
      rfl
    · intro j
      rw [Bool.eq_iff_iff, nullBitGet_markNulls]
      have hzeroMap : nullBitGet (some fun _ => 0) j = false := by simp [nullBitGet]
      simp only [hzeroMap, Bool.false_eq_true, Option.isSome_some, zero_le, zero_add, true_and,
        false_or]
      constructor
      · rintro ⟨hj, hv⟩
        by_contra hbit
        have hget := List.getElem?_eq_getElem hj
        obtain ⟨v, hv'⟩ := exists_boundValue (hl.type_known _ (List.getElem_mem hj)) row
        rw [hvals j _ hget, rowValue, if_neg hbit, hv', Option.getD_some] at hv
        subst hv
        simp only [boundValue] at hv'
        split at hv' <;> simp at hv'
      · intro hbit
        obtain ⟨c, hc, -⟩ := hnull j hbit
        exact ⟨(List.getElem?_eq_some_iff.1 hc).1, by rw [hvals j c hc, rowValue, if_pos hbit]⟩

end RoundTrip

/-- **A row that was bound is read back exactly if its strings can be counted in an `int`.** The
values that were bound come back from any statement that delivers them. -/
theorem readRow_bindRow_iff {d : SqlRDBDriver σ} {ins : StmtId} {schema : SqlRDBSchema}
    (hs : schema.Accepted) (hl : schema.LaidOut) {row : Mem} {nullMap : Option Mem}
    (hzero : ∀ c ∈ schema.cols, c.type = .text → 0 ∈ row.read c.offset c.size)
    (hnull : NullsAllowed schema.cols nullMap) {bound : σ → ℕ → SqlValue} {I : σ → Prop}
    (hrec : Records d ins schema.cols.length bound I) {s : σ} (hI : I s)
    {d' : SqlRDBDriver τ} {sel : StmtId} {J : τ → Prop}
    (hdel : Delivers d' sel schema.cols.length
      (bound (internalTmBindRow d ins schema row nullMap s).2) J) {t : τ} (hJ : J t)
    (dst : Buffer) :
    ((internalTmBindRow d ins schema row nullMap s).1 = .ok ∧
      Restored schema row nullMap dst
        (internalTmReadRow d' sel schema dst (some fun _ => 0) t).1) ↔
      StringsFit schema row nullMap := by
  obtain ⟨hok, hvals⟩ : (internalTmBindRow d ins schema row nullMap s).1 = .ok ∧ _ :=
    bindRow_spec hrec hl hnull hI
  have hholds : schema.HoldsRow (bound (internalTmBindRow d ins schema row nullMap s).2) :=
    fun i c hi => hvals i c hi ▸ rowValue_holds i c
  rw [readRow_spec hdel hholds dst _ hJ,
    restored_iff ((SqlRDBSchema.accepted_iff _).1 hs) hl hzero hnull hvals dst]
  exact and_iff_right hok

/-! ## Samples -/

theorem records_echo (stmt : StmtId) (n : ℕ) : Records echo stmt n echoed fun _ => True := by
  refine fun i _ v ps _ => ⟨rfl, ?_, trivial⟩
  funext j
  simp only [echo, echoed, Int.toNat_natCast, Function.update_apply, Nat.add_right_cancel_iff]

/-- The row `{7, "AB", NULL}` of the sample struct. -/
theorem readRow_bindRow_sample :
    let row : Mem := fun i => if i = 0 then 7 else if i = 4 then 65 else if i = 5 then 66 else 0
    let map : Option Mem := some fun i => if i = 0 then 4 else 0
    let bound := internalTmBindRow echo 0 personsSchema row map fun _ => .null
    StringsFit personsSchema row map ∧ bound.1 = .ok ∧
      Restored personsSchema row map ⟨48, fun _ => 9, false⟩
        (internalTmReadRow echo 0 personsSchema ⟨48, fun _ => 9, false⟩ (some fun _ => 0)
          bound.2).1 := by
  intro row map bound
  have hfit : StringsFit personsSchema row map := by
    rintro i c hi - hc
    refine (boundedStrlen_le ..).trans ?_
    rcases i with _ | _ | _ | i
    · obtain rfl := Option.some.inj hi
      cases hc
    · obtain rfl := Option.some.inj hi
      decide
    · obtain rfl := Option.some.inj hi
      cases hc
    · cases hi
  have hnull : NullsAllowed personsSchema.cols map := by
    intro i hi
    simp only [map, nullBitGet] at hi
    split_ifs at hi with h0
    · have hlt : i < 8 := by omega
      interval_cases i <;> first | exact ⟨_, rfl, by decide⟩ | exact absurd hi (by decide)
    · simp at hi
  exact ⟨hfit, (readRow_bindRow_iff personsSchema_accepted personsSchema_laidOut (by decide) hnull
    (records_echo 0 _) trivial (delivers_echo 0 _ bound.2) rfl ⟨48, fun _ => 9, false⟩).2 hfit⟩

/-- A string of `n` bytes. -/
def longString (n : ℕ) : Mem := fun i => if i < n then 65 else 0

theorem zero_mem_longString (n : ℕ) : 0 ∈ (longString n).read 0 (n + 1) :=
  List.mem_iff_getElem?.2 ⟨n, by rw [Mem.getElem?_read _ _ _ (by omega)]; simp [longString]⟩

theorem boundedStrlen_longString (n : ℕ) : boundedStrlen (longString n) 0 (n + 1) = n := by
  obtain ⟨hlt, hend⟩ := eq_zero_at_boundedStrlen (zero_mem_longString n)
  by_contra hne
  rw [Nat.zero_add, longString, if_pos (by omega)] at hend
  cases hend

/-- A string of `2 ^ 31` bytes in a member with room for its NUL: its last byte is lost, and both
calls report success. -/
theorem long_text_cut :
    let c : SqlRDBColumnDef := ⟨lit "note", .text, 0, 2 ^ 31 + 1, 0⟩
    let s : SqlRDBSchema := ⟨lit "notes", [c], none⟩
    let row := longString (2 ^ 31)
    let bound := internalTmBindRow echo 0 s row none fun _ => .null
    let res := (internalTmReadRow echo 0 s ⟨2 ^ 31 + 1, fun _ => 9, false⟩ (some fun _ => 0)
      bound.2).1
    s.Accepted ∧ s.LaidOut ∧ 0 ∈ row.read c.offset c.size ∧ bound.1 = .ok ∧ res.1 = .ok ∧
      row (2 ^ 31 - 1) = 65 ∧ res.2.1.data (2 ^ 31 - 1) = 0 := by
  intro c s row bound res
  have hacc : s.Accepted := ⟨[], some (lit "notes"), some [some c], by decide +kernel⟩
  have hl : s.LaidOut := by
    refine ⟨?_, ?_, ?_⟩ <;> simp [s, c]
  have hzero := zero_mem_longString (2 ^ 31)
  obtain ⟨hok, hvals⟩ : bound.1 = .ok ∧ _ :=
    bindRow_spec (records_echo 0 s.cols.length) hl (fun _ h => by cases h) trivial
  have hv : echoed bound.2 0 = .text (row.read 0 intMax) := by
    rw [hvals 0 c rfl, rowValue_text rfl rfl, boundedStrlen_longString]
    rfl
  have hholds : s.HoldsRow (echoed bound.2) := fun i c hi => hvals i c hi ▸ rowValue_holds i c
  have hres := readRow_spec (delivers_echo 0 s.cols.length bound.2) hholds
    ⟨2 ^ 31 + 1, fun _ => 9, false⟩ (some fun _ => 0) rfl
  have hcut : cellsCut (echoed bound.2) 0 s.cols = false := by
    simp only [s, cellsCut, hv, cellCut, Mem.length_read, Bool.or_false, decide_eq_false_iff_not]
    decide
  have hbyte := storeCells_member ((SqlRDBSchema.accepted_iff s).1 hacc) hl hholds
    ⟨2 ^ 31 + 1, fun _ => 9, false⟩ (i := 0) (k := intMax) (c := c) rfl (by decide)
  refine ⟨hacc, hl, hzero, hok, ?_, ?_, ?_⟩
  · rw [show res = _ from hres, hcut]
    rfl
  · simp [row, longString]
  · have hcell : cellBytes c (echoed bound.2 0) = row.read 0 intMax ++ [0] := by
      rw [hv, cellBytes, if_neg (by simp [c]), List.take_of_length_le (by simp [c, intMax])]
    rw [hcell, List.getElem?_append_right (by simp)] at hbyte
    rw [show res = _ from hres]
    simpa [c, intMax] using hbyte

end C2Sql
