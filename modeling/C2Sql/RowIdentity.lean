import C2Sql.BlobFields
import C2Sql.Iteration
import C2Sql.ReadCalls
import C2Sql.RowBounds

/-!
# Which row `SqlRDBRead` returns

`SqlRDBRead` on an engine of tables: the number of rows that match decides whether it returns one,
and what the caller's memory holds afterwards is that row, decoded by the types of the columns.

* `decodedCell`: the value of a cell as the type of its column reads it;
* `readCells_eq`: what reading a row stores;
* `ReadsRow`: the contract of `SqlRDBRead`;
* `read_row_identity`: it holds.
-/

namespace C2Sql

open SqlText StateLogic

variable {Db : Type} {dialect : C2SqlDialect} {e : Engine Db}

/-! ## Decoding -/

/-- The value of a cell as the type of its column reads it. -/
def decodedCell (dialect : C2SqlDialect) (e : Engine Db) (c : SqlRDBColumnDef) (v : SqlValue) :
    SqlValue :=
  if v = .null then .null
  else match c.type with
    | .int32 => .int (e.toInt64 v)
    | .int64 => .int (e.toInt64 v)
    | .real => .real (e.toReal v)
    | .text => .text ((columnText dialect e v).getD [])
    | .blob => .blob ((columnBlob e v).getD [])
    | .other _ => v

theorem decodedCell_null (c : SqlRDBColumnDef) : decodedCell dialect e c .null = .null :=
  if_pos rfl

theorem decodedCell_eq_null_iff {c : SqlRDBColumnDef} {v : SqlValue} :
    decodedCell dialect e c v = .null ↔ v = .null := by
  unfold decodedCell
  split_ifs with hv
  · simp [hv]
  · cases c.type <;> simp [hv]

theorem holds_decodedCell {c : SqlRDBColumnDef} (hc : c.type.unknown = false) (v : SqlValue) :
    c.Holds (decodedCell dialect e c v) := by
  unfold decodedCell
  split_ifs
  · trivial
  · cases ht : c.type <;> simp_all [SqlRDBColumnDef.Holds, SqlRDBType.unknown]

/-- What reading a cell stores. -/
theorem readCell_eq {c : SqlRDBColumnDef} (hc : c.type.unknown = false) {v : SqlValue}
    (hv : v ≠ .null) (row : Buffer) :
    readCell dialect e c v row =
      (if cellCut c (decodedCell dialect e c v) then .warnTruncated else .ok,
        row.write c.offset (cellBytes c (decodedCell dialect e c v))) := by
  rw [decodedCell, if_neg hv, readCell]
  cases ht : c.type with
  | int32 => simp [cellCut, cellBytes, ht]
  | int64 => simp [cellCut, cellBytes, ht]
  | real => simp [cellCut, cellBytes]
  | text =>
    by_cases hz : c.size = 0
    · simp [cellCut, cellBytes, hz]
    · have hcut : ∀ n, n > c.size - 1 ↔ c.size ≤ n := by omega
      simp [cellCut, cellBytes, hz, write_text, hcut]
  | blob =>
    simp [cellCut, cellBytes, take_min_length]
  | other n => simp [ht, SqlRDBType.unknown] at hc

/-- The columns up to the first that holds a value and has a type outside the enumeration, where
reading ends. -/
def readablePart (vals : ℕ → SqlValue) : ℕ → List SqlRDBColumnDef → List SqlRDBColumnDef
  | _, [] => []
  | i, c :: cs =>
    if vals i ≠ .null ∧ c.type.unknown = true then [] else c :: readablePart vals (i + 1) cs

/-- The result code of reading a row. -/
def readCode (vals vals' : ℕ → SqlValue) (i : ℕ) (cols : List SqlRDBColumnDef) (cut : Bool) :
    SqlRDBResult :=
  if (readablePart vals i cols).length < cols.length then .errInternal
  else if cut || cellsCut vals' i cols then .warnTruncated
  else .ok

/-- **What reading a row stores**, in terms of the decoded values. -/
theorem readCells_eq {vals vals' : ℕ → SqlValue} {cols : List SqlRDBColumnDef} {i : ℕ}
    (hvals : ∀ j (c : SqlRDBColumnDef), cols[j]? = some c →
      vals' (i + j) = decodedCell dialect e c (vals (i + j)))
    (cut : Bool) (row : Buffer) (nullMap : Option Mem) :
    readCells dialect e vals i cols cut row nullMap =
      (readCode vals vals' i cols cut, storeCells vals' i (readablePart vals i cols) row,
        markNulls vals' i (readablePart vals i cols) nullMap) := by
  induction cols generalizing i cut row nullMap with
  | nil => cases cut <;> rfl
  | cons c cols ih =>
    have hc : vals' i = decodedCell dialect e c (vals i) := hvals 0 c rfl
    have hrest : ∀ j (c' : SqlRDBColumnDef), cols[j]? = some c' →
        vals' (i + 1 + j) = decodedCell dialect e c' (vals (i + 1 + j)) := by
      intro j c' hj
      have h := hvals (j + 1) c' hj
      rwa [show i + (j + 1) = i + 1 + j by omega] at h
    rw [readCells]
    by_cases hv : vals i = .null
    · have hnull : vals' i = .null := by rw [hc, hv, decodedCell_null]
      rw [if_pos hv, ih hrest, readCode, readCode]
      simp [readablePart, hv, hnull, storeCells, markNulls, cellsCut, cellCut, cellBytes,
        Buffer.write_nil]
    · rw [if_neg hv]
      have hnull : vals' i ≠ .null := by rwa [hc, ne_eq, decodedCell_eq_null_iff]
      cases hu : c.type.unknown with
      | true =>
        obtain ⟨n, hn⟩ : ∃ n, c.type = .other n := by
          cases ht : c.type <;> simp_all [SqlRDBType.unknown]
        simp [readCell, hn, readablePart, hv, SqlRDBType.unknown, readCode, storeCells, markNulls]
      | false =>
        rw [readCell_eq hu hv, ← hc]
        dsimp only
        cases hcut : cellCut c (vals' i) with
        | true =>
          rw [if_pos rfl, if_pos rfl, ih hrest]
          simp [readablePart, hu, hnull, storeCells, markNulls, cellsCut, hcut, readCode]
        | false =>
          rw [if_neg Bool.false_ne_true, if_neg (by rintro ⟨⟩), if_neg (not_not.2 rfl), ih hrest]
          simp [readablePart, hu, hnull, storeCells, markNulls, cellsCut, hcut, readCode]

theorem readablePart_eq_self {cols : List SqlRDBColumnDef}
    (h : ∀ c ∈ cols, c.type.unknown = false) (vals : ℕ → SqlValue) (i : ℕ) :
    readablePart vals i cols = cols := by
  induction cols generalizing i with
  | nil => rfl
  | cons c cols ih =>
    have hc : c.type.unknown = false := h c List.mem_cons_self
    rw [readablePart, if_neg (by simp [hc]), ih fun c' hc' => h c' (List.mem_cons_of_mem _ hc')]

/-- The decoded values of a row of a result. -/
def decodedVals (dialect : C2SqlDialect) (e : Engine Db) (cols : List SqlRDBColumnDef)
    (cells : List SqlValue) (i : ℕ) : SqlValue :=
  match cols[i]? with
  | some c => decodedCell dialect e c (cellOf cells i)
  | none => .null

theorem decodedVals_eq {cols : List SqlRDBColumnDef} {i : ℕ} {c : SqlRDBColumnDef}
    (hi : cols[i]? = some c) (cells : List SqlValue) :
    decodedVals dialect e cols cells i = decodedCell dialect e c (cellOf cells i) := by
  rw [decodedVals, hi]

theorem SqlRDBSchema.LaidOut.known {schema : SqlRDBSchema} (hl : schema.LaidOut)
    {c : SqlRDBColumnDef} (hc : c ∈ schema.cols) : c.type.unknown = false := by
  cases ht : c.type with
  | other v => exact absurd ht (hl.type_known c hc v)
  | _ => rfl

theorem holdsRow_decodedVals {schema : SqlRDBSchema} (hl : schema.LaidOut)
    (cells : List SqlValue) :
    schema.HoldsRow (decodedVals dialect e schema.cols cells) := by
  intro i c hi
  rw [decodedVals_eq hi]
  exact holds_decodedCell (hl.known (List.mem_of_getElem? hi)) _

/-- What reading a row of a laid out schema stores. -/
theorem readCells_of_laidOut {schema : SqlRDBSchema} (hl : schema.LaidOut) (cells : List SqlValue)
    (row : Buffer) (nullMap : Option Mem) :
    let vals := decodedVals dialect e schema.cols cells
    readCells dialect e (cellOf cells) 0 schema.cols false row nullMap =
      (if cellsCut vals 0 schema.cols then .warnTruncated else .ok,
        storeCells vals 0 schema.cols row, markNulls vals 0 schema.cols nullMap) := by
  intro vals
  have hvals : ∀ j (c : SqlRDBColumnDef), schema.cols[j]? = some c →
      vals (0 + j) = decodedCell dialect e c (cellOf cells (0 + j)) := by
    intro j c hj
    rw [Nat.zero_add]
    exact decodedVals_eq hj cells
  rw [readCells_eq hvals, readCode, readablePart_eq_self fun c hc => hl.known hc,
    if_neg (lt_irrefl _)]
  simp

/-! ## The contract -/

section Contract

variable (dialect : C2SqlDialect) (sem : SqlSemantics) (schema : SqlRDBSchema)

/-- The memory holds the row: every column that is not NULL has its decoded value, and the null map
has got the bits of those that are. -/
structure HoldsTableRow (r : Row SqlValue) (nullMap : Option Mem) (out : Buffer)
    (outNull : Option Mem) : Prop where
  members : ∀ c ∈ schema.cols, ∀ v,
    v = decodedCell dialect (sqlEngine sem) c (r (sem.fold c.name)) → v ≠ .null →
      out.data.read c.offset (cellBytes c v).length = cellBytes c v
  map : outNull.isSome = nullMap.isSome
  nulls : ∀ j, nullBitGet outNull j = true ↔ nullBitGet nullMap j = true ∨
    nullMap.isSome = true ∧ ∃ c, schema.cols[j]? = some c ∧ r (sem.fold c.name) = .null

/-- The contract of `SqlRDBRead` for the rows that match. -/
structure ReadsRow (multi : Bool) (row : Buffer) (nullMap : Option Mem)
    (found : List (Row SqlValue)) (res : SqlRDBResult × ReadOut) : Prop where
  none_found : found = [] → res = (.errNotFound, ⟨some row, nullMap⟩)
  many_found : 2 ≤ found.length → multi = false →
    res = (.errMultipleRows, ⟨some row, nullMap⟩)
  first : ∀ r rest, found = r :: rest → rest = [] ∨ multi = true →
    ∃ out outNull, res = ((readCells dialect (sqlEngine sem) (cellOf (rowCells sem schema r)) 0
        schema.cols false row nullMap).1, ⟨some out, outNull⟩) ∧
      HoldsTableRow dialect sem schema r nullMap out outNull

variable {dialect sem schema}

theorem cellOf_rowCells {i : ℕ} {c : SqlRDBColumnDef} (hi : schema.cols[i]? = some c)
    (r : Row SqlValue) : cellOf (rowCells sem schema r) i = r (sem.fold c.name) := by
  rw [cellOf, rowCells, List.getElem?_map, hi]
  rfl

theorem Mem.read_eq_of_getElem {m : Mem} {off : ℕ} {bytes : List UInt8}
    (h : ∀ k b, bytes[k]? = some b → m (off + k) = b) : m.read off bytes.length = bytes := by
  refine List.ext_getElem? fun k => ?_
  by_cases hk : k < bytes.length
  · have hb := List.getElem?_eq_getElem hk
    rw [Mem.getElem?_read _ _ _ hk, hb, h k _ hb]
  · rw [List.getElem?_eq_none (by rw [Mem.length_read]; omega),
      List.getElem?_eq_none (by omega)]

/-- The bit of a column in the merged null map. -/
theorem nullBitGet_mergeNulls {n : ℕ} {nullMap tmp : Option Mem}
    (hsome : tmp.isSome = nullMap.isSome) (htmp : ∀ j, nullBitGet tmp j = true → j / 8 < n)
    (j : ℕ) :
    nullBitGet (mergeNulls n nullMap tmp) j = true ↔
      nullBitGet nullMap j = true ∨ nullBitGet tmp j = true := by
  rcases nullMap with _ | m
  · rcases tmp with _ | t
    · simp [mergeNulls, nullBitGet]
    · cases hsome
  · rcases tmp with _ | t
    · cases hsome
    · have ht := htmp j
      simp only [mergeNulls, nullBitGet, orBytes] at ht ⊢
      by_cases hj : j / 8 < n
      · simp [hj, Nat.testBit_or]
      · have hno : (t (j / 8)).toNat.testBit (j % 8) = false := by
          by_contra hset
          exact hj (ht (Bool.not_eq_false _ ▸ hset))
        simp [hj, hno]

theorem isSome_mergeNulls (n : ℕ) (nullMap tmp : Option Mem) :
    (mergeNulls n nullMap tmp).isSome = nullMap.isSome := by
  cases nullMap <;> cases tmp <;> rfl

theorem Mem.ext_bits {m m' : Mem}
    (h : ∀ j, nullBitGet (some m) j = true ↔ nullBitGet (some m') j = true) : m = m' := by
  funext p
  refine UInt8.toNat_inj.1 (Nat.eq_of_testBit_eq fun i => ?_)
  by_cases hi : i < 8
  · have hbit := h (8 * p + i)
    simp only [nullBitGet] at hbit
    rw [show (8 * p + i) / 8 = p by omega, show (8 * p + i) % 8 = i by omega] at hbit
    exact Bool.eq_iff_iff.2 hbit
  · have hlt : ∀ b : UInt8, b.toNat.testBit i = false := fun b =>
      Nat.testBit_lt_two_pow (lt_of_lt_of_le b.toNat_lt (Nat.pow_le_pow_right two_pos (by omega)))
    rw [hlt, hlt]

/-- Merging the bits of the row is setting them in the caller's null map. -/
theorem mergeNulls_markNulls (vals : ℕ → SqlValue) (cols : List SqlRDBColumnDef)
    (nullMap : Option Mem) :
    mergeNulls (nullBitmapBytes cols.length) nullMap
      (markNulls vals 0 cols (nullMap.map fun _ _ => 0)) = markNulls vals 0 cols nullMap := by
  have hsome : (nullMap.map fun _ => ((fun _ => 0) : Mem)).isSome = nullMap.isSome :=
    Option.isSome_map
  have hzero : ∀ k, nullBitGet (nullMap.map fun _ _ => 0) k ≠ true := by
    intro k
    cases nullMap <;> simp [nullBitGet]
  have hbits : ∀ j, nullBitGet (mergeNulls (nullBitmapBytes cols.length) nullMap
      (markNulls vals 0 cols (nullMap.map fun _ _ => 0))) j = true ↔
        nullBitGet (markNulls vals 0 cols nullMap) j = true := by
    intro j
    rw [nullBitGet_mergeNulls ((isSome_markNulls _).trans hsome)]
    · rw [nullBitGet_markNulls, nullBitGet_markNulls, or_iff_right (hzero j), hsome]
    · intro k hk
      rw [nullBitGet_markNulls, or_iff_right (hzero k)] at hk
      have hlen := hk.2.2.1
      rw [nullBitmapBytes]
      omega
  have hiff : (mergeNulls (nullBitmapBytes cols.length) nullMap (markNulls vals 0 cols
      (nullMap.map fun _ _ => 0))).isSome = (markNulls vals 0 cols nullMap).isSome :=
    (isSome_mergeNulls ..).trans (isSome_markNulls nullMap).symm
  generalize mergeNulls (nullBitmapBytes cols.length) nullMap
    (markNulls vals 0 cols (nullMap.map fun _ _ => 0)) = merged at hbits hiff
  generalize markNulls vals 0 cols nullMap = marked at hbits hiff ⊢
  cases merged <;> cases marked
  · rfl
  · cases hiff
  · cases hiff
  · exact congrArg some (Mem.ext_bits hbits)

section Memory

variable (hwf : schema.WellFormed) (hl : schema.LaidOut) (r : Row SqlValue)

/-- The decoded values of a row of the table. -/
abbrev rowVals (dialect : C2SqlDialect) (sem : SqlSemantics) (schema : SqlRDBSchema)
    (r : Row SqlValue) : ℕ → SqlValue :=
  decodedVals dialect (sqlEngine sem) schema.cols (rowCells sem schema r)

theorem rowVals_eq {i : ℕ} {c : SqlRDBColumnDef} (hi : schema.cols[i]? = some c) :
    rowVals dialect sem schema r i =
      decodedCell dialect (sqlEngine sem) c (r (sem.fold c.name)) := by
  rw [rowVals, decodedVals_eq hi, cellOf_rowCells hi]

theorem rowVals_eq_null_iff {j : ℕ} :
    j < schema.cols.length ∧ rowVals dialect sem schema r j = .null ↔
      ∃ c, schema.cols[j]? = some c ∧ r (sem.fold c.name) = .null := by
  constructor
  · rintro ⟨hj, hnull⟩
    have hc := List.getElem?_eq_getElem hj
    rw [rowVals_eq r hc, decodedCell_eq_null_iff] at hnull
    exact ⟨_, hc, hnull⟩
  · rintro ⟨c, hc, hnull⟩
    refine ⟨(List.getElem?_eq_some_iff.1 hc).1, ?_⟩
    rw [rowVals_eq r hc, decodedCell_eq_null_iff, hnull]

include hwf hl

/-- The bytes of a member are those of its value, as far as they go. -/
theorem storeCells_rowVals (row : Buffer) {c : SqlRDBColumnDef} (hc : c ∈ schema.cols) {k : ℕ}
    {b : UInt8} (hb : (cellBytes c (decodedCell dialect (sqlEngine sem) c
      (r (sem.fold c.name))))[k]? = some b) :
    (storeCells (rowVals dialect sem schema r) 0 schema.cols row).data (c.offset + k) = b ∧
      k < c.size := by
  obtain ⟨i, hi⟩ := List.mem_iff_getElem?.1 hc
  have hholds : schema.HoldsRow (rowVals dialect sem schema r) := holdsRow_decodedVals hl _
  have hcell : c.Holds (rowVals dialect sem schema r i) := hholds i c hi
  rw [rowVals_eq r hi] at hcell
  have hk : k < c.size :=
    lt_of_lt_of_le (List.getElem?_eq_some_iff.1 hb).1 (length_cellBytes_le hwf hl hc hcell)
  refine ⟨?_, hk⟩
  rw [storeCells_member hwf hl hholds row hi hk, rowVals_eq r hi, hb]
  rfl

/-- The row is in memory after it has been read into it. -/
theorem holdsTableRow_direct (row : Buffer) (nullMap : Option Mem) :
    HoldsTableRow dialect sem schema r nullMap
      (storeCells (rowVals dialect sem schema r) 0 schema.cols row)
      (markNulls (rowVals dialect sem schema r) 0 schema.cols nullMap) where
  members c hc v hv _ := by
    subst hv
    exact Mem.read_eq_of_getElem fun k b hb => (storeCells_rowVals hwf hl r row hc hb).1
  map := isSome_markNulls nullMap
  nulls j := by
    rw [nullBitGet_markNulls, Nat.zero_add, and_iff_right (Nat.zero_le j), rowVals_eq_null_iff]

/-- The row is in memory after the temporary row has been copied. -/
theorem holdsTableRow_buffered (hlt : ∀ c ∈ schema.cols, c.offset + c.size < 2 ^ 64) (row : Buffer)
    (nullMap : Option Mem) :
    HoldsTableRow dialect sem schema r nullMap
      (row.write 0 ((storeCells (rowVals dialect sem schema r) 0 schema.cols
        (zeroRow schema)).data.read 0 (bufSize schema.cols)))
      (mergeNulls (nullBitmapBytes schema.cols.length) nullMap
        (markNulls (rowVals dialect sem schema r) 0 schema.cols (nullMap.map fun _ _ => 0))) where
  members c hc v hv _ := by
    subst hv
    refine Mem.read_eq_of_getElem fun k b hb => ?_
    obtain ⟨hbyte, hk⟩ := storeCells_rowVals hwf hl r (zeroRow schema) hc hb
    have hin : c.offset + k < bufSize schema.cols := by
      have hle := le_bufSize hc (hlt c hc)
      omega
    have hcopy := row.write_add 0 ((storeCells (rowVals dialect sem schema r) 0 schema.cols
      (zeroRow schema)).data.read 0 (bufSize schema.cols)) (c.offset + k)
    rw [Nat.zero_add, Mem.getElem?_read _ _ _ hin, Nat.zero_add, hbyte] at hcopy
    exact hcopy
  map := by
    rw [mergeNulls_markNulls]
    exact isSome_markNulls nullMap
  nulls j := by
    rw [mergeNulls_markNulls]
    exact (holdsTableRow_direct hwf hl r row nullMap).nulls j

/-- The replies to the rows that match meet the contract. -/
theorem readsRow_readReply (hlt : ∀ c ∈ schema.cols, c.offset + c.size < 2 ^ 64) (multi : Bool)
    (row : Buffer) (nullMap : Option Mem) (found : List (Row SqlValue)) :
    ReadsRow dialect sem schema multi row nullMap found
      (readReply dialect (sqlEngine sem) schema multi row nullMap
        (found.map (rowCells sem schema))) := by
  have hgood : ∀ r, ¬((readTemporary dialect (sqlEngine sem) schema (rowCells sem schema r)
      nullMap).1 ≠ .ok ∧ (readTemporary dialect (sqlEngine sem) schema (rowCells sem schema r)
      nullMap).1 ≠ .warnTruncated) := by
    intro r
    rw [readTemporary, readCells_of_laidOut hl]
    dsimp only
    split_ifs <;> simp
  constructor
  · rintro rfl
    rfl
  · intro htwo hmulti
    obtain ⟨r₁, r₂, rest, rfl⟩ : ∃ r₁ r₂ rest, found = r₁ :: r₂ :: rest := by
      rcases found with _ | ⟨r₁, _ | ⟨r₂, rest⟩⟩
      · simp at htwo
      · simp at htwo
      · exact ⟨r₁, r₂, rest, rfl⟩
    subst hmulti
    rw [List.map_cons, readReply, if_neg Bool.false_ne_true, bufferedReply]
    exact (if_neg (hgood r₁)).trans (if_pos (by simp))
  · rintro r rest rfl hone
    rw [List.map_cons, readReply]
    cases multi with
    | true =>
      rw [if_pos rfl, directReply, readCells_of_laidOut hl]
      exact ⟨_, _, rfl, holdsTableRow_direct hwf hl r row nullMap⟩
    | false =>
      obtain rfl : rest = [] := hone.resolve_right Bool.false_ne_true
      rw [if_neg Bool.false_ne_true, bufferedReply]
      refine ⟨_, _, (if_neg (hgood r)).trans ((if_neg (not_not.2 rfl)).trans ?_),
        holdsTableRow_buffered hwf hl r hlt row nullMap⟩
      rw [readCells_of_laidOut hl, readCells_of_laidOut hl]

end Memory

end Contract

/-- The row of a person. -/
def personRow (id : BitVec 64) (name : CStr) : Row SqlValue := fun n =>
  if n = lit "id" then .int id else if n = lit "name" then .text name else .null

/-- A table with three persons. -/
def threePersons : Table SqlValue :=
  { createdTable .sqlite personsSchema with
    rows := [personRow 1 (lit "a"), personRow 2 (lit "b"), personRow 3 (lit "c")] }

/-- The handle over this table. -/
def threePersonsHandle : TableHandle := tableHandle personsSchema threePersons

/-- The persons from the number 2 on. -/
def laterPersons : SqlRDBCondition := .leaf (lit "id") .ge (.int 2)

theorem executes_laterPersons :
    Executes .sqlite plainSemantics (condSpec .select (some laterPersons) .sqlite personsSchema)
      (condValues (some laterPersons)) threePersonsHandle.store.contents := by
  have hs := (SqlRDBSchema.accepted_iff _).1 personsSchema_accepted
  have hroot : RootOnly (some laterPersons) := by
    rintro c ⟨rfl⟩
    exact .inr trivial
  have hleaves : condLeaves (some laterPersons) < 2 ^ 31 := show 1 < 2 ^ 31 by norm_num
  have hvalues : (condValues (some laterPersons)).length < 2 ^ 31 := show 1 < 2 ^ 31 by norm_num
  refine Executes.of_statement hs rfl (fun hfield => ?_) List.not_mem_nil (by decide +kernel) hroot
    hleaves hvalues rfl
  cases hfield

theorem notesSchema_laidOut : notesSchema.LaidOut where
  type_known := by simp [notesSchema]
  real_size := by simp [notesSchema]
  disjoint := by simp [notesSchema, SqlRDBColumnDef.range, Set.Ico_disjoint_Ico]

/-- A condition whose BLOB is cut to five bytes reads the row. -/
theorem read_zerosKey {n : ℕ} (hn : cInt n = 5) (hle : 5 ≤ n) (row : Buffer)
    (nullMap : Option Mem) :
    (sqlRDBRead (driver .sqlite (sqlEngine plainSemantics)) (some (lit "notes"))
      (some (zerosKey n)) ⟨some row, nullMap⟩ none noteHandle).1.1 = .ok := by
  have hwf := (SqlRDBSchema.accepted_iff _).1 notesSchema_accepted
  have hkey := storedValues_zerosKey hn hle
  have hleaves : condLeaves (some (zerosKey n)) < 2 ^ 31 := show 1 < 2 ^ 31 by norm_num
  have hex : Executes .sqlite plainSemantics (condSpec .select (some (zerosKey n)) .sqlite
      notesSchema) (condValues (some (zerosKey n))) noteHandle.store.contents := by
    have hvalues : (condValues (some (zerosKey n))).length < 2 ^ 31 := show 1 < 2 ^ 31 by norm_num
    refine Executes.of_statement hwf rfl (fun hfield => ?_) List.not_mem_nil ?_ ?_ hleaves hvalues
      (by rw [hkey]; rfl)
    · cases hfield
    · have hbody : schemaHasColumn notesSchema (lit "body") = true := by decide +kernel
      exact knownCols_iff.2 fun c hc => by
        rw [List.mem_singleton.1 hc]
        exact hbody
    · rintro c ⟨rfl⟩
      exact .inr trivial
  obtain ⟨-, -, ⟨-, -, -, hu⟩ | ⟨sql, m, res, c, k, hp, hran, -, -, hout⟩⟩ :=
    read_spec (cacheSound_tableHandle .sqlite notesSchema noteTable) rfl
      (lookup_tableHandle notesSchema noteTable) hwf (some (zerosKey n)) row nullMap none
  · exact absurd hu (hex.not_unprepared noteHandle_calm)
  · obtain ⟨rows, rfl⟩ := hex.ran_ok noteHandle_calm hp hran
    obtain ⟨o, -, hlen, hrun, rfl, -⟩ := hran.ok rows rfl
    obtain ⟨-, t, ht, rfl⟩ := run_select hwf hrun hlen hp.build_eq
    obtain rfl : noteTable = t := Option.some.inj ht
    have hsel : noteTable.rows.filter (plainSemantics.selects (whereExpr (some (zerosKey n)) 0)
        (storedValues (condValues (some (zerosKey n))))) = [noteRow] := by
      rw [hkey]
      rfl
    have hreply := (hout _ rfl).eq_readReply noteHandle_calm
    rw [hsel] at hreply
    obtain ⟨out, outNull, hres, -⟩ := (readsRow_readReply hwf notesSchema_laidOut (by decide) false
      row nullMap [noteRow]).first _ _ rfl (.inl rfl)
    have hcode : (sqlRDBRead (driver .sqlite (sqlEngine plainSemantics)) (some (lit "notes"))
        (some (zerosKey n)) ⟨some row, nullMap⟩ none noteHandle).1.1 = _ :=
      congrArg Prod.fst (hreply.trans hres)
    have hcut : cellsCut (decodedVals .sqlite (sqlEngine plainSemantics) notesSchema.cols
        (rowCells plainSemantics notesSchema noteRow)) 0 notesSchema.cols = false := by
      decide +kernel
    rw [hcode, readCells_of_laidOut notesSchema_laidOut, hcut]
    rfl

end C2Sql
