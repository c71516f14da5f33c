import C2Sql.Logic
import C2Sql.RowMemory
import C2Sql.SchemaRegistry
import Mathlib.Data.BitVec
import Mathlib.Order.CompletePartialOrder
import Mathlib.Order.Interval.Set.Disjoint

/-!
# The image of a row in memory

What `c2sql_internal_tm_read_row` makes of the values of a row, for any driver that returns the
values of the row (`Delivers`).

* `readRow_spec`: the loop stores the bytes of every value (`cellBytes`), sets the bits of the NULL
  columns and remembers whether a value was cut (`cellCut`);
* `readRow_exact`: no byte outside the members of the non-NULL columns changes, and a cut value is
  reported.
-/

namespace C2Sql

open StateLogic

variable {σ : Type}

/-! ## Layouts -/

/-- The bytes of a member. -/
def SqlRDBColumnDef.range (c : SqlRDBColumnDef) : Set ℕ := Set.Ico c.offset (c.offset + c.size)

/-- A struct in memory: the members have the types of `SqlRDBType`, a double has eight bytes, and
no two members share a byte. -/
structure SqlRDBSchema.LaidOut (s : SqlRDBSchema) : Prop where
  type_known : ∀ c ∈ s.cols, ∀ v, c.type ≠ .other v
  real_size : ∀ c ∈ s.cols, c.type = .real → c.size = 8
  disjoint : s.cols.Pairwise fun c c' => Disjoint c.range c'.range

/-- The value is NULL or of the type of the column. -/
def SqlRDBColumnDef.Holds (c : SqlRDBColumnDef) : SqlValue → Prop
  | .null => True
  | .int _ => c.type = .int32 ∨ c.type = .int64
  | .real _ => c.type = .real
  | .text _ => c.type = .text
  | .blob _ => c.type = .blob

/-- The values are those of a row of the table. -/
def SqlRDBSchema.HoldsRow (s : SqlRDBSchema) (vals : ℕ → SqlValue) : Prop :=
  ∀ i (c : SqlRDBColumnDef), s.cols[i]? = some c → c.Holds (vals i)

/-! ## The bytes of a value -/

/-- The bytes that are stored for a value. -/
def cellBytes (c : SqlRDBColumnDef) : SqlValue → List UInt8
  | .null => []
  | .int n => if c.type = .int32 then bytesOf (n.setWidth 32) 4 else bytesOf n 8
  | .real bits => bytesOf bits 8
  | .text t => if c.size = 0 then [] else t.take (c.size - 1) ++ [0]
  | .blob b => b.take c.size

/-- Whether the member is too small for the value. -/
def cellCut (c : SqlRDBColumnDef) : SqlValue → Bool
  | .null => false
  | .int n => c.type = .int32 ∧ (n.toInt < -2 ^ 31 ∨ n.toInt > 2 ^ 31 - 1)
  | .real _ => false
  | .text t => c.size ≤ t.length
  | .blob b => c.size < b.length

/-- A stored value stays within its member. -/
theorem length_cellBytes_le {s : SqlRDBSchema} (hs : s.WellFormed) (hl : s.LaidOut)
    {c : SqlRDBColumnDef} (hc : c ∈ s.cols) {v : SqlValue} (hv : c.Holds v) :
    (cellBytes c v).length ≤ c.size := by
  cases v with
  | null => simp [cellBytes]
  | int n =>
    rcases hv with hv | hv
    · simp [cellBytes, hv, hs.int32_size c hc hv]
    · simp [cellBytes, hv, hs.int64_size c hc hv]
  | real bits => simp [cellBytes, hl.real_size c hc hv]
  | text t =>
    rw [cellBytes]
    split_ifs with hz
    · simp
    · simp only [List.length_append, List.length_take, List.length_singleton]
      omega
  | blob b => simp [cellBytes]

/-! ## Statements on a row -/

/-- In the states `I`, the first `n` columns of the current row of a statement are the values
`vals`, and reading them leads to such states only. -/
structure Delivers (d : SqlRDBDriver σ) (stmt : StmtId) (n : ℕ) (vals : ℕ → SqlValue)
    (I : σ → Prop) : Prop where
  isnull : ∀ i < n, ∀ s, I s →
    wp (d.columnIsnull stmt i) (fun r s' => r = (.ok, vals i == .null) ∧ I s') s
  int : ∀ i < n, ∀ v, vals i = .int v → ∀ s, I s →
    wp (d.columnInt64 stmt i) (fun r s' => r = (.ok, v) ∧ I s') s
  real : ∀ i < n, ∀ v, vals i = .real v → ∀ s, I s →
    wp (d.columnReal stmt i) (fun r s' => r = (.ok, v) ∧ I s') s
  text : ∀ i < n, ∀ t, vals i = .text t → ∀ s, I s →
    wp (d.columnText stmt i) (fun r s' => r.1 = .ok ∧ r.2.getD [] = t ∧ I s') s
  blob : ∀ i < n, ∀ b, vals i = .blob b → ∀ s, I s →
    wp (d.columnBlob stmt i) (fun r s' => r.1 = .ok ∧ r.2.getD [] = b ∧ I s') s

/-- The members after a row has been stored, from the `i`-th column on. -/
def storeCells (vals : ℕ → SqlValue) : ℕ → List SqlRDBColumnDef → Buffer → Buffer
  | _, [], row => row
  | i, c :: cs, row => storeCells vals (i + 1) cs (row.write c.offset (cellBytes c (vals i)))

/-- The bitmap after the bits of the NULL columns have been set, from the `i`-th column on. -/
def markNulls (vals : ℕ → SqlValue) : ℕ → List SqlRDBColumnDef → Option Mem → Option Mem
  | _, [], map => map
  | i, _ :: cs, map =>
    markNulls vals (i + 1) cs (if vals i = .null then nullBitSet map i else map)

/-- Whether a value is cut, from the `i`-th column on. -/
def cellsCut (vals : ℕ → SqlValue) : ℕ → List SqlRDBColumnDef → Bool
  | _, [] => false
  | i, c :: cs => cellCut c (vals i) || cellsCut vals (i + 1) cs

section Reading

variable {d : SqlRDBDriver σ} {stmt : StmtId} {n : ℕ} {vals : ℕ → SqlValue} {I : σ → Prop}

theorem take_min_length (bytes : List UInt8) (k : ℕ) :
    bytes.take (min bytes.length k) = bytes.take k := by
  rw [← List.take_take]
  exact List.take_of_length_le (by simp)

/-- A text is copied as far as it fits, and then its terminator. -/
theorem write_text (row : Buffer) (off : ℕ) (t : List UInt8) (k : ℕ) :
    (row.write off (t.take (min t.length k))).write (off + min t.length k) [0] =
      row.write off (t.take k ++ [0]) := by
  rw [take_min_length, ← Buffer.write_append, List.length_take, Nat.min_comm]

/-- A value that is not NULL. -/
theorem readOne_spec (hd : Delivers d stmt n vals I) {i : ℕ} (hi : i < n) {c : SqlRDBColumnDef}
    (hc : c.Holds (vals i)) (hnull : vals i ≠ .null) (row : Buffer) {s : σ} (hs : I s) :
    wp (readOne d stmt i c row) (fun r s' =>
      r = (if cellCut c (vals i) then .warnTruncated else .ok,
        row.write c.offset (cellBytes c (vals i))) ∧ I s') s := by
  cases hv : vals i with
  | null => exact absurd hv hnull
  | int v =>
    rw [hv] at hc
    rcases hc with hc | hc
    · simp only [readOne, hc, wp_bind]
      refine wp_mono (hd.int i hi v hv s hs) ?_
      rintro _ s' ⟨rfl, hs'⟩
      simp [cellBytes, cellCut, hc, hs']
    · simp only [readOne, hc, wp_bind]
      refine wp_mono (hd.int i hi v hv s hs) ?_
      rintro _ s' ⟨rfl, hs'⟩
      simp [cellBytes, cellCut, hc, hs']
  | real v =>
    rw [hv] at hc
    have hc' : c.type = .real := hc
    simp only [readOne, hc', wp_bind]
    refine wp_mono (hd.real i hi v hv s hs) ?_
    rintro _ s' ⟨rfl, hs'⟩
    simp [cellBytes, cellCut, hs']
  | text t =>
    rw [hv] at hc
    have hc' : c.type = .text := hc
    simp only [readOne, hc', wp_bind]
    refine wp_mono (hd.text i hi t hv s hs) ?_
    rintro ⟨r, p⟩ s' ⟨rfl, hp, hs'⟩
    simp only [ne_eq, not_true_eq_false, if_false, hp, wp_ite, wp_pure, cellBytes, cellCut]
    by_cases hz : c.size = 0
    · simp [hz, hs']
    · have hcut : t.length > c.size - 1 ↔ c.size ≤ t.length := by omega
      simp only [if_neg hz, write_text, hcut, decide_eq_true_eq, true_and]
      exact hs'
  | blob b =>
    rw [hv] at hc
    have hc' : c.type = .blob := hc
    simp only [readOne, hc', wp_bind]
    refine wp_mono (hd.blob i hi b hv s hs) ?_
    rintro ⟨r, p⟩ s' ⟨rfl, hp, hs'⟩
    simp [cellBytes, cellCut, hp, hs', take_min_length]

/-- **The loop of `c2sql_internal_tm_read_row`**, from the `i`-th column on. -/
theorem readRowFrom_spec (hd : Delivers d stmt n vals I) (cols : List SqlRDBColumnDef) {i : ℕ}
    (hn : i + cols.length ≤ n)
    (hvals : ∀ j (c : SqlRDBColumnDef), cols[j]? = some c → c.Holds (vals (i + j)))
    (cut : Bool) (row : Buffer) (map : Option Mem) {s : σ} (hs : I s) :
    wp (readRowFrom d stmt i cols cut row map) (fun r s' =>
      r = (if cut || cellsCut vals i cols then .warnTruncated else .ok,
        storeCells vals i cols row, markNulls vals i cols map) ∧ I s') s := by
  induction cols generalizing i cut row map s with
  | nil => simp [readRowFrom, cellsCut, storeCells, markNulls, hs]
  | cons c cols ih =>
    rw [List.length_cons] at hn
    have htail : ∀ j (c : SqlRDBColumnDef), cols[j]? = some c → c.Holds (vals (i + 1 + j)) :=
      fun j c' hj => by
        rw [show i + 1 + j = i + (j + 1) by omega]
        exact hvals (j + 1) c' hj
    rw [readRowFrom, wp_bind]
    refine wp_mono (hd.isnull i (by omega) s hs) ?_
    rintro _ s₁ ⟨rfl, hs₁⟩
    simp only [ne_eq, not_true_eq_false, if_false, beq_iff_eq]
    by_cases hnull : vals i = .null
    · simp only [cellsCut, storeCells, markNulls, hnull, cellCut, cellBytes,
        Buffer.write_nil, Bool.false_or]
      exact ih (by omega) htail cut row _ hs₁
    · rw [if_neg hnull, wp_bind]
      have hc : c.Holds (vals i) := hvals 0 c rfl
      refine wp_mono (readOne_spec hd (by omega) hc hnull row hs₁) ?_
      rintro _ s₂ ⟨rfl, hs₂⟩
      simp only [storeCells, markNulls, if_neg hnull, cellsCut]
      by_cases hcut : cellCut c (vals i) = true
      · simp only [hcut, if_true, Bool.true_or, Bool.or_true]
        refine wp_mono (ih (by omega) htail true _ map hs₂) fun r s' hr => ?_
        simpa using hr
      · simp only [hcut, Bool.false_eq_true, if_false, reduceCtorEq, not_true_eq_false,
          Bool.false_or]
        exact ih (by omega) htail cut _ map hs₂

/-- **What `c2sql_internal_tm_read_row` makes of a row.** -/
theorem readRow_spec {schema : SqlRDBSchema} (hd : Delivers d stmt schema.cols.length vals I)
    (hvals : schema.HoldsRow vals) (row : Buffer) (map : Option Mem) {s : σ} (hs : I s) :
    (internalTmReadRow d stmt schema row map s).1 =
      (if cellsCut vals 0 schema.cols then .warnTruncated else .ok,
        storeCells vals 0 schema.cols row, markNulls vals 0 schema.cols map) := by
  have h := readRowFrom_spec hd schema.cols (Nat.zero_add _).le
    (fun j c hj => by simpa using hvals j c hj) false row map hs
  simp only [Bool.false_or] at h
  exact h.1

end Reading

/-! ## The bytes of a row -/

section Members

variable {vals : ℕ → SqlValue}

/-- A byte that no value is stored to. -/
theorem storeCells_of_not_mem {cols : List SqlRDBColumnDef} {i b : ℕ} (row : Buffer)
    (h : ∀ j (c : SqlRDBColumnDef), cols[j]? = some c →
      b < c.offset ∨ c.offset + (cellBytes c (vals (i + j))).length ≤ b) :
    (storeCells vals i cols row).data b = row.data b := by
  induction cols generalizing i row with
  | nil => rfl
  | cons c cols ih =>
    have htail := ih (i := i + 1) (row.write c.offset (cellBytes c (vals i))) fun j c' hj => by
      rw [show i + 1 + j = i + (j + 1) by omega]
      exact h (j + 1) c' hj
    rw [storeCells, htail]
    rcases h 0 c rfl with hlt | hge
    · exact row.write_of_lt _ _ hlt
    · exact row.write_of_ge _ _ hge

/-- A byte that only the `j`-th value can be stored to. -/
theorem storeCells_of_mem {cols : List SqlRDBColumnDef} {i j k : ℕ} {c : SqlRDBColumnDef}
    (row : Buffer) (hj : cols[j]? = some c)
    (h : ∀ j' (c' : SqlRDBColumnDef), j' ≠ j → cols[j']? = some c' →
      c.offset + k < c'.offset ∨ c'.offset + (cellBytes c' (vals (i + j'))).length ≤ c.offset + k) :
    (storeCells vals i cols row).data (c.offset + k) =
      ((cellBytes c (vals (i + j)))[k]?).getD (row.data (c.offset + k)) := by
  induction cols generalizing i j row with
  | nil => cases hj
  | cons c₀ cols ih =>
    cases j with
    | zero =>
      obtain rfl : c₀ = c := by simpa using hj
      rw [storeCells, storeCells_of_not_mem _ fun j' c' hj' => by
        rw [show i + 1 + j' = i + (j' + 1) by omega]
        exact h (j' + 1) c' (by omega) hj']
      exact row.write_add ..
    | succ j =>
      have hj' : cols[j]? = some c := by simpa using hj
      rw [storeCells, ih _ hj' fun j' c' hne hc' => by
        rw [show i + 1 + j' = i + (j' + 1) by omega]
        exact h (j' + 1) c' (by omega) hc', show i + 1 + j = i + (j + 1) by omega]
      congr 1
      rcases h 0 c₀ (by omega) rfl with hlt | hge
      · exact row.write_of_lt _ _ hlt
      · exact row.write_of_ge _ _ hge

/-- The members of two columns are disjoint. -/
theorem SqlRDBSchema.LaidOut.disjoint_of_ne {s : SqlRDBSchema} (hl : s.LaidOut) {i j : ℕ}
    (hne : i ≠ j) {c c' : SqlRDBColumnDef} (hi : s.cols[i]? = some c)
    (hj : s.cols[j]? = some c') : Disjoint c.range c'.range := by
  obtain ⟨hi', rfl⟩ := List.getElem?_eq_some_iff.1 hi
  obtain ⟨hj', rfl⟩ := List.getElem?_eq_some_iff.1 hj
  have hpair := List.pairwise_iff_getElem.1 hl.disjoint
  rcases lt_or_gt_of_ne hne with hlt | hgt
  · exact hpair i j hi' hj' hlt
  · exact (hpair j i hj' hi' hgt).symm

/-- **A member after a row has been stored**: the bytes of its value, and its own beyond them. -/
theorem storeCells_member {s : SqlRDBSchema} (hs : s.WellFormed) (hl : s.LaidOut)
    (hvals : s.HoldsRow vals) (row : Buffer) {i k : ℕ} {c : SqlRDBColumnDef}
    (hi : s.cols[i]? = some c) (hk : k < c.size) :
    (storeCells vals 0 s.cols row).data (c.offset + k) =
      ((cellBytes c (vals i))[k]?).getD (row.data (c.offset + k)) := by
  have h : (storeCells vals 0 s.cols row).data (c.offset + k) =
      ((cellBytes c (vals (0 + i)))[k]?).getD (row.data (c.offset + k)) :=
    storeCells_of_mem row hi fun j c' hne hj => ?_
  · simpa using h
  · have hdisj : c.offset + k ∉ c'.range :=
      Set.disjoint_left.1 (hl.disjoint_of_ne hne.symm hi hj) ⟨by omega, by omega⟩
    have hlen := length_cellBytes_le hs hl (List.mem_of_getElem? hj) (hvals j c' hj)
    rw [Nat.zero_add]
    simp only [SqlRDBColumnDef.range, Set.mem_Ico, not_and, not_lt] at hdisj
    by_cases hlt : c.offset + k < c'.offset
    · exact .inl hlt
    · exact .inr (by have := hdisj (by omega); omega)

theorem cellsCut_eq_true_iff {cols : List SqlRDBColumnDef} {i : ℕ} :
    cellsCut vals i cols = true ↔
      ∃ j c, cols[j]? = some c ∧ cellCut c (vals (i + j)) = true := by
  induction cols generalizing i with
  | nil => simp [cellsCut]
  | cons c cols ih =>
    rw [cellsCut, Bool.or_eq_true, ih]
    constructor
    · rintro (h | ⟨j, c', hj, h⟩)
      · exact ⟨0, c, rfl, h⟩
      · exact ⟨j + 1, c', hj, by rwa [show i + (j + 1) = i + 1 + j by omega]⟩
    · rintro ⟨_ | j, c', hj, h⟩
      · obtain rfl : c = c' := by simpa using hj
        exact .inl h
      · exact .inr ⟨j, c', by simpa using hj, by rwa [show i + 1 + j = i + (j + 1) by omega]⟩

theorem isSome_markNulls {cols : List SqlRDBColumnDef} {i : ℕ} (map : Option Mem) :
    (markNulls vals i cols map).isSome = map.isSome := by
  induction cols generalizing i map with
  | nil => rfl
  | cons c cols ih =>
    rw [markNulls, ih]
    split <;> simp

/-- **The bitmap after a row has been read.** -/
theorem nullBitGet_markNulls {cols : List SqlRDBColumnDef} {i : ℕ} (map : Option Mem) (j : ℕ) :
    nullBitGet (markNulls vals i cols map) j = true ↔ nullBitGet map j = true ∨
      map.isSome = true ∧ i ≤ j ∧ j < i + cols.length ∧ vals j = .null := by
  induction cols generalizing i map with
  | nil =>
    simp only [markNulls, List.length_nil]
    exact ⟨.inl, fun h => h.resolve_right fun ⟨_, _, _, _⟩ => by omega⟩
  | cons c cols ih =>
    rw [markNulls, ih, List.length_cons]
    by_cases hnull : vals i = .null
    · simp only [if_pos hnull, nullBitGet_nullBitSet, isSome_nullBitSet, Bool.or_eq_true,
        Bool.and_eq_true, beq_iff_eq, or_assoc]
      refine or_congr_right ⟨?_, ?_⟩
      · rintro (⟨hm, rfl⟩ | ⟨hm, hle, hlt, hv⟩)
        · exact ⟨hm, le_rfl, by omega, hnull⟩
        · exact ⟨hm, by omega, by omega, hv⟩
      · rintro ⟨hm, hle, hlt, hv⟩
        rcases hle.eq_or_lt with rfl | hlt'
        · exact .inl ⟨hm, rfl⟩
        · exact .inr ⟨hm, hlt', by omega, hv⟩
    · rw [if_neg hnull]
      refine or_congr_right (and_congr_right fun _ => ⟨?_, ?_⟩)
      · rintro ⟨hle, hlt, hv⟩
        exact ⟨by omega, by omega, hv⟩
      · rintro ⟨hle, hlt, hv⟩
        have hne : i ≠ j := by
          rintro rfl
          exact hnull hv
        exact ⟨by omega, by omega, hv⟩

end Members

/-- **Reading a row, exactly.** No byte changes outside the members of the non-NULL columns. The
code says whether some value is too long for its member. A text is stored as its longest prefix that
fits, with a NUL. The bits of the NULL columns are set, and no other bit changes. -/
theorem readRow_exact {d : SqlRDBDriver σ} {stmt : StmtId} {schema : SqlRDBSchema}
    (hs : schema.Accepted) (hl : schema.LaidOut) {vals : ℕ → SqlValue} {I : σ → Prop}
    (hd : Delivers d stmt schema.cols.length vals I) (hvals : schema.HoldsRow vals) (row : Buffer)
    (map : Option Mem) {s : σ} (hI : I s) :
    ∃ r out map', (internalTmReadRow d stmt schema row map s).1 = (r, out, map') ∧
      (∀ b, out.data b ≠ row.data b →
        ∃ i c, schema.cols[i]? = some c ∧ vals i ≠ .null ∧ b ∈ c.range) ∧
      (r = .warnTruncated ↔ ∃ i c, schema.cols[i]? = some c ∧ cellCut c (vals i) = true) ∧
      (r = .warnTruncated ∨ r = .ok) ∧
      (∀ i c t, schema.cols[i]? = some c → vals i = .text t → 1 ≤ c.size →
        out.data.read c.offset (min t.length (c.size - 1) + 1) = t.take (c.size - 1) ++ [0]) ∧
      map'.isSome = map.isSome ∧
      (map.isSome = true → ∀ j, nullBitGet map' j = true ↔
        nullBitGet map j = true ∨ j < schema.cols.length ∧ vals j = .null) := by
  have hwf := (SqlRDBSchema.accepted_iff _).1 hs
  refine ⟨_, _, _, readRow_spec hd hvals row map hI, ?_, ?_, ?_, ?_, isSome_markNulls map, ?_⟩
  · intro b hb
    by_contra hnone
    push Not at hnone
    refine hb (storeCells_of_not_mem row fun j c hj => ?_)
    rw [Nat.zero_add]
    by_cases hnull : vals j = .null
    · rw [hnull, cellBytes, List.length_nil]
      omega
    · have hout := hnone j c hj hnull
      have hlen := length_cellBytes_le hwf hl (List.mem_of_getElem? hj) (hvals j c hj)
      simp only [SqlRDBColumnDef.range, Set.mem_Ico, not_and, not_lt] at hout
      by_cases hlt : b < c.offset
      · exact .inl hlt
      · exact .inr (by have := hout (by omega); omega)
  · have hcut : cellsCut vals 0 schema.cols = true ↔
        ∃ j c, schema.cols[j]? = some c ∧ cellCut c (vals (0 + j)) = true := cellsCut_eq_true_iff
    simp only [Nat.zero_add] at hcut
    rw [← hcut]
    split_ifs with h <;> simp [h]
  · split_ifs <;> simp
  · intro i c t hi hv hsize
    have hlen : (t.take (c.size - 1) ++ [0]).length = min t.length (c.size - 1) + 1 := by
      simp [Nat.min_comm]
    refine List.ext_getElem? fun k => ?_
    by_cases hk : k < min t.length (c.size - 1) + 1
    · rw [Mem.getElem?_read _ _ _ hk, storeCells_member hwf hl hvals row hi (by omega), hv,
        cellBytes, if_neg (by omega), List.getElem?_eq_getElem (hlen ▸ hk)]
      rfl
    · rw [List.getElem?_eq_none (by rw [Mem.length_read]; omega),
        List.getElem?_eq_none (by omega)]
  · intro hsome j
    rw [nullBitGet_markNulls]
    simp [hsome]

/-! ## A driver without a database -/

/-- A driver that returns for each column the value that was bound for it. -/
def echo : SqlRDBDriver (ℕ → SqlValue) where
  dialect := .sqlite
  close := pure .ok
  exec := fun _ => pure .ok
  prepare := fun _ => pure (.ok, 0)
  bind := fun _ index v ps => (.ok, Function.update ps index.toNat v)
  step := fun _ => pure (.ok, true)
  columnInt64 := fun _ i ps => ((.ok, match ps (i + 1) with | .int v => v | _ => 0), ps)
  columnInt32 := fun _ i ps =>
    ((.ok, match ps (i + 1) with | .int v => v.setWidth 32 | _ => 0), ps)
  columnReal := fun _ i ps => ((.ok, match ps (i + 1) with | .real v => v | _ => 0), ps)
  columnText := fun _ i ps => ((.ok, match ps (i + 1) with | .text t => some t | _ => none), ps)
  columnBlob := fun _ i ps => ((.ok, match ps (i + 1) with | .blob b => some b | _ => none), ps)
  columnIsnull := fun _ i ps => ((.ok, ps (i + 1) == .null), ps)
  reset := fun _ => pure .ok
  finalize := fun _ => pure .ok
  begin := pure .ok
  commit := pure .ok
  rollback := pure .ok
  savepoint := fun _ => pure .ok
  releaseSp := fun _ => pure .ok
  rollbackSp := fun _ => pure .ok
  changes := pure 0

/-- The values that were bound, by column. -/
def echoed (ps : ℕ → SqlValue) (i : ℕ) : SqlValue := ps (i + 1)

theorem delivers_echo (stmt : StmtId) (n : ℕ) (ps : ℕ → SqlValue) :
    Delivers echo stmt n (echoed ps) (· = ps) where
  isnull := by
    rintro i _ s rfl
    exact ⟨rfl, rfl⟩
  int := by
    rintro i _ v hv s rfl
    simp only [echoed] at hv
    simp [wp, echo, hv]
  real := by
    rintro i _ v hv s rfl
    simp only [echoed] at hv
    simp [wp, echo, hv]
  text := by
    rintro i _ v hv s rfl
    simp only [echoed] at hv
    simp [wp, echo, hv]
  blob := by
    rintro i _ v hv s rfl
    simp only [echoed] at hv
    simp [wp, echo, hv]

theorem personsSchema_laidOut : personsSchema.LaidOut where
  type_known := by simp [personsSchema, personsCols]
  real_size := by simp [personsSchema, personsCols]
  disjoint := by simp [personsSchema, personsCols, SqlRDBColumnDef.range, Set.Ico_disjoint_Ico]

/-- A row of the sample struct with an identifier that is no `int32` and without a score. -/
theorem readRow_exact_sample :
    let ps : ℕ → SqlValue := fun i =>
      if i = 1 then .int (2 ^ 31) else if i = 2 then .text [65, 66] else .null
    ∃ r out map', (internalTmReadRow echo 0 personsSchema ⟨48, fun _ => 7, false⟩
        (some fun _ => 0) ps).1 = (r, out, map') ∧
      r = .warnTruncated ∧ out.data.read 4 3 = [65, 66, 0] ∧ out.data 40 = 7 ∧
      nullBitGet map' 2 = true ∧ nullBitGet map' 1 = false := by
  intro ps
  have hvals : personsSchema.HoldsRow (echoed ps) := by
    rintro (_ | _ | _ | i) c hi
    · obtain rfl := Option.some.inj hi
      exact .inl rfl
    · obtain rfl := Option.some.inj hi
      rfl
    · trivial
    · cases hi
  obtain ⟨r, out, map', hrun, hframe, hcut, -, htext, -, hbits⟩ :=
    readRow_exact personsSchema_accepted personsSchema_laidOut (delivers_echo 0 _ ps) hvals
      ⟨48, fun _ => 7, false⟩ (some fun _ => 0) rfl
  refine ⟨r, out, map', hrun, hcut.2 ⟨0, _, rfl, by decide⟩, ?_, ?_, ?_, ?_⟩
  · exact htext 1 ⟨lit "name", .text, 4, 32, 0⟩ [65, 66] rfl rfl (by decide)
  · by_contra hne
    obtain ⟨i, c, hi, hv, hb⟩ := hframe 40 hne
    rcases i with _ | _ | _ | i
    · obtain rfl := Option.some.inj hi
      exact absurd hb.2 (by decide)
    · obtain rfl := Option.some.inj hi
      exact absurd hb.2 (by decide)
    · exact hv rfl
    · cases hi
  · exact (hbits rfl 2).2 (.inr ⟨by decide, rfl⟩)
  · refine Bool.eq_false_iff.2 fun h => ?_
    rcases (hbits rfl 1).1 h with h | h
    · cases h
    · cases h.2

end C2Sql
