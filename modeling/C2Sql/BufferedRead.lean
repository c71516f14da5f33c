import C2Sql.RowIdentity

/-!
# The two paths of `SqlRDBRead`

Without `allow_multi` the row goes through temporary memory full of zeros, which is copied as a
whole; with it the members are stored one by one in the caller's memory. For one row the two give
the same result if and only if the bytes that the row does not store were zeros already.

* `storedBytes`: the bytes that a row stores;
* `PathsAgree`: both paths return and leave the same;
* `pathsAgree_iff`: when they do.
-/

namespace C2Sql

open SqlText StateLogic

variable {Db : Type} {dialect : C2SqlDialect} {e : Engine Db}

/-! ## The bytes of a row -/

/-- The bytes that are stored for the values, from the `i`-th column on. -/
def storedBytes (vals : ℕ → SqlValue) (i : ℕ) (cols : List SqlRDBColumnDef) : Set ℕ :=
  {p | ∃ j c, cols[j]? = some c ∧
    p ∈ Set.Ico c.offset (c.offset + (cellBytes c (vals (i + j))).length)}

variable {vals : ℕ → SqlValue} {cols : List SqlRDBColumnDef} {i p : ℕ}

/-- The byte that the values leave at `p`: that of the last column which reaches there. -/
def lastByte (vals : ℕ → SqlValue) : ℕ → List SqlRDBColumnDef → ℕ → Option UInt8
  | _, [], _ => none
  | i, c :: cols, p => (lastByte vals (i + 1) cols p).or
    (if c.offset ≤ p then (cellBytes c (vals i))[p - c.offset]? else none)

theorem isSome_lastByte_iff :
    (lastByte vals i cols p).isSome = true ↔ p ∈ storedBytes vals i cols := by
  induction cols generalizing i with
  | nil =>
    refine iff_of_false Bool.false_ne_true ?_
    rintro ⟨j, c, hj, -⟩
    cases hj
  | cons c cols ih =>
    have hhead : (if c.offset ≤ p then (cellBytes c (vals i))[p - c.offset]? else none).isSome =
        true ↔ p ∈ Set.Ico c.offset (c.offset + (cellBytes c (vals i)).length) := by
      split_ifs with hp
      · rw [Option.isSome_iff_ne_none, Ne, List.getElem?_eq_none_iff, Set.mem_Ico]
        omega
      · exact iff_of_false Bool.false_ne_true fun h => hp h.1
    rw [lastByte, Option.isSome_or, Bool.or_eq_true, ih, hhead]
    constructor
    · rintro (⟨j, c', hj, hin⟩ | hin)
      · refine ⟨j + 1, c', hj, ?_⟩
        rwa [show i + (j + 1) = i + 1 + j by omega]
      · exact ⟨0, c, rfl, hin⟩
    · rintro ⟨j, c', hj, hin⟩
      cases j with
      | zero =>
        obtain rfl := Option.some.inj hj
        exact .inr hin
      | succ j =>
        refine .inl ⟨j, c', hj, ?_⟩
        rwa [show i + 1 + j = i + (j + 1) by omega]

/-- **The memory after the values have been stored.** -/
theorem data_storeCells (row : Buffer) :
    (storeCells vals i cols row).data p = (lastByte vals i cols p).getD (row.data p) := by
  induction cols generalizing i row with
  | nil => rfl
  | cons c cols ih =>
    rw [storeCells, ih, lastByte]
    cases lastByte vals (i + 1) cols p with
    | some b => rfl
    | none =>
      rw [Option.none_or, Option.getD_none]
      split_ifs with hp
      · obtain ⟨k, rfl⟩ := Nat.exists_eq_add_of_le hp
        rw [Buffer.write_add, Nat.add_sub_cancel_left]
      · exact Buffer.write_of_lt _ _ _ (not_le.1 hp)

theorem storeCells_of_notMem (row : Buffer) (hp : p ∉ storedBytes vals i cols) :
    (storeCells vals i cols row).data p = row.data p := by
  rw [← isSome_lastByte_iff, Bool.not_eq_true, Option.isSome_eq_false_iff,
    Option.isNone_iff_eq_none] at hp
  rw [data_storeCells, hp]
  rfl

/-- A byte that is stored does not depend on the memory before. -/
theorem storeCells_of_mem_storedBytes (row row' : Buffer) (hp : p ∈ storedBytes vals i cols) :
    (storeCells vals i cols row).data p = (storeCells vals i cols row').data p := by
  obtain ⟨b, hb⟩ := Option.isSome_iff_exists.1 (isSome_lastByte_iff.2 hp)
  rw [data_storeCells, data_storeCells, hb]
  rfl

/-- Storing the values changes nothing at `p` exactly if what they leave there has been there. -/
theorem data_storeCells_eq_iff (row : Buffer) :
    (storeCells vals i cols row).data p = row.data p ↔
      ∀ b, lastByte vals i cols p = some b → row.data p = b := by
  rw [data_storeCells]
  cases lastByte vals i cols p with
  | none => exact iff_of_true rfl (by rintro b ⟨⟩)
  | some b => simp [eq_comm]

/-- The null map stays as it is exactly if the bits of the NULL columns are set in it. -/
theorem markNulls_eq_self_iff (nullMap : Option Mem) :
    markNulls vals 0 cols nullMap = nullMap ↔
      ∀ j < cols.length, vals j = .null → nullMap.isSome = true → nullBitGet nullMap j = true := by
  have hbits : markNulls vals 0 cols nullMap = nullMap ↔
      ∀ j, nullBitGet (markNulls vals 0 cols nullMap) j = true → nullBitGet nullMap j = true := by
    refine ⟨fun heq j hj => heq ▸ hj, fun hle => ?_⟩
    have hsome : (markNulls vals 0 cols nullMap).isSome = _ := isSome_markNulls nullMap
    have hge : ∀ j, nullBitGet nullMap j = true →
        nullBitGet (markNulls vals 0 cols nullMap) j = true := fun j hj =>
      (nullBitGet_markNulls nullMap j).2 (.inl hj)
    generalize markNulls vals 0 cols nullMap = marked at hle hsome hge
    cases marked <;> cases nullMap
    · rfl
    · cases hsome
    · cases hsome
    · exact congrArg some (Mem.ext_bits fun j => ⟨hle j, hge j⟩)
  rw [hbits]
  refine forall_congr' fun j => ?_
  rw [nullBitGet_markNulls, Nat.zero_add]
  constructor
  · exact fun h hj hnull hsome => h (.inr ⟨hsome, Nat.zero_le j, hj, hnull⟩)
  · rintro h (hj | ⟨hsome, -, hj, hnull⟩)
    · exact hj
    · exact h hj hnull hsome

theorem readablePart_eq_self_or (vals : ℕ → SqlValue) (i : ℕ) (cols : List SqlRDBColumnDef) :
    readablePart vals i cols = cols ∨ (readablePart vals i cols).length < cols.length := by
  induction cols generalizing i with
  | nil => exact .inl rfl
  | cons c cols ih =>
    rw [readablePart]
    split_ifs
    · exact .inr (Nat.succ_pos _)
    · obtain hall | hlt := ih (i + 1)
      · exact .inl (by rw [hall])
      · exact .inr (Nat.succ_lt_succ hlt)

/-! ## The replies -/

section Replies

variable (dialect : C2SqlDialect) (e : Engine Db) (schema : SqlRDBSchema) (cells : List SqlValue)

/-- The columns of the row that are read. -/
def readColumns : List SqlRDBColumnDef := readablePart (cellOf cells) 0 schema.cols

/-- The caller's row after the members have been stored one by one. -/
def storedRow (row : Buffer) : Buffer :=
  storeCells (decodedVals dialect e schema.cols cells) 0 (readColumns schema cells) row

/-- The caller's null map after the bits have been set one by one. -/
def markedMap (nullMap : Option Mem) : Option Mem :=
  markNulls (decodedVals dialect e schema.cols cells) 0 (readColumns schema cells) nullMap

/-- The bytes of the row. -/
def rowBytes : Set ℕ :=
  storedBytes (decodedVals dialect e schema.cols cells) 0 (readColumns schema cells)

/-- The byte that the row has at `p`. -/
def rowByte (p : ℕ) : Option UInt8 :=
  lastByte (decodedVals dialect e schema.cols cells) 0 (readColumns schema cells) p

/-- When the two paths agree on a row. If every column is read, the caller's memory has zeros where
the temporary row has bytes that the row does not store, and past the temporary row the bytes of the
row. If the reading ends at a column of unknown type, the caller's memory has the bytes of the
columns before it, and the null map the bits of those that are NULL. -/
structure Undisturbed (row : Buffer) (nullMap : Option Mem) : Prop where
  gaps : readColumns schema cells = schema.cols → ∀ p < bufSize schema.cols,
    p ∉ rowBytes dialect e schema cells → row.data p = 0
  beyond : readColumns schema cells = schema.cols → ∀ p b, bufSize schema.cols ≤ p →
    rowByte dialect e schema cells p = some b → row.data p = b
  unread_bytes : readColumns schema cells ≠ schema.cols → ∀ p b,
    rowByte dialect e schema cells p = some b → row.data p = b
  unread_nulls : readColumns schema cells ≠ schema.cols →
    ∀ j < (readColumns schema cells).length, decodedVals dialect e schema.cols cells j = .null →
      nullMap.isSome = true → nullBitGet nullMap j = true

/-- Two calls return the same code and leave the same bytes and the same null map, where the bytes
that the row does not store are the caller's. -/
structure PathsAgree (row : Buffer) (stored : Set ℕ) (res res' : SqlRDBResult × ReadOut) :
    Prop where
  code : res.1 = res'.1
  bytes : ∃ out out', res.2.row = some out ∧ res'.2.row = some out' ∧ out.data = out'.data ∧
    ∀ p ∉ stored, out.data p = row.data p
  nullMap : res.2.nullMap = res'.2.nullMap

variable {dialect e schema cells}

/-- What reading the row stores, with a code that does not depend on the memory. -/
theorem readCells_eq_storedRow :
    ∃ code, (code = .errInternal ↔ readColumns schema cells ≠ schema.cols) ∧
      (code = .errInternal ∨ code = .ok ∨ code = .warnTruncated) ∧
      ∀ row nullMap, readCells dialect e (cellOf cells) 0 schema.cols false row nullMap =
        (code, storedRow dialect e schema cells row, markedMap dialect e schema cells nullMap) := by
  have hvals : ∀ j (c : SqlRDBColumnDef), schema.cols[j]? = some c →
      decodedVals dialect e schema.cols cells (0 + j) =
        decodedCell dialect e c (cellOf cells (0 + j)) := by
    intro j c hj
    rw [Nat.zero_add]
    exact decodedVals_eq hj cells
  refine ⟨_, ?_, ?_, fun row nullMap => readCells_eq hvals false row nullMap⟩
  · unfold readCode
    obtain hall | hlt := readablePart_eq_self_or (cellOf cells) 0 schema.cols
    · rw [readColumns, hall, if_neg (lt_irrefl _)]
      split_ifs <;> simp
    · rw [if_pos hlt]
      refine iff_of_true rfl fun hall => ?_
      exact absurd (congrArg List.length hall) hlt.ne
  · unfold readCode
    split_ifs <;> simp

theorem storedRow_of_notMem (row : Buffer) {p : ℕ} (hp : p ∉ rowBytes dialect e schema cells) :
    (storedRow dialect e schema cells row).data p = row.data p :=
  storeCells_of_notMem row hp

/-- The copied row differs from the stored one where the caller's memory was not zero. -/
theorem copied_eq_stored_iff (row : Buffer) :
    (row.write 0 ((storedRow dialect e schema cells (zeroRow schema)).data.read 0
        (bufSize schema.cols))).data = (storedRow dialect e schema cells row).data ↔
      (∀ p < bufSize schema.cols, p ∉ rowBytes dialect e schema cells → row.data p = 0) ∧
        ∀ p b, bufSize schema.cols ≤ p → rowByte dialect e schema cells p = some b →
          row.data p = b := by
  have hin : ∀ p < bufSize schema.cols, (row.write 0 ((storedRow dialect e schema cells
      (zeroRow schema)).data.read 0 (bufSize schema.cols))).data p =
        (storedRow dialect e schema cells (zeroRow schema)).data p := by
    intro p hp
    have hcopy := row.write_add 0 ((storedRow dialect e schema cells (zeroRow schema)).data.read 0
      (bufSize schema.cols)) p
    rw [Nat.zero_add, Mem.getElem?_read _ _ _ hp, Nat.zero_add] at hcopy
    exact hcopy
  have hout : ∀ p, bufSize schema.cols ≤ p → (row.write 0 ((storedRow dialect e schema cells
      (zeroRow schema)).data.read 0 (bufSize schema.cols))).data p = row.data p := by
    intro p hp
    refine Buffer.write_of_ge _ _ _ ?_
    rwa [Nat.zero_add, Mem.length_read]
  constructor
  · refine fun heq => ⟨fun p hp hno => ?_, fun p b hp => ?_⟩
    · have hbyte := (hin p hp).symm.trans (congrFun heq p)
      rw [storedRow_of_notMem _ hno, storedRow_of_notMem _ hno] at hbyte
      exact hbyte.symm
    · exact (data_storeCells_eq_iff row).1 ((congrFun heq p).symm.trans (hout p hp)) b
  · rintro ⟨hgaps, hbeyond⟩
    funext p
    rcases Nat.lt_or_ge p (bufSize schema.cols) with hp | hp
    · rw [hin p hp]
      by_cases hno : p ∈ rowBytes dialect e schema cells
      · exact storeCells_of_mem_storedBytes _ _ hno
      · rw [storedRow_of_notMem _ hno, storedRow_of_notMem _ hno, hgaps p hp hno]
        rfl
    · rw [hout p hp]
      exact ((data_storeCells_eq_iff row).2 fun b => hbeyond p b hp).symm

theorem mergeNulls_markedMap (hall : readColumns schema cells = schema.cols)
    (nullMap : Option Mem) :
    mergeNulls (nullBitmapBytes schema.cols.length) nullMap
      (markedMap dialect e schema cells (nullMap.map fun _ _ => 0)) =
        markedMap dialect e schema cells nullMap := by
  rw [markedMap, markedMap, hall]
  exact mergeNulls_markNulls ..

/-- **When the replies to one row agree.** -/
theorem pathsAgree_replies_iff (row : Buffer) (nullMap : Option Mem) :
    PathsAgree row (rowBytes dialect e schema cells)
        (bufferedReply dialect e schema cells [] row nullMap)
        (directReply dialect e schema cells row nullMap) ↔
      Undisturbed dialect e schema cells row nullMap := by
  obtain ⟨code, hcode, hcodes, hread⟩ :
      ∃ code, (code = SqlRDBResult.errInternal ↔ readColumns schema cells ≠ schema.cols) ∧
        (code = .errInternal ∨ code = .ok ∨ code = .warnTruncated) ∧ _ :=
    readCells_eq_storedRow
  rw [bufferedReply, directReply, readTemporary, hread, hread]
  dsimp only
  by_cases hall : readColumns schema cells = schema.cols
  · have hgood : ¬(code ≠ .ok ∧ code ≠ .warnTruncated) := by
      rintro ⟨hok, hwarn⟩
      obtain herr | herr | herr := hcodes
      · exact hcode.1 herr hall
      · exact hok herr
      · exact hwarn herr
    rw [if_neg hgood, if_neg (not_not.2 rfl), mergeNulls_markedMap hall]
    constructor
    · rintro ⟨-, ⟨out, out', hout, hout', heq, -⟩, -⟩
      cases hout
      cases hout'
      obtain ⟨hgaps, hbeyond⟩ := (copied_eq_stored_iff row).1 heq
      exact ⟨fun _ => hgaps, fun _ => hbeyond, fun hne => absurd hall hne,
        fun hne => absurd hall hne⟩
    · intro h
      have heq := (copied_eq_stored_iff row).2 ⟨h.gaps hall, h.beyond hall⟩
      refine ⟨rfl, ⟨_, _, rfl, rfl, heq, fun p hp => ?_⟩, rfl⟩
      rw [heq, storedRow_of_notMem row hp]
  · have hbad : code ≠ .ok ∧ code ≠ .warnTruncated := by
      rw [hcode.2 hall]
      exact ⟨(by rintro ⟨⟩), (by rintro ⟨⟩)⟩
    rw [if_pos hbad]
    constructor
    · rintro ⟨-, ⟨out, out', hout, hout', heq, -⟩, hnulls⟩
      cases hout
      cases hout'
      exact ⟨fun h => absurd h hall, fun h => absurd h hall,
        fun _ p => (data_storeCells_eq_iff row).1 (congrFun heq p).symm,
        fun _ => (markNulls_eq_self_iff nullMap).1 hnulls.symm⟩
    · intro h
      have hrow : (storedRow dialect e schema cells row).data = row.data := funext fun p =>
        (data_storeCells_eq_iff row).2 (h.unread_bytes hall p)
      have hnulls : markedMap dialect e schema cells nullMap = nullMap :=
        (markNulls_eq_self_iff nullMap).2 (h.unread_nulls hall)
      exact ⟨rfl, ⟨_, _, rfl, rfl, hrow.symm, fun _ _ => rfl⟩, hnulls.symm⟩

/-- The direct path keeps the bytes that the row does not store. -/
theorem pathsAgree_direct (row : Buffer) (nullMap : Option Mem) :
    PathsAgree row (rowBytes dialect e schema cells)
      (directReply dialect e schema cells row nullMap)
      (directReply dialect e schema cells row nullMap) := by
  obtain ⟨code, -, -, hread⟩ : ∃ code, (code = SqlRDBResult.errInternal ↔ _) ∧ _ ∧
      ∀ row nullMap, readCells dialect e (cellOf cells) 0 schema.cols false row nullMap = _ :=
    readCells_eq_storedRow
  rw [directReply, hread]
  exact ⟨rfl, ⟨_, _, rfl, rfl, rfl, fun p hp => storedRow_of_notMem row hp⟩, rfl⟩

/-- If the schema is laid out, only the gaps matter. -/
theorem undisturbed_of_laidOut (hacc : schema.Accepted) (hl : schema.LaidOut)
    (hlt : ∀ c ∈ schema.cols, c.offset + c.size < 2 ^ 64) {row : Buffer} (nullMap : Option Mem)
    (hgaps : ∀ p < bufSize schema.cols, p ∉ rowBytes dialect e schema cells → row.data p = 0) :
    Undisturbed dialect e schema cells row nullMap where
  gaps _ := hgaps
  beyond hall p b hp hb := by
    -- the members of a laid out schema end before the temporary row does
    obtain ⟨j, c, hj, hin⟩ := isSome_lastByte_iff.1 (Option.isSome_of_eq_some hb)
    rw [hall] at hj
    have hc := List.mem_of_getElem? hj
    have hholds : c.Holds (decodedVals dialect e schema.cols cells j) :=
      holdsRow_decodedVals hl cells j c hj
    have hbytes := length_cellBytes_le ((SqlRDBSchema.accepted_iff _).1 hacc) hl hc hholds
    have hend := le_bufSize hc (hlt c hc)
    rw [Nat.zero_add] at hin
    have hlast := hin.2
    omega
  unread_bytes hne := absurd (readablePart_eq_self (fun _ hc => hl.known hc) _ _) hne
  unread_nulls hne := absurd (readablePart_eq_self (fun _ hc => hl.known hc) _ _) hne

end Replies

/-! ## The calls -/

/-- The statement of the call returns the row and no other. -/
def ReturnsRow (dialect : C2SqlDialect) (e : Engine Db) (schema : SqlRDBSchema)
    (cond : Option SqlRDBCondition) (db : Db) (cells : List SqlValue) : Prop :=
  ∃ sql n o, Prepares dialect e (condSpec .select cond dialect schema) sql n ∧
    (condValues cond).length < 2 ^ 31 ∧ e.run sql (storedValues (condValues cond)) db = some o ∧
      o.rows = [cells]

theorem read_of_returnsRow {name : CStr} {schema : SqlRDBSchema} {h : SqlRDBHandle (Session Db)}
    {cond : Option SqlRDBCondition} {cells : List SqlValue} (hacc : schema.Accepted)
    (hs : CacheSound dialect e h) (hv : h.valid = true) (hlook : h.lookup name = some schema)
    (hcalm : h.Calm) (hone : ReturnsRow dialect e schema cond h.store.contents cells)
    (row : Buffer) (nullMap : Option Mem) (opts : Option SqlRDBReadOpts) :
    (sqlRDBRead (driver dialect e) (some name) cond ⟨some row, nullMap⟩ opts h).1 =
      readReply dialect e schema
        ((opts.map fun o => o.allowMulti).getD false || h.config.multirowDefault == 1) row nullMap
        [cells] := by
  obtain ⟨sql, n, o, hp, hlen, hrun, hrows⟩ := hone
  obtain ⟨-, -, ⟨-, -, -, hu⟩ | ⟨sql', n', res, c, k, hp', hran, -, -, hout⟩⟩ :=
    read_spec hs hv hlook ((SqlRDBSchema.accepted_iff _).1 hacc) cond row nullMap opts
  · exact (hu.elim hp (hcalm.faults .prepare) hcalm.heap).elim
  · cases hp.build_eq.symm.trans hp'.build_eq
    obtain ⟨rows, rfl⟩ := hran.runs hcalm.faults hlen o hrun
    obtain ⟨o', -, -, hrun', rfl, -⟩ := hran.ok rows rfl
    cases hrun.symm.trans hrun'
    rw [(hout _ rfl).eq_readReply hcalm, hrows]

/-- **When the buffered path of `SqlRDBRead` agrees with the direct one.** -/
theorem pathsAgree_iff {name : CStr} {schema : SqlRDBSchema} {h : SqlRDBHandle (Session Db)}
    {cond : Option SqlRDBCondition} {cells : List SqlValue} {opts : Option SqlRDBReadOpts}
    (hacc : schema.Accepted) (hs : CacheSound dialect e h) (hv : h.valid = true)
    (hlook : h.lookup name = some schema) (hcalm : h.Calm)
    (hone : ReturnsRow dialect e schema cond h.store.contents cells)
    (hopts : ∀ o, opts = some o → o.allowMulti = false) (row : Buffer) (nullMap : Option Mem) :
    PathsAgree row (rowBytes dialect e schema cells)
        (sqlRDBRead (driver dialect e) (some name) cond ⟨some row, nullMap⟩ opts h).1
        (sqlRDBRead (driver dialect e) (some name) cond ⟨some row, nullMap⟩ (some ⟨true⟩) h).1 ↔
      h.config.multirowDefault = 1 ∨ Undisturbed dialect e schema cells row nullMap := by
  have hunset : (opts.map fun o => o.allowMulti).getD false = false := by
    cases opts with
    | none => rfl
    | some o => exact hopts o rfl
  rw [read_of_returnsRow hacc hs hv hlook hcalm hone,
    read_of_returnsRow hacc hs hv hlook hcalm hone, hunset, Bool.false_or]
  by_cases hdefault : h.config.multirowDefault = 1
  · refine iff_of_true ?_ (.inl hdefault)
    rw [hdefault]
    exact pathsAgree_direct row nullMap
  · have hone : (h.config.multirowDefault == 1) = false := beq_eq_false_iff_ne.2 hdefault
    rw [or_iff_right hdefault, hone]
    exact pathsAgree_replies_iff row nullMap

/-! ## Samples -/

/-- The row of the only person. -/
def personCells : List SqlValue := [.int 1, .text (lit "a"), .null]

theorem returnsRow_person :
    ReturnsRow .sqlite (sqlEngine plainSemantics) personsSchema none onePersonHandle.store.contents
      personCells := by
  obtain ⟨sql, n, o, hp, hlen, hrun⟩ := executes_onePerson
  obtain ⟨-, t, ht, rfl⟩ := run_select ((SqlRDBSchema.accepted_iff _).1 personsSchema_accepted) hrun
    hlen hp.build_eq
  obtain rfl : onePerson = t := Option.some.inj ht
  exact ⟨sql, n, _, hp, hlen, hrun, rfl⟩

/-- The paths agree on memory of zeros. -/
theorem pathsAgree_person :
    let read := fun opts => (sqlRDBRead (driver .sqlite (sqlEngine plainSemantics))
      (some (lit "persons")) none ⟨some ⟨48, fun _ => 0, false⟩, some fun _ => 0⟩ opts
      onePersonHandle).1
    PathsAgree ⟨48, fun _ => 0, false⟩
      (rowBytes .sqlite (sqlEngine plainSemantics) personsSchema personCells) (read none)
      (read (some ⟨true⟩)) := by
  intro read
  have hcalm : onePersonHandle.Calm := ⟨fun _ _ => rfl, fun _ => rfl⟩
  have hzeros : Undisturbed .sqlite (sqlEngine plainSemantics) personsSchema personCells
      ⟨48, fun _ => 0, false⟩ (some fun _ => 0) :=
    undisturbed_of_laidOut personsSchema_accepted personsSchema_laidOut (by decide) _
      fun _ _ _ => rfl
  exact (pathsAgree_iff personsSchema_accepted
    (cacheSound_tableHandle .sqlite personsSchema onePerson) rfl
    (lookup_tableHandle personsSchema onePerson) hcalm returnsRow_person (fun o ho => by cases ho)
    _ _).2 (.inr hzeros)

/-- The member of the missing score keeps its ones on the direct path and loses them on the buffered
one. -/
theorem buffered_read_zeroes :
    let read := fun opts => (sqlRDBRead (driver .sqlite (sqlEngine plainSemantics))
      (some (lit "persons")) none ⟨some ⟨48, fun _ => 1, false⟩, some fun _ => 0⟩ opts
      onePersonHandle).1
    ReturnsRow .sqlite (sqlEngine plainSemantics) personsSchema none
        onePersonHandle.store.contents personCells ∧
      (read none).1 = .ok ∧ (read none).2.row.map (fun out => out.data 40) = some 0 ∧
      (read (some ⟨true⟩)).1 = .ok ∧
      (read (some ⟨true⟩)).2.row.map (fun out => out.data 40) = some 1 :=
  ⟨returnsRow_person, by decide +kernel, by decide +kernel, by decide +kernel, by decide +kernel⟩

end C2Sql
