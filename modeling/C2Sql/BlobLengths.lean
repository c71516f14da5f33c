import C2Sql.BlobFields
import C2Sql.RowMemory

/-!
# The lengths of stored BLOBs

The drivers pass the length of a BLOB to the database as an `int`. What the tables hold after
`SqlRDBWrite` and `SqlRDBWriteBlobField`: a BLOB is stored whole if its length is one that an `int`
can hold, and a call that succeeds with a longer one has stored something else.

* `Inserted`: what the statement of a write does to a table, with a key or without;
* `StoresRow`, `StoresField`: BLOBs are stored whole, or not at all;
* `blobs_whole_iff`: when they are.
-/

namespace C2Sql

open SqlText StateLogic

variable {dialect : C2SqlDialect} {sem : SqlSemantics} {schema : SqlRDBSchema}

/-! ## The statement of a write -/

/-- A cell has the value `v`, or one that the engine cannot tell from it. -/
def IsCell (sem : SqlSemantics) (u v : SqlValue) : Prop := u = v ∨ sem.cmp .eq u v = some true

/-- A table after a new row has been written: a cell is one of before or one of the new row, and
there is a row with the cells of the new one. -/
structure Inserted (sem : SqlSemantics) (schema : SqlRDBSchema) (new : Row SqlValue)
    (t t' : Table SqlValue) : Prop where
  cells : ∀ r ∈ t'.rows, ∀ n, (∃ r₀ ∈ t.rows, r n = r₀ n) ∨ r n = new n
  row : ∃ r ∈ t'.rows, ∀ c ∈ schema.cols, IsCell sem (r (sem.fold c.name)) (new (sem.fold c.name))

/-- Without a key, the new row is added. -/
theorem inserted_append {new : Row SqlValue} {t : Table SqlValue} {rows : List (Row SqlValue)}
    (hperm : rows.Perm (t.rows ++ [new])) : Inserted sem schema new t { t with rows := rows } where
  cells r hr n := by
    rcases List.mem_append.1 (hperm.mem_iff.1 hr) with hr | hr
    · exact .inl ⟨r, hr, rfl⟩
    · exact .inr (by rw [List.mem_singleton.1 hr])
  row := ⟨new, hperm.mem_iff.2 (by simp), fun _ _ => .inl rfl⟩

/-- With a key, the new row is added or merged with those that have its key. -/
theorem inserted_upsert {i : ℕ} (hi : schema.pkIndex = some i) (hs : schema.WellFormed)
    {new : Row SqlValue} {t : Table SqlValue} {rows : List (Row SqlValue)}
    (hperm : rows.Perm (upsertRows (sameKeyOf sem schema) (mergeOf sem schema) new t.rows)) :
    Inserted sem schema new t { t with rows := rows } where
  cells r hr n := by
    rw [hperm.mem_iff, upsertRows_eq] at hr
    rcases List.mem_append.1 hr with hr | hr
    · obtain ⟨r₀, hmem, rfl⟩ := List.mem_map.1 hr
      split_ifs
      · rw [mergeOf_eq]
        split_ifs
        · exact .inr rfl
        · exact .inl ⟨r₀, hmem, rfl⟩
      · exact .inl ⟨r₀, hmem, rfl⟩
    · split_ifs at hr
      · cases hr
      · exact .inr (by rw [List.mem_singleton.1 hr])
  row := by
    by_cases hany : t.rows.any (fun r => sameKeyOf sem schema r new) = true
    · obtain ⟨r, hr, hsame⟩ := List.any_eq_true.1 hany
      refine ⟨mergeOf sem schema r new, hperm.mem_iff.2 ?_, fun c hc => ?_⟩
      · rw [upsertRows, if_pos hany]
        exact List.mem_map.2 ⟨r, hr, if_pos hsame⟩
      · rw [mergeOf_eq]
        split_ifs with hin
        · exact .inl rfl
        · -- only the key column is not set
          obtain ⟨k, hik, -, hname⟩ := exists_of_pkIndex hs hi
          have hck : c = k := by
            by_contra hne
            refine hin (List.mem_map_of_mem ((mem_nonPkCols_iff hi).2 ?_))
            obtain ⟨j, hj⟩ := List.mem_iff_getElem?.1 hc
            refine ⟨j, hj, fun hji => hne ?_⟩
            rw [hji, hik] at hj
            exact (Option.some.inj hj).symm
          rw [sameKeyOf_eq, hasKey, hname, ← hck, beq_iff_eq] at hsame
          exact .inr hsame
    · refine ⟨new, hperm.mem_iff.2 ?_, fun _ _ => .inl rfl⟩
      rw [upsertRows, if_neg hany]
      simp

/-- **The statement of a write writes the row**, with a key or without. -/
theorem inserted_of_exec (hs : schema.WellFormed) {vs : List SqlValue} {db : Catalog SqlValue}
    {res : Result SqlValue} (h : sem.exec (writeStatement schema) vs db = some res)
    {t : Table SqlValue} (ht : db (sem.fold schema.name) = some t) :
    ∃ t', res.db (sem.fold schema.name) = some t' ∧
      Inserted sem schema (writtenRow sem schema vs) t t' := by
  have heff := (Semantics.effect_of_exec h).2
  rw [writeStatement, insertStatement, Semantics.effect_insert_iff] at heff
  obtain ⟨t', rows, ht', -, hrows, -, rfl⟩ := heff
  cases ht.symm.trans ht'
  refine ⟨_, Function.update_self .., ?_⟩
  cases hi : schema.pkIndex with
  | none =>
    rw [hi] at hrows
    cases hrows
    exact inserted_append (sem.order_perm _ _)
  | some i =>
    rw [hi, if_pos (show (some i).isSome = true from rfl), Semantics.inserted] at hrows
    split_ifs at hrows with htarget
    cases hrows
    refine inserted_upsert hi hs ((sem.order_perm _ _).trans (.of_eq ?_))
    rw [← htarget.1]
    simp only [sameKeyOf, mergeOf, upsertOf, List.map_map]
    rfl

/-! ## Writing a row -/

section Row

variable (sem schema) (row : Mem) (nullMap : Option Mem)

/-- The column has a BLOB to store. -/
structure HasBlob (j : ℕ) (c : SqlRDBColumnDef) : Prop where
  column : schema.cols[j]? = some c
  blob : c.type = .blob
  not_null : nullBitGet nullMap j = false

/-- The lengths of the BLOBs of a row fit an `int`. -/
def ShortBlobs : Prop := ∀ j c, HasBlob schema nullMap j c → c.size < 2 ^ 31

/-- A row is stored with all the bytes of its BLOBs, and not at all if one of them is too long. The
row that is stored is the one whose other columns, too, are what has been made of the values
that `bind_row` supplies. -/
structure StoresRow (res : SqlRDBResult × TableHandle) : Prop where
  whole : res.1 = .ok → ∃ t r, res.2.store.contents (sem.fold schema.name) = some t ∧ r ∈ t.rows ∧
    (∀ j c v, schema.cols[j]? = some c → colBind row nullMap j c = .ok v →
      IsCell sem (r (sem.fold c.name)) (sem.taken v)) ∧
    ∀ j c, HasBlob schema nullMap j c → r (sem.fold c.name) = .blob (row.read c.offset c.size)
  refused : ∀ j c, HasBlob schema nullMap j c → 2 ^ 31 ≤ c.size → res.1 ≠ .ok

/-- The row can be bound, and the engine runs the statement with it. -/
def RunsWrite (dialect : C2SqlDialect) (db : Catalog SqlValue) : Prop :=
  ∃ vs o, (rowBinds row nullMap 0 schema.cols).values = some vs ∧
    (sqlEngine sem).run (writeSql dialect schema) vs db = some o

variable {sem schema nullMap}

theorem HasBlob.colBind_eq {j : ℕ} {c : SqlRDBColumnDef} (hb : HasBlob schema nullMap j c) :
    colBind row nullMap j c = .ok (.blob (row.read c.offset c.size)) := by
  rw [colBind, hb.not_null, if_neg Bool.false_ne_true, boundValue, hb.blob]

variable {row} (hs : schema.WellFormed) {name : CStr} {t : Table SqlValue} {h : TableHandle}
  (hh : OverTable dialect sem name schema t h)

include hs hh

/-- What a successful write has done to the table. -/
theorem inserted_of_write
    (hok : (sqlRDBWrite (driver dialect (sqlEngine sem)) (some name) (some row) nullMap h).1 =
      .ok) :
    ∃ vs t', (rowBinds row nullMap 0 schema.cols).values = some vs ∧
      (sqlRDBWrite (driver dialect (sqlEngine sem)) (some name) (some row) nullMap
        h).2.store.contents (sem.fold schema.name) = some t' ∧
      Inserted sem schema (writtenRow sem schema vs) t t' := by
  obtain ⟨-, -, -, -, -, hdone⟩ : wp _ _ h :=
    write_outcome hh.sound hh.valid hh.lookup hs row nullMap
  obtain ⟨vs, o, hvals, hrun, hdb⟩ := hdone hok
  obtain ⟨st, res, hparsed, hexec, rfl⟩ := sqlEngine_run_iff.1 hrun
  by_cases hset : schema.pkIndex.isSome = true ∧ nonPkCols schema = []
  · rw [parsed_writeSql_eq_none hs dialect hset.1 hset.2] at hparsed
    cases hparsed
  · rw [parsed_writeSql hs dialect fun hpk hnil => hset ⟨hpk, hnil⟩] at hparsed
    cases hparsed
    obtain ⟨t', ht', hins⟩ := inserted_of_exec hs hexec hh.table
    exact ⟨vs, t', hvals, (congrFun hdb _).trans ht', hins⟩

/-- Short BLOBs are stored whole. -/
theorem storesRow_of_short (hshort : ShortBlobs schema nullMap) :
    StoresRow sem schema row nullMap
      (sqlRDBWrite (driver dialect (sqlEngine sem)) (some name) (some row) nullMap h) := by
  refine ⟨fun hok => ?_, fun j c hb hlong => absurd (hshort j c hb) (not_lt.2 hlong)⟩
  obtain ⟨vs, t', hvals, ht', hins⟩ := inserted_of_write hs hh hok
  obtain ⟨r, hr, hcells⟩ := hins.row
  have hrow : ∀ j c v, schema.cols[j]? = some c → colBind row nullMap j c = .ok v →
      IsCell sem (r (sem.fold c.name)) (sem.taken v) := by
    intro j c v hj hv
    obtain ⟨v', hv', hnew⟩ := writtenRow_of_colBind hvals hh.tableOf.nodup hj
    cases hv.symm.trans hv'
    rw [← hnew]
    exact hcells c (List.mem_of_getElem? hj)
  refine ⟨t', r, ht', hr, hrow, fun j c hb => ?_⟩
  have hlen : (row.read c.offset c.size).length < 2 ^ 31 := by
    rw [Mem.length_read]
    exact hshort j c hb
  have hcell := hrow j c _ hb.column (hb.colBind_eq row)
  rw [SqlSemantics.taken_blob hlen] at hcell
  obtain heq | heq := hcell
  · exact heq
  · exact sem.eq_blob heq

/-- A row that is stored whole has short BLOBs: a table holds no others. -/
theorem short_of_storesRow
    (hstores : StoresRow sem schema row nullMap
      (sqlRDBWrite (driver dialect (sqlEngine sem)) (some name) (some row) nullMap h))
    (hok : (sqlRDBWrite (driver dialect (sqlEngine sem)) (some name) (some row) nullMap h).1 =
      .ok) :
    ShortBlobs schema nullMap := by
  intro j c hb
  obtain ⟨t₁, r, ht₁, hr, -, hblobs⟩ := hstores.whole hok
  obtain ⟨vs, t', hvals, ht', hins⟩ := inserted_of_write hs hh hok
  cases ht₁.symm.trans ht'
  have hheld : (r (sem.fold c.name)).Holdable sem.keepsNaN := by
    obtain ⟨r₀, hr₀, heq⟩ | heq := hins.cells r hr (sem.fold c.name)
    · rw [heq]
      exact hh.tableOf.held r₀ hr₀ _
    · rw [heq]
      exact writtenRow_held _
  rw [hblobs j c hb, SqlValue.Holdable, Mem.length_read] at hheld
  exact hheld

/-- Without failures, a write succeeds if the engine runs its statement. -/
theorem write_of_runsWrite (hcalm : h.Calm)
    (hrun : RunsWrite sem schema row nullMap dialect h.store.contents) :
    (sqlRDBWrite (driver dialect (sqlEngine sem)) (some name) (some row) nullMap h).1 = .ok := by
  obtain ⟨vs, o, hvals, hrun⟩ := hrun
  obtain ⟨st, -, hparsed, -, -⟩ := sqlEngine_run_iff.1 hrun
  exact write_ok hh.sound hh.valid hh.lookup hs hcalm.faults hcalm.heap (sqlEngine_compiles hparsed)
    hvals hrun

end Row

/-! ## Writing a field -/

section Field

variable (sem schema) (key : SqlRDBCondition) (col : CStr) (bytes : List UInt8)

/-- A field is stored with all its bytes, in the row that the key finds, and not at all if they are
too many. -/
structure StoresField (t : Table SqlValue) (res : SqlRDBResult × TableHandle) : Prop where
  whole : res.1 = .ok → ∃ t' r, foundRows sem key t = [r] ∧
    res.2.store.contents (sem.fold schema.name) = some t' ∧
    Function.update r (sem.fold col) (.blob bytes) ∈ t'.rows
  refused : 2 ^ 31 ≤ bytes.length → res.1 ≠ .ok

/-- The key finds one row, and the engine runs the statements of the call. -/
structure RunsField (dialect : C2SqlDialect) (t : Table SqlValue) (db : Catalog SqlValue) :
    Prop where
  column : ∃ c, findCol schema col = some c ∧ c.type = .blob
  look : Executes dialect sem (lookSpec dialect schema col key) (condValues (some key)) db
  one : (foundRows sem key t).length = 1
  cell : Executes dialect sem (cellSpec dialect schema col key)
    (.blob bytes :: condValues (some key)) db

variable {sem schema key col bytes} (hs : schema.WellFormed) {name : CStr} {t : Table SqlValue}
  {h : TableHandle} (hh : OverTable dialect sem name schema t h)

include hh in
/-- A call that succeeds has a BLOB column. -/
theorem hasField_of_writeField (hok : (writeField dialect sem name col key bytes h).1 = .ok) :
    HasField dialect sem name schema col h := by
  refine ⟨hh.sound, hh.valid, hh.lookup, ?_⟩
  by_contra hcol
  have hwp : wp (writeField dialect sem name col key bytes) (fun r _ => r ≠ .ok) h := by
    have hlook₁ : ({ h with mutex := h.mutex.lock }).lookup name = some schema := hh.lookup
    simp only [writeField, sqlRDBWriteBlobField, wp_bind, wp_get, hh.valid, Bool.not_true,
      Bool.false_eq_true, if_false, wp_mutexLock, hlook₁]
    cases hfind : findCol schema col with
    | none =>
      simp only [wp_bind, wp_mutexUnlock, wp_pure]
      rintro ⟨⟩
    | some c =>
      have htype : c.type ≠ .blob := fun htype => hcol ⟨c, hfind, htype⟩
      simp only
      rw [wp_ite, if_pos htype]
      simp only [wp_bind, wp_errSet, wp_mutexUnlock, wp_pure]
      rintro ⟨⟩
  exact hwp hok

include hs hh

/-- What a successful call has done to the table. -/
theorem cellWritten_of_writeField
    (hok : (writeField dialect sem name col key bytes h).1 = .ok) :
    ∃ r, foundRows sem key t = [r] ∧
      (writeField dialect sem name col key bytes h).2.store.contents (sem.fold schema.name) =
        some (cellWritten sem col key bytes t) := by
  have hf := hasField_of_writeField hh hok
  obtain ⟨c, hcol, htype⟩ := hf.column
  obtain ⟨-, -, -, -, hdone, -⟩ : wp _ _ h :=
    writeBlobField_spec hs (hf.quote_not_mem hs) hh.sound hh.valid hh.lookup hcol htype bytes
  obtain ⟨t', hfound, hone, -, hcontents⟩ := hdone hok
  cases hh.table.symm.trans hfound.table
  obtain ⟨r, hr⟩ := List.length_eq_one_iff.1 hone
  exact ⟨r, hr, (congrFun hcontents _).trans (Function.update_self ..)⟩

/-- A short BLOB is stored whole. -/
theorem storesField_of_short (hshort : bytes.length < 2 ^ 31) :
    StoresField sem schema key col bytes t (writeField dialect sem name col key bytes h) := by
  refine ⟨fun hok => ?_, fun hlong => absurd hshort (not_lt.2 hlong)⟩
  obtain ⟨r, hr, hcontents⟩ := cellWritten_of_writeField hs hh hok
  refine ⟨_, r, hr, hcontents, ?_⟩
  have hmem : r ∈ foundRows sem key t := by
    rw [hr]
    exact List.mem_singleton_self r
  obtain ⟨hmem, hfinds⟩ := List.mem_filter.1 hmem
  refine (sem.order_perm _ _).mem_iff.2 (List.mem_map.2 ⟨r, hmem, ?_⟩)
  rw [if_pos hfinds, SqlSemantics.taken_blob hshort]

/-- Bytes that are stored whole are not too many: a table holds no longer BLOB. -/
theorem short_of_storesField
    (hstores : StoresField sem schema key col bytes t
      (writeField dialect sem name col key bytes h))
    (hok : (writeField dialect sem name col key bytes h).1 = .ok) : bytes.length < 2 ^ 31 := by
  obtain ⟨t₁, r, -, ht₁, hmem⟩ := hstores.whole hok
  obtain ⟨-, -, hcontents⟩ := cellWritten_of_writeField hs hh hok
  cases ht₁.symm.trans hcontents
  rw [cellWritten, (sem.order_perm _ _).mem_iff] at hmem
  obtain ⟨r₀, hr₀, heq⟩ := List.mem_map.1 hmem
  have hheld : ∀ n, (Function.update r (sem.fold col) (.blob bytes) n).Holdable sem.keepsNaN := by
    intro n
    rw [← heq]
    split_ifs
    · rw [Function.update_apply]
      split_ifs
      · exact SqlSemantics.taken_holdable _
      · exact hh.tableOf.held r₀ hr₀ n
    · exact hh.tableOf.held r₀ hr₀ n
  have hcell := hheld (sem.fold col)
  rw [Function.update_self] at hcell
  exact hcell

/-- Without failures, the call succeeds if its key finds one row and its statements run. -/
theorem writeField_of_runsField (hcalm : h.Calm)
    (hrun : RunsField sem schema key col bytes dialect t h.store.contents) :
    (writeField dialect sem name col key bytes h).1 = .ok := by
  obtain ⟨c, hcol, htype⟩ := hrun.column
  have hf : HasField dialect sem name schema col h :=
    ⟨hh.sound, hh.valid, hh.lookup, c, hcol, htype⟩
  obtain ⟨-, -, -, -, -, hcode⟩ : wp _ _ h :=
    writeBlobField_spec hs (hf.quote_not_mem hs) hh.sound hh.valid hh.lookup hcol htype bytes
  obtain ⟨t', hfound⟩ := found_of_executes hs (hf.quote_not_mem hs) hrun.look
  cases hh.table.symm.trans hfound.table
  exact (hcode hcalm hrun.look t hfound).2.2 hrun.one hrun.cell

end Field

/-! ## Both calls -/

/-- **When no BLOB is shortened.** `SqlRDBWrite` and `SqlRDBWriteBlobField` on a handle over a table
of the struct: BLOBs whose lengths an `int` can hold are stored whole whatever fails, and where the
statements run, they are stored whole or refused only then. -/
theorem blobs_whole_iff {name : CStr} (hacc : schema.Accepted) {t : Table SqlValue}
    {h : TableHandle} (hh : OverTable dialect sem name schema t h) (row : Mem)
    (nullMap : Option Mem) (key : SqlRDBCondition) (col : CStr) (bytes : List UInt8) :
    let written := sqlRDBWrite (driver dialect (sqlEngine sem)) (some name) (some row) nullMap h
    let field := sqlRDBWriteBlobField (driver dialect (sqlEngine sem)) (some name) (some key)
      (some col) (some bytes) h
    (ShortBlobs schema nullMap → StoresRow sem schema row nullMap written) ∧
      (bytes.length < 2 ^ 31 → StoresField sem schema key col bytes t field) ∧
      (h.Calm → RunsWrite sem schema row nullMap dialect h.store.contents →
        (StoresRow sem schema row nullMap written ↔ ShortBlobs schema nullMap)) ∧
      (h.Calm → RunsField sem schema key col bytes dialect t h.store.contents →
        (StoresField sem schema key col bytes t field ↔ bytes.length < 2 ^ 31)) := by
  have hs := (SqlRDBSchema.accepted_iff schema).1 hacc
  refine ⟨storesRow_of_short hs hh, storesField_of_short hs hh, fun hcalm hrun => ?_,
    fun hcalm hrun => ?_⟩
  · have hok := write_of_runsWrite hs hh hcalm hrun
    exact ⟨fun hstores => short_of_storesRow hs hh hstores hok, storesRow_of_short hs hh⟩
  · have hok := writeField_of_runsField hs hh hcalm hrun
    exact ⟨fun hstores => short_of_storesField hs hh hstores hok, storesField_of_short hs hh⟩

/-! ## Samples -/

/-- A struct with a BLOB of four bytes. -/
def iconsSchema : SqlRDBSchema where
  name := lit "icons"
  cols := [⟨lit "id", .int32, 0, 4, 1⟩, ⟨lit "icon", .blob, 4, 4, 0⟩]
  pkIndex := some 0

/-- A table with one icon. -/
def iconTable : Table SqlValue :=
  { createdTable .sqlite iconsSchema with
    rows := [fun n => if n = lit "id" then .int 0 else .null] }

/-- The handle over this table. -/
def iconHandle : TableHandle := tableHandle iconsSchema iconTable

/-- A handle over a table with one row. -/
theorem overTable_of_row {r : Row SqlValue} (hs : schema.WellFormed)
    (hheld : ∀ n, (r n).Holdable false)
    (htyped : ∀ c ∈ schema.cols, r c.name = .null ∨ (r c.name).type = c.type.valueType) :
    OverTable .sqlite plainSemantics schema.name schema
      { createdTable .sqlite schema with rows := [r] }
      (tableHandle schema { createdTable .sqlite schema with rows := [r] }) := by
  have hof : TableOf plainSemantics schema (createdTable .sqlite schema) :=
    tableOf_createdTable hs.nodup
  refine ⟨cacheSound_tableHandle _ _ _, rfl, lookup_tableHandle _ _, if_pos rfl, hof.has_col,
    hof.nodup, hof.key_eq, List.pairwise_singleton _ _, fun r' hr => ?_, fun r' hr => ?_⟩
  · rw [List.mem_singleton.1 hr]
    exact hheld
  · rw [List.mem_singleton.1 hr]
    exact htyped

theorem iconsSchema_accepted : iconsSchema.Accepted :=
  ⟨[], some (lit "icons"), some (iconsSchema.cols.map some), rfl⟩

theorem overTable_iconHandle :
    OverTable .sqlite plainSemantics (lit "icons") iconsSchema iconTable iconHandle := by
  refine overTable_of_row ((SqlRDBSchema.accepted_iff _).1 iconsSchema_accepted) (fun n => ?_)
    (by decide)
  split_ifs <;> trivial

/-- The icon is stored, by either call. -/
theorem blobs_whole_icon :
    let written := sqlRDBWrite (driver .sqlite (sqlEngine plainSemantics)) (some (lit "icons"))
      (some fun _ => 0) none iconHandle
    let field := sqlRDBWriteBlobField (driver .sqlite (sqlEngine plainSemantics))
      (some (lit "icons")) (some (.leaf (lit "id") .eq (.int 0))) (some (lit "icon"))
      (some [7, 8]) iconHandle
    written.1 = .ok ∧ field.1 = .ok ∧
      StoresRow plainSemantics iconsSchema (fun _ => 0) none written ∧
      StoresField plainSemantics iconsSchema (.leaf (lit "id") .eq (.int 0)) (lit "icon") [7, 8]
        iconTable field := by
  intro written field
  have hsize : ∀ c ∈ iconsSchema.cols, c.size < 2 ^ 31 := by decide
  obtain ⟨hrow, hfield, -, -⟩ := blobs_whole_iff iconsSchema_accepted overTable_iconHandle
    (fun _ => 0) none (.leaf (lit "id") .eq (.int 0)) (lit "icon") [7, 8]
  exact ⟨by decide +kernel, by decide +kernel,
    hrow fun j c hb => hsize c (List.mem_of_getElem? hb.column), hfield (by decide)⟩

/-- The key of the row with the number 1. -/
def firstKey : SqlRDBCondition := .leaf (lit "id") .eq (.int 1)

theorem overTable_noteHandle :
    OverTable .sqlite plainSemantics (lit "notes") notesSchema noteTable noteHandle := by
  refine overTable_of_row ((SqlRDBSchema.accepted_iff _).1 notesSchema_accepted) (fun n => ?_)
    (by decide)
  rw [noteRow]
  split_ifs
  · trivial
  · exact (by decide : (List.replicate 5 (0 : UInt8)).length < 2 ^ 31)
  · trivial

/-- Bytes whose number is cut to five are written. -/
theorem writeField_sevens {n : ℕ} (hn : cInt n = 5) (hle : 5 ≤ n) :
    (writeField .sqlite plainSemantics (lit "notes") (lit "body") firstKey (List.replicate n 7)
      noteHandle).1 = .ok := by
  have hvalues : storedValues (.blob (List.replicate n 7) :: condValues (some firstKey)) =
      [.blob (List.replicate 5 7), .int 1] := by
    rw [storedValues, List.map_cons, storedValue_replicate (m := 5) hn hle 7]
    rfl
  have hrun : RunsField plainSemantics notesSchema firstKey (lit "body") (List.replicate n 7)
      .sqlite noteTable noteHandle.store.contents :=
    { column := noteHandle_hasField.column
      look := executes_note rfl (by decide +kernel) (show 1 < 2 ^ 31 by norm_num) rfl
      one := rfl
      cell := executes_note rfl (by decide +kernel) (show 2 < 2 ^ 31 by norm_num)
        (by rw [hvalues]; rfl) }
  exact writeField_of_runsField ((SqlRDBSchema.accepted_iff _).1 notesSchema_accepted)
    overTable_noteHandle noteHandle_calm hrun

/-- Five of them are stored. -/
theorem contents_sevens {n : ℕ} (hn : cInt n = 5) (hle : 5 ≤ n) :
    ∃ t, (writeField .sqlite plainSemantics (lit "notes") (lit "body") firstKey
        (List.replicate n 7) noteHandle).2.store.contents (plainSemantics.fold notesSchema.name) =
          some t ∧
      t.rows.map (fun r => r (lit "body")) = [.blob (List.replicate 5 7)] := by
  obtain ⟨r, -, hcontents⟩ := cellWritten_of_writeField
    ((SqlRDBSchema.accepted_iff _).1 notesSchema_accepted) overTable_noteHandle
    (writeField_sevens hn hle)
  refine ⟨cellWritten plainSemantics (lit "body") firstKey (List.replicate n 7) noteTable,
    hcontents, ?_⟩
  rw [cellWritten, SqlSemantics.taken, storedValue_replicate (m := 5) hn hle 7]
  decide +kernel

/-- BLOBs of four gigabytes and five bytes are stored with five bytes, by either call. -/
theorem write_shortens_blob :
    HasBlob notesSchema none 1 ⟨lit "body", .blob, 8, 4294967301, 0⟩ ∧
      (writeRow .sqlite plainSemantics (lit "notes") (fun _ => 0, none) notesHandle).1 = .ok ∧
      (∃ t, (writeRow .sqlite plainSemantics (lit "notes") (fun _ => 0, none)
          notesHandle).2.store.contents (lit "notes") = some t ∧
        t.rows.map (fun r => r (lit "body")) = [.blob (List.replicate 5 0)]) ∧
      (writeField .sqlite plainSemantics (lit "notes") (lit "body") firstKey
        (List.replicate 4294967301 7) noteHandle).1 = .ok ∧
      ∃ t, (writeField .sqlite plainSemantics (lit "notes") (lit "body") firstKey
          (List.replicate 4294967301 7) noteHandle).2.store.contents
            (plainSemantics.fold notesSchema.name) = some t ∧
        t.rows.map (fun r => r (lit "body")) = [.blob (List.replicate 5 7)] := by
  have hs := (SqlRDBSchema.accepted_iff _).1 notesSchema_accepted
  refine ⟨⟨rfl, rfl, rfl⟩, writeRow_notes, ?_, writeField_sevens (by decide) (by decide),
    contents_sevens (by decide) (by decide)⟩
  obtain ⟨vs, hvals, -, hcontents⟩ :=
    (writeRow_spec hs oneKey_notesSchema overTable_notesHandle (fun _ => 0, none)).2 writeRow_notes
  cases values_notes.symm.trans hvals
  exact ⟨_, (congrFun hcontents _).trans (Function.update_self ..), by decide +kernel⟩

end C2Sql
