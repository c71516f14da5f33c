import C2Sql.KeyedWrites

/-!
# BLOB fields in a table

`SqlRDBWriteBlobField` and `SqlRDBReadBlobField` on an engine of tables.

* `looked_selectField`: the look-up of both calls changes nothing and finds the rows of its key;
* `writeBlobField_spec`: a write changes one cell, or nothing;
* `writesCell_of_carried`, `readField_of_matching`: what a write sets and a read finds if nothing
  fails;
* `blobField_one_cell`: both calls together.
-/

namespace C2Sql

open SqlText StateLogic

/-- The name of a column has no quotes. -/
theorem quote_not_mem_of_findCol {schema : SqlRDBSchema} (hs : schema.WellFormed) {col : CStr}
    {c : SqlRDBColumnDef} (hc : findCol schema col = some c) : byte '"' ∉ col := by
  have hname : c.name = col := by simpa using List.find?_some hc
  exact hname ▸ quote_not_mem (hs.col_valid c (List.mem_of_find?_eq_some hc))

section Field

variable {dialect : C2SqlDialect} {sem : SqlSemantics} {h h' : TableHandle} {schema : SqlRDBSchema}
  {col : CStr} {key : SqlRDBCondition}

/-- The look-up of a key in a table. -/
abbrev lookSpec (dialect : C2SqlDialect) (schema : SqlRDBSchema) (col : CStr)
    (key : SqlRDBCondition) : SqlRDBQuerySpec := fieldSpec .selectField key col dialect schema

/-- A key finds a row, with its values as they are bound. -/
def finds (sem : SqlSemantics) (key : SqlRDBCondition) : Row SqlValue → Bool :=
  sem.selects (whereExpr (some key) 0) (storedValues (condValues (some key)))

/-- The rows that the look-up of a key finds. -/
def foundRows (sem : SqlSemantics) (key : SqlRDBCondition) (t : Table SqlValue) :
    List (Row SqlValue) :=
  t.rows.filter (finds sem key)

/-- A table in which a key can be looked up. -/
structure Found (sem : SqlSemantics) (schema : SqlRDBSchema) (key : SqlRDBCondition)
    (db : Catalog SqlValue) (t : Table SqlValue) : Prop where
  root : RootOnly (some key)
  length_lt : (condValues (some key)).length < 2 ^ 31
  table : db (sem.fold schema.name) = some t

theorem Found.unique {db : Catalog SqlValue} {t t' : Table SqlValue}
    (hf : Found sem schema key db t) (hf' : Found sem schema key db t') : t = t' :=
  Option.some.inj (hf.table.symm.trans hf'.table)

variable (hs : schema.WellFormed) (hq : byte '"' ∉ col)

include hs hq

/-- **The look-up of a key** changes nothing, and finds its rows unless something fails. -/
theorem looked_selectField {α : Type} {old : α} {x : SqlRDBResult × α}
    {Out : List (List SqlValue) → SqlRDBResult × α → Prop}
    (hl : Looked dialect (sqlEngine sem) (lookSpec dialect schema col key)
      (condValues (some key)) h old Out x h') :
    CacheSound dialect (sqlEngine sem) h' ∧ h'.frame = h.frame ∧
      (∃ k, h'.ctx.conn = { h.ctx.conn with tick := k }) ∧
      ((x.1 ≠ .ok ∧ ¬(h.Calm ∧ Executes dialect sem (lookSpec dialect schema col key)
          (condValues (some key)) h.store.contents)) ∨
        ∃ t, Found sem schema key h.store.contents t ∧
          Out ((foundRows sem key t).map fun r => [r (sem.fold col)]) x) := by
  obtain ⟨hs', hk, ⟨hr, -, hc, hu⟩ | ⟨sql, n, res, c, k, hp, hran, hc, herr, hout⟩⟩ := hl
  · exact ⟨hs', hk, ⟨_, hc⟩, .inl ⟨hr, fun ⟨hcalm, hex⟩ => hex.not_unprepared hcalm hu⟩⟩
  · cases res with
    | error r' =>
      obtain ⟨hr', k', rfl⟩ := hran.error r' rfl
      obtain rfl := herr r' rfl
      refine ⟨hs', hk, ⟨k, hc⟩, .inl ⟨hr', fun ⟨hcalm, hex⟩ => ?_⟩⟩
      obtain ⟨rows, hrows⟩ := hex.ran_ok hcalm hp hran
      cases hrows
    | ok rows =>
      obtain ⟨o, k', hlen, hrun, rfl, rfl⟩ := hran.ok rows rfl
      obtain ⟨hroot, t, ht, rfl⟩ := run_selectField hs hrun hq hlen hp.build_eq
      exact ⟨hs', hk, ⟨k, hc⟩, .inr ⟨t, ⟨hroot, hlen, ht⟩, hout _ rfl⟩⟩

omit hs hq in
theorem SqlRDBHandle.Calm.of_frame (hcalm : h.Calm) (hk : h'.frame = h.frame)
    (hf : h'.ctx.conn.faults = h.ctx.conn.faults) : h'.Calm where
  faults := by
    rw [hf]
    exact hcalm.faults
  heap := by
    rw [SqlRDBHandle.fails_of_frame hk]
    exact hcalm.heap

/-- The UPDATE of a cell. -/
abbrev cellSpec (dialect : C2SqlDialect) (schema : SqlRDBSchema) (col : CStr)
    (key : SqlRDBCondition) : SqlRDBQuerySpec := fieldSpec .updateField key col dialect schema

/-- The table after bytes have been written to a column of the rows that are found. -/
def cellWritten (sem : SqlSemantics) (col : CStr) (key : SqlRDBCondition) (bytes : List UInt8)
    (t : Table SqlValue) : Table SqlValue where
  columns := t.columns
  rows := sem.order t (t.rows.map fun r =>
    if finds sem key r then Function.update r (sem.fold col) (sem.taken (.blob bytes)) else r)

/-- **The UPDATE of a cell** writes the bytes as they are taken, or nothing. -/
theorem operated_updateField {bytes : List UInt8} {r : SqlRDBResult}
    (ho : Operated dialect (sqlEngine sem) (cellSpec dialect schema col key)
      (.blob bytes :: condValues (some key)) h r (fun _ _ => True) h') :
    CacheSound dialect (sqlEngine sem) h' ∧ h'.frame = h.frame ∧
      h'.ctx.conn.faults = h.ctx.conn.faults ∧
      (r ≠ .ok → h'.store.contents = h.store.contents ∧
        ¬(h.Calm ∧ Executes dialect sem (cellSpec dialect schema col key)
          (.blob bytes :: condValues (some key)) h.store.contents)) ∧
      (r = .ok → ∃ t, Found sem schema key h.store.contents t ∧
        sem.KeysUnique (cellWritten sem col key bytes t) ∧
        h'.store.contents = Function.update h.store.contents (sem.fold schema.name)
          (some (cellWritten sem col key bytes t))) := by
  obtain ⟨hs', hk, ⟨hr, hc, hu⟩ | ⟨sql, n, res, hp, hran, rfl, -⟩⟩ := ho
  · have hstore : h'.store = h.store := congrArg Conn.store hc
    exact ⟨hs', hk, by rw [hc], fun _ => ⟨by rw [hstore], fun ⟨hcalm, hex⟩ =>
      hex.not_unprepared hcalm hu⟩, fun h => absurd h hr⟩
  · refine ⟨hs', hk, hran.faults_eq, ?_⟩
    cases res with
    | error r =>
      obtain ⟨hr, k, hc⟩ := hran.error r rfl
      have hstore : h'.store = h.store := (congrArg Conn.store hc).trans rfl
      refine ⟨fun _ => ⟨by rw [hstore], fun ⟨hcalm, hex⟩ => ?_⟩, fun h => absurd h hr⟩
      obtain ⟨rows, hrows⟩ := hex.ran_ok hcalm hp hran
      cases hrows
    | ok rows =>
      obtain ⟨o, k, hlen, hrun, -, hc⟩ := hran.ok rows rfl
      have hlen' : (condValues (some key)).length < 2 ^ 31 :=
        lt_of_le_of_lt (Nat.le_succ _) hlen
      obtain ⟨hroot, t, ht, hunique, hdb⟩ := run_updateField hs hrun hq hlen' hp.build_eq
      have hsel : sem.selects (whereExpr (some key) 1)
          (storedValues (.blob bytes :: condValues (some key))) = finds sem key :=
        selects_append hroot [storedValue (.blob bytes)] (storedValues (condValues (some key)))
      have hcell : sem.param (storedValues (.blob bytes :: condValues (some key))) 1 =
          sem.taken (.blob bytes) := SqlSemantics.param_storedValues (k := 0) rfl
      simp only [Semantics.updated, hsel, hcell] at hunique hdb
      refine ⟨fun h => absurd rfl h, fun _ => ⟨t, ⟨hroot, hlen', ht⟩, hunique, ?_⟩⟩
      exact (congrArg (fun c : Conn _ => c.store.contents) hc).trans hdb

/-- **`SqlRDBWriteBlobField`** changes the cell of the one row that its key finds, or nothing. -/
theorem writeBlobField_spec (hsound : CacheSound dialect (sqlEngine sem) h) (hv : h.valid = true)
    {name : CStr} (hlook : h.lookup name = some schema) {c : SqlRDBColumnDef}
    (hcol : findCol schema col = some c) (htype : c.type = .blob) (bytes : List UInt8) :
    wp (sqlRDBWriteBlobField (driver dialect (sqlEngine sem)) (some name) (some key) (some col)
      (some bytes)) (fun r h' =>
        CacheSound dialect (sqlEngine sem) h' ∧ h'.frame = h.frame ∧
        h'.ctx.conn.faults = h.ctx.conn.faults ∧
        (r ≠ .ok → h'.store.contents = h.store.contents) ∧
        (r = .ok → ∃ t, Found sem schema key h.store.contents t ∧
          (foundRows sem key t).length = 1 ∧ sem.KeysUnique (cellWritten sem col key bytes t) ∧
          h'.store.contents = Function.update h.store.contents (sem.fold schema.name)
            (some (cellWritten sem col key bytes t))) ∧
        (h.Calm → Executes dialect sem (lookSpec dialect schema col key) (condValues (some key))
            h.store.contents → ∀ t, Found sem schema key h.store.contents t →
          (foundRows sem key t = [] → r = .errNotFound) ∧
          (2 ≤ (foundRows sem key t).length → r = .errMultipleRows) ∧
          ((foundRows sem key t).length = 1 → Executes dialect sem
            (cellSpec dialect schema col key) (.blob bytes :: condValues (some key))
            h.store.contents → r = .ok))) h := by
  have hlook₁ : ({ h with mutex := h.mutex.lock }).lookup name = some schema := hlook
  simp only [sqlRDBWriteBlobField, wp_bind, wp_get, hv, Bool.not_true, Bool.false_eq_true, if_false,
    wp_mutexLock, hlook₁, hcol, htype, ne_eq, not_true_eq_false]
  refine wp_mono
    (countMatchingRows_spec (h := { h with mutex := h.mutex.lock }) hs hsound col key) ?_
  rintro ⟨r, m⟩ h₁ hlooked
  obtain ⟨hs₁, hk, ⟨k, hc⟩, hfound⟩ := looked_selectField hs hq hlooked
  have hstore : h₁.store = h.store := (congrArg Conn.store hc).trans rfl
  have hfaults : h₁.ctx.conn.faults = h.ctx.conn.faults := (congrArg Conn.faults hc).trans rfl
  rcases hfound with ⟨hr, hnot⟩ | ⟨t, hf, hcount, hok⟩
  · rw [wp_ite, if_pos hr, wp_bind, wp_mutexUnlock, wp_pure]
    refine ⟨hs₁, hk, hfaults, fun _ => congrArg _ hstore, fun h => absurd h hr, fun hcalm hex => ?_⟩
    exact absurd ⟨⟨hcalm.faults, hcalm.heap⟩, hex⟩ hnot
  rw [List.length_map] at hcount
  by_cases hr : r = .ok
  swap
  · rw [wp_ite, if_pos hr, wp_bind, wp_mutexUnlock, wp_pure]
    refine ⟨hs₁, hk, hfaults, fun _ => congrArg _ hstore, fun h => absurd h hr, fun hcalm _ => ?_⟩
    exact absurd (hok (hcalm.faults .step)) hr
  obtain rfl : m = min (foundRows sem key t).length 2 := hcount hr
  rw [wp_ite, if_neg (not_not.2 hr), wp_ite]
  split_ifs with hzero htwo
  · rw [wp_bind, wp_mutexUnlock, wp_pure]
    refine ⟨hs₁, hk, hfaults, fun _ => congrArg _ hstore, (by rintro ⟨⟩), fun _ _ t' hf' => ?_⟩
    obtain rfl := hf.unique hf'
    have hlen : (foundRows sem key t).length = 0 := by omega
    exact ⟨fun _ => rfl, fun h => by omega, fun h => by omega⟩
  · rw [wp_bind, wp_mutexUnlock, wp_pure]
    refine ⟨hs₁, hk, hfaults, fun _ => congrArg _ hstore, (by rintro ⟨⟩), fun _ _ t' hf' => ?_⟩
    obtain rfl := hf.unique hf'
    exact ⟨fun h => by simp [h] at hzero, fun _ => rfl, fun h => by omega⟩
  · have hone : (foundRows sem key t).length = 1 := by omega
    refine wp_mono (updateField_spec hs hs₁ key col bytes) fun r' h' ho => ?_
    obtain ⟨hs', hk', hfaults', herr, hok'⟩ := operated_updateField hs hq ho
    rw [hstore] at herr hok'
    refine ⟨hs', hk'.trans hk, hfaults'.trans hfaults, fun hr' => (herr hr').1, fun hr' => ?_,
      fun hcalm _ t' hf' => ?_⟩
    · obtain ⟨t', hf', hunique, hcontents⟩ := hok' hr'
      obtain rfl := hf.unique hf'
      exact ⟨t, hf, hone, hunique, hcontents⟩
    · obtain rfl := hf.unique hf'
      refine ⟨fun h => by simp [h] at hone, fun h => by omega, fun _ hex => ?_⟩
      by_contra hr'
      exact (herr hr').2 ⟨hcalm.of_frame hk hfaults, hex⟩

end Field

/-! ## One cell -/

section Cell

variable (dialect : C2SqlDialect) (sem : SqlSemantics) (name : CStr) (schema : SqlRDBSchema)
  (col : CStr)

/-- `SqlRDBWriteBlobField` of some bytes. -/
def writeField (key : SqlRDBCondition) (bytes : List UInt8) : StateM TableHandle SqlRDBResult :=
  sqlRDBWriteBlobField (driver dialect (sqlEngine sem)) (some name) (some key) (some col)
    (some bytes)

/-- `SqlRDBReadBlobField`, with what its outputs have been before. -/
def readField (key : SqlRDBCondition) (old : Option (List UInt8)) :
    StateM TableHandle (SqlRDBResult × Option (Option (List UInt8))) :=
  sqlRDBReadBlobField (driver dialect (sqlEngine sem)) (some name) (some key) (some col) (some old)

/-- A handle on which a struct with a BLOB column is registered. -/
structure HasField (h : TableHandle) : Prop where
  sound : CacheSound dialect (sqlEngine sem) h
  valid : h.valid = true
  lookup : h.lookup name = some schema
  column : ∃ c, findCol schema col = some c ∧ c.type = .blob

/-- A write sets one cell: that of the row which the key means, if there is exactly one. Reading it
back with any key that means this row only gives the bytes. -/
structure WritesCell (key : SqlRDBCondition) (bytes : List UInt8) (t : Table SqlValue)
    (h : TableHandle) : Prop where
  none_found : matching sem (some key) t.rows = [] →
    (writeField dialect sem name col key bytes h).1 = .errNotFound ∧
      (writeField dialect sem name col key bytes h).2.store.contents = h.store.contents
  many_found : 2 ≤ (matching sem (some key) t.rows).length →
    (writeField dialect sem name col key bytes h).1 = .errMultipleRows ∧
      (writeField dialect sem name col key bytes h).2.store.contents = h.store.contents
  one_found : ∀ before r after, t.rows = before ++ r :: after →
    matching sem (some key) t.rows = [r] →
    Executes dialect sem (cellSpec dialect schema col key) (.blob bytes :: condValues (some key))
      h.store.contents →
    let r' := Function.update r (sem.fold col) (.blob bytes)
    (writeField dialect sem name col key bytes h).1 = .ok ∧
      ∃ t', t'.columns = t.columns ∧ t'.rows.Perm (before ++ r' :: after) ∧
      (writeField dialect sem name col key bytes h).2.store.contents =
        Function.update h.store.contents (sem.fold schema.name) (some t') ∧
      ∀ key' old, CondCarried (some key') → matching sem (some key') t'.rows = [r'] →
        Executes dialect sem (lookSpec dialect schema col key') (condValues (some key'))
          (writeField dialect sem name col key bytes h).2.store.contents →
        (readField dialect sem name col key' old
          (writeField dialect sem name col key bytes h).2).1 =
          (.ok, some (some bytes))

variable {dialect sem name schema col} (hs : schema.WellFormed) {h : TableHandle}
  (hh : HasField dialect sem name schema col h)

theorem HasField.quote_not_mem (hs : schema.WellFormed)
    (hh : HasField dialect sem name schema col h) : byte '"' ∉ col := by
  obtain ⟨c, hc, -⟩ := hh.column
  exact quote_not_mem_of_findCol hs hc

/-- The look-up of a key whose values can be carried finds the rows that the key means. -/
theorem Found.of_carried {key : SqlRDBCondition} {db : Catalog SqlValue} {t : Table SqlValue}
    (hf : Found sem schema key db t) (hc : CondCarried (some key)) :
    foundRows sem key t = matching sem (some key) t.rows := by
  rw [foundRows, finds, selects_condValues hf.root hc, matching]

include hs in
/-- A look-up that is executed finds something. -/
theorem found_of_executes {key : SqlRDBCondition} {db : Catalog SqlValue}
    (hq : byte '"' ∉ col) (hex : Executes dialect sem (lookSpec dialect schema col key)
      (condValues (some key)) db) : ∃ t, Found sem schema key db t := by
  obtain ⟨sql, n, o, hp, hlen, hrun⟩ := hex
  obtain ⟨hroot, t, ht, -⟩ := run_selectField hs hrun hq hlen hp.build_eq
  exact ⟨t, hroot, hlen, ht⟩

include hs hh

/-- **Reading a cell**: the one row that the key means, and its bytes. -/
theorem readField_of_matching {key : SqlRDBCondition} (hc : CondCarried (some key))
    (hcalm : h.Calm) (hex : Executes dialect sem (lookSpec dialect schema col key)
      (condValues (some key)) h.store.contents) {t : Table SqlValue}
    (ht : h.store.contents (sem.fold schema.name) = some t) {r : Row SqlValue}
    (hr : matching sem (some key) t.rows = [r]) {bytes : List UInt8}
    (hcell : r (sem.fold col) = .blob bytes) (old : Option (List UInt8)) :
    (readField dialect sem name col key old h).1 = (.ok, some (some bytes)) := by
  obtain ⟨c, hcol, htype⟩ := hh.column
  have hlooked := readBlobField_spec hs hh.sound hh.valid hh.lookup hcol htype key old
  obtain ⟨-, -, -, ⟨-, hnot⟩ | ⟨t', hf, hout⟩⟩ :=
    looked_selectField hs (hh.quote_not_mem hs) hlooked
  · exact absurd ⟨hcalm, hex⟩ hnot
  · cases ht.symm.trans hf.table
    rw [hf.of_carried hc, hr] at hout
    refine (hout.eq_fieldReply hcalm).trans ?_
    simp only [List.map_cons, List.map_nil, fieldReply, hcell, List.getElem?_cons_zero,
      Option.getD_some, columnBlob]
    rw [show (sqlEngine sem).toBlob = sem.toBlob from rfl, sem.toBlob_blob]

omit hs hh in
/-- If one row of a table is what a key means, it is the only one that is changed. -/
theorem cellWritten_rows {key : SqlRDBCondition} {bytes : List UInt8} {t : Table SqlValue}
    {before after : List (Row SqlValue)} {r : Row SqlValue}
    (hrows : t.rows = before ++ r :: after) (hr : foundRows sem key t = [r]) :
    (cellWritten sem col key bytes t).rows.Perm
      (before ++ Function.update r (sem.fold col) (sem.taken (.blob bytes)) :: after) := by
  rw [foundRows, hrows, List.filter_append] at hr
  have hsel : finds sem key r = true := by
    have hmem : r ∈ before.filter (finds sem key) ++ (r :: after).filter (finds sem key) := by
      rw [hr]
      exact List.mem_singleton_self r
    rcases List.mem_append.1 hmem with h | h
    · exact (List.mem_filter.1 h).2
    · exact (List.mem_filter.1 h).2
  rw [List.filter_cons, if_pos hsel] at hr
  have hlen := congrArg List.length hr
  simp only [List.length_append, List.length_cons, List.length_nil] at hlen
  have hkeep : ∀ rows : List (Row SqlValue), (rows.filter (finds sem key)).length = 0 →
      (rows.map fun r => if finds sem key r then
        Function.update r (sem.fold col) (sem.taken (.blob bytes)) else r) = rows := by
    intro rows hnil
    rw [List.length_eq_zero_iff, List.filter_eq_nil_iff] at hnil
    conv_rhs => rw [← List.map_id rows]
    exact List.map_congr_left fun x hx => if_neg (hnil x hx)
  refine (sem.order_perm _ _).trans (.of_eq ?_)
  rw [hrows]
  simp only [List.map_append, List.map_cons, if_pos hsel, hkeep before (by omega),
    hkeep after (by omega)]

/-- **A write of a BLOB field sets exactly one cell.** -/
theorem writesCell_of_carried {key : SqlRDBCondition} (hc : CondCarried (some key))
    {bytes : List UInt8} (hbytes : bytes.length < 2 ^ 31) (hcalm : h.Calm)
    (hex : Executes dialect sem (lookSpec dialect schema col key) (condValues (some key))
      h.store.contents) :
    ∃ t, h.store.contents (sem.fold schema.name) = some t ∧
      WritesCell dialect sem name schema col key bytes t h := by
  have hq := hh.quote_not_mem hs
  obtain ⟨t, hf⟩ := found_of_executes hs hq hex
  have hmatching := hf.of_carried hc
  obtain ⟨c, hcol, htype⟩ := hh.column
  obtain ⟨hsound, hframe, hfaults, herr, hok, hcode⟩ : wp _ _ h :=
    writeBlobField_spec hs hq hh.sound hh.valid hh.lookup hcol htype bytes
  obtain ⟨hnone, hmany, hone⟩ := hcode hcalm hex t hf
  rw [hmatching] at hnone hmany hone
  refine ⟨t, hf.table, fun h => ?_, fun h => ?_, fun before r after hrows hr hex' => ?_⟩
  · exact ⟨hnone h, herr (by rw [hnone h]; nofun)⟩
  · exact ⟨hmany h, herr (by rw [hmany h]; nofun)⟩
  · have hret := hone (by rw [hr]; rfl) hex'
    obtain ⟨t', hf', -, -, hcontents⟩ := hok hret
    obtain rfl := hf.unique hf'
    have hperm : (cellWritten sem col key bytes t).rows.Perm _ :=
      cellWritten_rows hrows (hmatching.trans hr)
    rw [SqlSemantics.taken_blob hbytes] at hperm
    refine ⟨hret, cellWritten sem col key bytes t, rfl, hperm, hcontents,
      fun key' old hc' hr' hex'' => ?_⟩
    have hh' : HasField dialect sem name schema col
        (writeField dialect sem name col key bytes h).2 :=
      ⟨hsound, (SqlRDBHandle.valid_of_frame hframe).trans hh.valid,
        (SqlRDBHandle.lookup_of_frame hframe name).trans hh.lookup, hh.column⟩
    have ht' := (congrFun hcontents _).trans (Function.update_self ..)
    exact readField_of_matching hs hh' hc' (hcalm.of_frame hframe hfaults) hex'' ht' hr'
      (Function.update_self ..) old

end Cell

/-- A row with a BLOB of five bytes. -/
def noteRow : Row SqlValue := fun n =>
  if n = lit "id" then .int 1 else if n = lit "body" then .blob (List.replicate 5 0) else .null

/-- The table of the struct with this row. -/
def noteTable : Table SqlValue := { createdTable .sqlite notesSchema with rows := [noteRow] }

/-- The handle over this table. -/
def noteHandle : TableHandle := tableHandle notesSchema noteTable

theorem noteHandle_hasField :
    HasField .sqlite plainSemantics (lit "notes") notesSchema (lit "body") noteHandle where
  sound := cacheSound_tableHandle _ _ _
  valid := rfl
  lookup := lookup_tableHandle _ _
  column := ⟨⟨lit "body", .blob, 8, 4294967301, 0⟩, by decide +kernel, rfl⟩

theorem noteHandle_calm : noteHandle.Calm := ⟨fun _ _ => rfl, fun _ => rfl⟩

/-- A comparison with one column of the row. -/
theorem executes_note {op : C2SqlQBOp} (hop : isFieldOp op = true) {col : CStr}
    (hcol : schemaHasColumn notesSchema col = true) {v : CondValue} {vs : List SqlValue}
    (hvs : vs.length < 2 ^ 31) {res : Result SqlValue}
    (hexec : plainSemantics.exec
      (condStatement op notesSchema (some (.leaf col .eq v)) (lit "body"))
      (storedValues vs) noteHandle.store.contents = some res) :
    Executes .sqlite plainSemantics
      (fieldSpec op (.leaf col .eq v) (lit "body") .sqlite notesSchema)
      vs noteHandle.store.contents := by
  have hs := (SqlRDBSchema.accepted_iff _).1 notesSchema_accepted
  have hcond : isCondOp op = true := by
    cases op <;> first | rfl | cases hop
  have hbody : schemaHasColumn notesSchema (lit "body") = true := by decide +kernel
  have hleaves : condLeaves (some (.leaf col .eq v)) < 2 ^ 31 :=
    show 1 < 2 ^ 31 by norm_num
  refine Executes.of_statement hs hcond (fun _ => ⟨rfl, hbody⟩) (by decide) ?_ ?_ hleaves hvs
    hexec
  · exact knownCols_iff.2 fun c hc => by
      rw [List.mem_singleton.1 hc]
      exact hcol
  · rintro c ⟨rfl⟩
    exact .inr trivial

/-- A key that compares the BLOB with `n` zeros. -/
def zerosKey (n : ℕ) : SqlRDBCondition := .leaf (lit "body") .eq (.blob (List.replicate n 0))

/-- A key with more zeros than the row has does not mean it. -/
theorem matching_zerosKey {n : ℕ} (hn : n ≠ 5) :
    matching plainSemantics (some (zerosKey n)) noteTable.rows = [] := by
  have hne : plainCmp .eq (.blob (List.replicate 5 0)) (.blob (List.replicate n 0)) ≠
      some true := by
    intro heq
    have hlen := congrArg List.length (SqlValue.blob.inj (plainSemantics.eq_blob heq))
    rw [List.length_replicate, List.length_replicate] at hlen
    exact hn hlen.symm
  have hmatch : isMatch plainSemantics (some (zerosKey n)) noteRow = false := by
    rw [isMatch, Bool.eq_false_iff, Ne, beq_iff_eq]
    exact hne
  rw [matching, show noteTable.rows = [noteRow] from rfl, List.filter_cons, hmatch]
  rfl

theorem storedValues_zerosKey {n : ℕ} (hn : cInt n = 5) (hle : 5 ≤ n) :
    storedValues (condValues (some (zerosKey n))) = [.blob (List.replicate 5 0)] := by
  have hstored := storedValue_replicate (n := n) (m := 5) hn hle 0
  simp [storedValues, condValues, zerosKey, SqlRDBCondition.leafValues, CondValue.toSql, hstored]

/-- A key whose BLOB is cut to five bytes finds the row. -/
theorem writeField_zerosKey {n : ℕ} (hn : cInt n = 5) (hle : 5 ≤ n) :
    (writeField .sqlite plainSemantics (lit "notes") (lit "body") (zerosKey n) [7] noteHandle).1 =
      .ok := by
  have hs := (SqlRDBSchema.accepted_iff _).1 notesSchema_accepted
  have hh := noteHandle_hasField
  have hkey := storedValues_zerosKey hn hle
  have hvalues : storedValues (.blob [7] :: condValues (some (zerosKey n))) =
      [.blob [7], .blob (List.replicate 5 0)] := by
    rw [storedValues, List.map_cons]
    exact congrArg _ hkey
  obtain ⟨c, hcol, htype⟩ := hh.column
  obtain ⟨-, -, -, -, -, hcode⟩ : wp _ _ noteHandle := writeBlobField_spec hs (hh.quote_not_mem hs)
    hh.sound hh.valid hh.lookup hcol htype [7]
  have hlook : Executes .sqlite plainSemantics
      (lookSpec .sqlite notesSchema (lit "body") (zerosKey n)) (condValues (some (zerosKey n)))
      noteHandle.store.contents :=
    executes_note rfl (by decide +kernel) (show 1 < 2 ^ 31 by norm_num) (by rw [hkey]; rfl)
  have hcell : Executes .sqlite plainSemantics
      (cellSpec .sqlite notesSchema (lit "body") (zerosKey n))
      (.blob [7] :: condValues (some (zerosKey n))) noteHandle.store.contents :=
    executes_note rfl (by decide +kernel) (show 2 < 2 ^ 31 by norm_num) (by rw [hvalues]; rfl)
  have hfound : Found plainSemantics notesSchema (zerosKey n) noteHandle.store.contents
      noteTable :=
    ⟨fun c hc => by cases hc; exact .inr trivial, show 1 < 2 ^ 31 by norm_num, rfl⟩
  refine (hcode noteHandle_calm hlook _ hfound).2.2 ?_ hcell
  rw [foundRows, finds, hkey]
  rfl

end C2Sql
