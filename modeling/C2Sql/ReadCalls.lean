import C2Sql.FieldOperations

/-!
# What `SqlRDBRead` does on the database

`SqlRDBRead` runs its statement and reads the first row, in place or through a temporary row. What
it returns is a function of the rows of the statement and of the caller's memory.

* `directReply`, `bufferedReply`, `readReply`: what it returns for the rows;
* `ReadReturns`: what it may return, if a call of the driver or an allocation fails;
* `readBuffered_spec`: the part with the temporary row;
* `read_spec`: `SqlRDBRead`.
-/

namespace C2Sql

open StateLogic

variable {Db : Type} {dialect : C2SqlDialect} {e : Engine Db} {h : SqlRDBHandle (Session Db)}

/-! ## Replies -/

/-- The value of a column in a row of a result. -/
def cellOf (cells : List SqlValue) (i : ℕ) : SqlValue := (cells[i]?).getD .null

/-- The row is read into the caller's memory. -/
def directReply (dialect : C2SqlDialect) (e : Engine Db) (schema : SqlRDBSchema)
    (cells : List SqlValue) (row : Buffer) (nullMap : Option Mem) : SqlRDBResult × ReadOut :=
  let (r, row, nullMap) := readCells dialect e (cellOf cells) 0 schema.cols false row nullMap
  (r, ⟨some row, nullMap⟩)

/-- The temporary row, before it is read into. -/
def zeroRow (schema : SqlRDBSchema) : Buffer := ⟨bufSize schema.cols, fun _ => 0, false⟩

/-- What the temporary row and null map hold after the row has been read into them. -/
def readTemporary (dialect : C2SqlDialect) (e : Engine Db) (schema : SqlRDBSchema)
    (cells : List SqlValue) (nullMap : Option Mem) : SqlRDBResult × Buffer × Option Mem :=
  readCells dialect e (cellOf cells) 0 schema.cols false (zeroRow schema)
    (nullMap.map fun _ _ => 0)

/-- The caller's null map, with the bits of the temporary one. -/
def mergeNulls (n : ℕ) : Option Mem → Option Mem → Option Mem
  | some m, some t => some (orBytes n m t)
  | m, _ => m

/-- The row is read into temporary memory, and copied if there is no other. -/
def bufferedReply (dialect : C2SqlDialect) (e : Engine Db) (schema : SqlRDBSchema)
    (cells : List SqlValue) (rest : List (List SqlValue)) (row : Buffer) (nullMap : Option Mem) :
    SqlRDBResult × ReadOut :=
  let (r, tmpRow, tmpNull) := readTemporary dialect e schema cells nullMap
  if r ≠ .ok ∧ r ≠ .warnTruncated then (r, ⟨some row, nullMap⟩)
  else if rest ≠ [] then (.errMultipleRows, ⟨some row, nullMap⟩)
  else (r, ⟨some (row.write 0 (tmpRow.data.read 0 (bufSize schema.cols))),
    mergeNulls (nullBitmapBytes schema.cols.length) nullMap tmpNull⟩)

/-- What `SqlRDBRead` returns for the rows of its statement. -/
def readReply (dialect : C2SqlDialect) (e : Engine Db) (schema : SqlRDBSchema) (multi : Bool)
    (row : Buffer) (nullMap : Option Mem) : List (List SqlValue) → SqlRDBResult × ReadOut
  | [] => (.errNotFound, ⟨some row, nullMap⟩)
  | cells :: rest =>
    if multi then directReply dialect e schema cells row nullMap
    else bufferedReply dialect e schema cells rest row nullMap

/-- What `SqlRDBRead` may return for the rows of its statement: its reply, or an error of the driver
or the allocator with the caller's memory as it was. If only the temporary null map cannot be
allocated, the row is returned as if the caller had given no null map. -/
inductive ReadReturns (dialect : C2SqlDialect) (e : Engine Db) (schema : SqlRDBSchema)
    (multi : Bool) (row : Buffer) (nullMap : Option Mem) (calm : Prop)
    (rows : List (List SqlValue)) : SqlRDBResult × ReadOut → Prop
  | reply {x : SqlRDBResult × ReadOut}
      (h : x = readReply dialect e schema multi row nullMap rows) :
      ReadReturns dialect e schema multi row nullMap calm rows x
  | failed {r : SqlRDBResult} (hcalm : ¬calm) (hr : r ≠ .ok) :
      ReadReturns dialect e schema multi row nullMap calm rows (r, ⟨some row, nullMap⟩)
  | nullsLost {r : SqlRDBResult} {out : ReadOut} (hcalm : ¬calm) (hmulti : multi = false)
      (h : (r, out) = readReply dialect e schema false row none rows) :
      ReadReturns dialect e schema multi row nullMap calm rows (r, ⟨out.row, nullMap⟩)

theorem ReadReturns.eq_readReply {schema : SqlRDBSchema} {multi : Bool} {row : Buffer}
    {nullMap : Option Mem} {calm : Prop} {rows : List (List SqlValue)} {x : SqlRDBResult × ReadOut}
    (h : ReadReturns dialect e schema multi row nullMap calm rows x) (hcalm : calm) :
    x = readReply dialect e schema multi row nullMap rows := by
  cases h with
  | reply h => exact h
  | failed hnot => exact absurd hcalm hnot
  | nullsLost hnot => exact absurd hcalm hnot

/-! ## The call -/

/-- A call gives its statement back after it has looked at its rows. -/
theorem wp_release_looked {spec : SqlRDBQuerySpec} {sql : CStr} {n : ℕ} {vs : List SqlValue}
    {res : Except SqlRDBResult (List (List SqlValue))} {c : Conn Db} {id : StmtId} {owned : Bool}
    {g : SqlRDBHandle (Session Db)} {st : Stmt} (hu : InUse dialect e sql id owned g)
    (hsql : st.sql = sql) (hn : st.nparams = countParams dialect sql) (hkeep : g.frame = h.frame)
    (hp : Prepares dialect e spec sql n) (hran : Ran e sql vs h.ctx.conn res c) (t : ℕ)
    {Q : Unit → SqlRDBHandle (Session Db) → Prop}
    (hQ : ∀ h', (∀ {α : Type} (old : α) Out y, (∀ r, res = .error r → y = (r, old)) →
      (∀ rows, res = .ok rows → Out rows y) → Looked dialect e spec vs h old Out y h') → Q () h') :
    wp (releaseCachedStmt (driver dialect e) id owned) Q
      { g with ctx := g.ctx.put id st { c with tick := t } } := by
  refine wp_mono (release_put hu hsql hn _) fun _ h' hc => hQ h' fun old Out y herr hout => ?_
  have hk : h'.frame = g.frame := SqlRDBHandle.frame_of_view hc.2 rfl
  exact ⟨hc.1, hk.trans hkeep, .inr ⟨sql, n, res, c, t, hp, hran,
    congrArg SqlRDBHandle.ctx hc.2, herr, hout⟩⟩

/-- The exit of a call that gives its statement back. -/
theorem wp_close_looked {α : Type} {a : α} {spec : SqlRDBQuerySpec} {sql : CStr} {n : ℕ}
    {vs : List SqlValue} {res : Except SqlRDBResult (List (List SqlValue))} {c : Conn Db}
    {id : StmtId} {owned : Bool} {g : SqlRDBHandle (Session Db)} {st : Stmt}
    (hu : InUse dialect e sql id owned g) (hused : Used dialect sql res st)
    (hkeep : g.frame = h.frame) (hp : Prepares dialect e spec sql n)
    (hran : Ran e sql vs h.ctx.conn res c) {Q : α → SqlRDBHandle (Session Db) → Prop}
    (hQ : ∀ h', (∀ {α : Type} (old : α) Out y, (∀ r, res = .error r → y = (r, old)) →
      (∀ rows, res = .ok rows → Out rows y) → Looked dialect e spec vs h old Out y h') → Q a h') :
    wp (do
      releaseCachedStmt (driver dialect e) id owned
      mutexUnlock
      pure a) Q { g with ctx := g.ctx.put id st c } := by
  rw [wp_bind]
  refine wp_release_looked hu hused.sql_eq hused.nparams_eq hkeep hp hran c.tick
    fun h' hlooked => ?_
  rw [wp_bind, wp_mutexUnlock, wp_pure]
  exact hQ _ hlooked

theorem callocNullMap_spec (nullMap : Option Mem) (h : SqlRDBHandle (Session Db)) :
    wp (callocNullMap nullMap) (fun tmpNull h' =>
      (∃ t, h' = { h with heap := { h.heap with tick := t } }) ∧
        (tmpNull = (nullMap.map fun _ _ => 0) ∨
          (tmpNull = none ∧ ¬∀ k, h.heap.fails k = false))) h := by
  cases nullMap with
  | none => exact ⟨⟨h.heap.tick, rfl⟩, .inl rfl⟩
  | some m =>
    rw [callocNullMap, wp_bind, wp_malloc, wp_pure]
    refine ⟨⟨h.heap.tick + 1, rfl⟩, ?_⟩
    cases hfail : h.heap.fails h.heap.tick with
    | false => exact .inl rfl
    | true => exact .inr ⟨rfl, fun hf => by simp [hf] at hfail⟩

theorem column_of_cursor {st : Stmt} {cells : List SqlValue} {rest : List (List SqlValue)}
    (hcur : st.cursor = .row cells rest) : st.column = cellOf cells := by
  funext i
  rw [Stmt.column, hcur]
  rfl

theorem readCells_none (dialect : C2SqlDialect) (e : Engine Db) (vals : ℕ → SqlValue) (i : ℕ)
    (cols : List SqlRDBColumnDef) (anyTruncated : Bool) (row : Buffer) :
    (readCells dialect e vals i cols anyTruncated row none).2.2 = none := by
  induction cols generalizing i anyTruncated row with
  | nil => rfl
  | cons col cols ih =>
    rw [readCells]
    dsimp only
    split_ifs
    · exact ih ..
    · exact ih ..
    · rfl
    · exact ih ..

/-- What is copied from the temporary memory, with or without a temporary null map. -/
theorem ReadReturns.of_temporary {schema : SqlRDBSchema} (row : Buffer) {tmpRow : Buffer}
    {nullMap tmpNull tmpNull' : Option Mem} {calm : Prop} {cells : List SqlValue}
    (rest : List (List SqlValue)) {r : SqlRDBResult}
    (hread : readCells dialect e (cellOf cells) 0 schema.cols false (zeroRow schema) tmpNull =
      (r, tmpRow, tmpNull'))
    (hnull : tmpNull = (nullMap.map fun _ _ => 0) ∨ (tmpNull = none ∧ ¬calm)) :
    ReadReturns dialect e schema false row nullMap calm (cells :: rest)
      (if r ≠ .ok ∧ r ≠ .warnTruncated then (r, ⟨some row, nullMap⟩)
      else if rest ≠ [] then (.errMultipleRows, ⟨some row, nullMap⟩)
      else (r, ⟨some (row.write 0 (tmpRow.data.read 0 (bufSize schema.cols))),
        mergeNulls (nullBitmapBytes schema.cols.length) nullMap tmpNull'⟩)) := by
  rcases hnull with rfl | ⟨rfl, hcalm⟩
  · refine .reply ?_
    rw [readReply, if_neg Bool.false_ne_true, bufferedReply, readTemporary, hread]
  · obtain rfl : tmpNull' = none := by
      rw [← readCells_none dialect e (cellOf cells) 0 schema.cols false (zeroRow schema), hread]
    have hreply : readReply dialect e schema false row none (cells :: rest) =
        if r ≠ .ok ∧ r ≠ .warnTruncated then (r, ⟨some row, none⟩)
        else if rest ≠ [] then (.errMultipleRows, ⟨some row, none⟩)
        else (r, ⟨some (row.write 0 (tmpRow.data.read 0 (bufSize schema.cols))), none⟩) := by
      rw [readReply, if_neg Bool.false_ne_true, bufferedReply, readTemporary, Option.map_none,
        hread]
      rfl
    have hmerge : mergeNulls (nullBitmapBytes schema.cols.length) nullMap none = nullMap := by
      cases nullMap <;> rfl
    rw [hmerge]
    split_ifs at hreply ⊢
    · exact .nullsLost hcalm rfl hreply.symm
    · exact .nullsLost hcalm rfl hreply.symm
    · exact .nullsLost hcalm rfl hreply.symm

section Row

variable {spec : SqlRDBQuerySpec} {sql : CStr} {n : ℕ} {vs : List SqlValue} {c : Conn Db}
  {id : StmtId} {owned : Bool} {h₁ : SqlRDBHandle (Session Db)} {cells : List SqlValue}
  {rest : List (List SqlValue)} {st : Stmt} (hu : InUse dialect e sql id owned h₁)
  (hkeep : h₁.frame = h.frame) (hp : Prepares dialect e spec sql n)
  (hran : Ran e sql vs h.ctx.conn (.ok (cells :: rest)) c)
  (hused : Used dialect sql (.ok (cells :: rest)) st)

include hu hkeep hp hran hused

/-- The first row is read through a temporary row. -/
theorem readBuffered_spec (schema : SqlRDBSchema) (row : Buffer) (nullMap : Option Mem) :
    wp (readBuffered (driver dialect e) id owned schema row nullMap) (fun res =>
      Looked dialect e spec vs h ⟨some row, nullMap⟩
        (ReadReturns dialect e schema false row nullMap h.Calm) (res.1, ⟨some res.2.1, res.2.2⟩))
      { h₁ with ctx := h₁.ctx.put id st c } := by
  have hcur : st.cursor = .row cells rest := hused.cursor_eq _ rfl
  have hheap : h₁.heap.fails = h.heap.fails := SqlRDBHandle.fails_of_frame hkeep
  unfold readBuffered
  rw [wp_bind, wp_malloc]
  cases hfail : h₁.heap.fails h₁.heap.tick with
  | true =>
    rw [wp_ite, if_pos (show (!!true) = true from rfl)]
    refine wp_close_looked (g := { h₁ with heap := h₁.heap.next }) hu hused hkeep hp hran
      fun h' hlooked => ?_
    refine hlooked _ _ _ (by rintro _ ⟨⟩) fun rows _ => .failed (fun hcalm => ?_) (by rintro ⟨⟩)
    rw [hheap, hcalm.heap] at hfail
    cases hfail
  | false =>
    rw [wp_ite, if_neg (show ¬(!!false) = true by decide), wp_bind]
    refine wp_mono (callocNullMap_spec nullMap _) ?_
    rintro tmpNull _ ⟨⟨t, rfl⟩, hnull⟩
    rw [wp_bind, wp_drv]
    refine .of_run (internalTmReadRow_eq (Session.stmts_put ..) schema _ tmpNull) ?_
    rw [column_of_cursor hcur]
    generalize hread : readCells dialect e (cellOf cells) 0 schema.cols false _ tmpNull = read
    obtain ⟨rc, tmpRow, tmpNull'⟩ := read
    have hnull' : tmpNull = (nullMap.map fun _ _ => 0) ∨ (tmpNull = none ∧ ¬h.Calm) := by
      refine hnull.imp_right fun ⟨hnone, hfails⟩ => ⟨hnone, fun hcalm => hfails fun k => ?_⟩
      exact (congrFun hheap k).trans (hcalm.heap k)
    have hreturns := ReadReturns.of_temporary row rest hread hnull'
    let g : SqlRDBHandle (Session Db) := { h₁ with
      heap := { h₁.heap with tick := t, corrupt := h₁.heap.corrupt || tmpRow.overrun } }
    have hug : InUse dialect e sql id owned g := hu
    have hkeepg : g.frame = h.frame := hkeep
    rw [wp_bind]
    refine wp.of_run
      (show noteOverrun tmpRow _ = ((), { g with ctx := g.ctx.put id st c }) from rfl) ?_
    rw [wp_ite]
    split_ifs with hrc
    · refine wp_close_looked hug hused hkeepg hp hran fun h' hlooked => ?_
      refine hlooked _ _ _ (by rintro _ ⟨⟩) fun rows hrows => ?_
      cases hrows
      rwa [if_pos hrc] at hreturns
    · rw [if_neg hrc] at hreturns
      rw [wp_bind, wp_drv]
      refine wp_mono (step_row (Session.stmts_put ..) hcur) ?_
      rintro ⟨r, hasRow2⟩ s₂ ⟨⟨cur, k, rfl⟩, htwo, hok⟩
      rw [Session.conn_put, hran.faults_eq] at hok
      rw [Session.put_put, Session.conn_put, wp_bind]
      refine wp_release_looked hug (by exact hused.sql_eq) (by exact hused.nparams_eq) hkeepg hp
        hran k fun h' hlooked => ?_
      rw [wp_ite]
      by_cases hr : r = .ok
      · have hrow2 : hasRow2 = !rest.isEmpty := htwo hr
        subst hr
        rw [hrow2]
        cases rest with
        | nil =>
          rw [if_neg (by simp)]
          dsimp only
          rw [wp_bind, wp_mutexUnlock, wp_pure]
          refine hlooked _ _ _ (by rintro _ ⟨⟩) fun rows hrows => ?_
          cases hrows
          rw [if_neg (not_not.2 rfl)] at hreturns
          rcases nullMap with _ | m <;> rcases tmpNull' with _ | t' <;> exact hreturns
        | cons cells' rest =>
          rw [if_pos (.inr rfl), wp_bind, wp_mutexUnlock, wp_pure]
          refine hlooked _ _ _ (by rintro _ ⟨⟩) fun rows hrows => ?_
          cases hrows
          rwa [if_pos (List.cons_ne_nil _ _)] at hreturns
      · -- the driver fails to look for another row
        rw [if_pos (.inl hr), wp_bind, wp_mutexUnlock, wp_pure]
        refine hlooked _ _ _ (by rintro _ ⟨⟩) fun rows _ => .failed (fun hcalm => ?_) ?_
        · exact hr (hok (hcalm.faults .step))
        · change (if hasRow2 = true then _ else r) ≠ _
          split_ifs
          · rintro ⟨⟩
          · exact hr

end Row

/-- **`SqlRDBRead`** returns what its reply is for the rows of its statement. -/
theorem read_spec (hs : CacheSound dialect e h) (hv : h.valid = true) {name : CStr}
    {schema : SqlRDBSchema} (hlook : h.lookup name = some schema) (hwf : schema.WellFormed)
    (cond : Option SqlRDBCondition) (row : Buffer) (nullMap : Option Mem)
    (opts : Option SqlRDBReadOpts) :
    wp (sqlRDBRead (driver dialect e) (some name) cond ⟨some row, nullMap⟩ opts)
      (Looked dialect e (condSpec .select cond dialect schema) (condValues cond) h
        ⟨some row, nullMap⟩ (ReadReturns dialect e schema
          ((opts.map fun o => o.allowMulti).getD false || h.config.multirowDefault == 1) row nullMap
          h.Calm)) h := by
  simp only [sqlRDBRead, wp_bind, wp_get, hv, Bool.not_true, Bool.false_eq_true, if_false,
    wp_mutexLock]
  refine wp_openStmt (h := { h with mutex := h.mutex.lock }) hs hlook _
    (fun r h' hr hs' hc hk hp => ?_) fun sql n id owned st h₁ hp hu hst hf hview => ?_
  · rw [wp_pure]
    exact ⟨hs', hk, .inl ⟨hr, rfl, hc, hp⟩⟩
  · have hconn : h₁.ctx.conn = h.ctx.conn := congrArg SqlRDBHandle.ctx hview
    have hkeep : h₁.frame = h.frame := SqlRDBHandle.frame_of_view hview rfl
    have hconf : h₁.config.multirowDefault = h.config.multirowDefault :=
      congrArg (fun v => v.config.multirowDefault) hview
    rw [wp_bind, wp_get, hconf]
    generalize
      ((opts.map fun o => o.allowMulti).getD false || h.config.multirowDefault == 1) = multi
    refine wp_bindCond_step hst hf (paramsFor_cond hwf rfl rfl hp.build_eq)
      (fun r st' c' hran hused => ?_) fun res hasRow st' c' hran hused hrow => ?_
    · rw [hconn] at hran
      refine wp_close_looked hu hused hkeep hp hran fun h' hlooked => ?_
      exact hlooked _ _ _ (fun _ h => Except.error.inj h ▸ rfl) (by rintro _ ⟨⟩)
    · rw [hconn] at hran
      cases res with
      | error r =>
        rw [wp_ite, if_pos (show resultCode (.error r) ≠ .ok from (hran.error r rfl).1)]
        refine wp_close_looked hu hused hkeep hp hran fun h' hlooked => ?_
        exact hlooked _ _ _ (fun _ h => Except.error.inj h ▸ rfl) (by rintro _ ⟨⟩)
      | ok rows =>
        obtain rfl := hrow rows rfl
        have hcur := hused.cursor_eq rows rfl
        rw [wp_ite, if_neg (show ¬resultCode (.ok rows) ≠ .ok from not_not.2 rfl), wp_ite]
        cases rows with
        | nil =>
          rw [if_pos (show (!(Cursor.at []).hasRow) = true from rfl)]
          refine wp_close_looked hu hused hkeep hp hran fun h' hlooked => ?_
          refine hlooked _ _ _ (by rintro _ ⟨⟩) fun rows h => ?_
          cases h
          exact .reply rfl
        | cons cells rest =>
          rw [if_neg (show ¬(!(Cursor.at (cells :: rest)).hasRow) = true from Bool.false_ne_true),
            wp_ite]
          cases multi with
          | false =>
            rw [if_neg Bool.false_ne_true, wp_bind]
            refine wp_mono (readBuffered_spec hu hkeep hp hran hused schema row nullMap)
              fun res h' hlooked => ?_
            exact hlooked
          | true =>
            rw [if_pos rfl, wp_bind, wp_drv]
            refine .of_run (internalTmReadRow_eq (Session.stmts_put ..) schema row nullMap) ?_
            rw [column_of_cursor hcur]
            refine wp_close_looked hu hused hkeep hp hran fun h' hlooked => ?_
            refine hlooked _ _ _ (by rintro _ ⟨⟩) fun rows h => ?_
            cases h
            exact .reply rfl

end C2Sql
