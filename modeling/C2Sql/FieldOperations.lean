import C2Sql.Operations

/-!
# What the calls on BLOB fields do on the database

`SqlRDBWriteBlobField` runs two statements, one that looks for the rows and one that updates, and
`SqlRDBReadBlobField` looks ahead of the row that it returns. Both are described by executions of
the texts that are built for them, for any engine.

* `Looked`: a text has been run, and up to two of its rows have been looked at;
* `countMatchingRows_spec`, `updateField_spec`: the two halves of `SqlRDBWriteBlobField`;
* `readBlobField_spec`: `SqlRDBReadBlobField`.
-/

namespace C2Sql

open StateLogic

variable {Db : Type} {dialect : C2SqlDialect} {e : Engine Db} {h : SqlRDBHandle (Session Db)}

/-- A step from one row to the next reaches no engine. -/
theorem step_row {s : Session Db} {id : StmtId} {st : Stmt} {current : List SqlValue}
    {rest : List (List SqlValue)} (hst : s.stmts id = some st)
    (hcur : st.cursor = .row current rest) :
    wp ((driver dialect e).step id) (fun res s' =>
      (∃ cur t, s' = s.put id { st with cursor := cur } { s.conn with tick := t }) ∧
        (res.1 = .ok → res.2 = !rest.isEmpty) ∧
        ((∀ k, s.conn.faults .step k = none) → res.1 = .ok)) s := by
  simp only [wp, driver, withStmt_eq hst, Stmt.step, Conn.fault]
  cases hf : s.conn.faults .step s.conn.tick with
  | some f =>
    exact ⟨⟨_, _, rfl⟩, fun hr => absurd hr f.code_ne_ok, fun h => by simp [h] at hf⟩
  | none =>
    simp only [Stmt.advance, hcur]
    refine ⟨⟨_, _, rfl⟩, fun _ => ?_, fun _ => trivial⟩
    cases rest <;> rfl

/-- A call has returned `x`, a code and an output that was `old` before: it has run the text that is
built for it and looked at its rows, or could not prepare it. An error before the rows are looked at
comes with the old output. -/
def Looked {α : Type} (dialect : C2SqlDialect) (e : Engine Db) (spec : SqlRDBQuerySpec)
    (vs : List SqlValue) (h : SqlRDBHandle (Session Db)) (old : α)
    (Out : List (List SqlValue) → SqlRDBResult × α → Prop) (x : SqlRDBResult × α)
    (h' : SqlRDBHandle (Session Db)) : Prop :=
  CacheSound dialect e h' ∧ h'.frame = h.frame ∧
    ((x.1 ≠ .ok ∧ x.2 = old ∧ h'.ctx.conn = h.ctx.conn ∧ Unprepared dialect e h spec x.1) ∨
      ∃ sql n res c t, Prepares dialect e spec sql n ∧ Ran e sql vs h.ctx.conn res c ∧
        h'.ctx.conn = { c with tick := t } ∧ (∀ r, res = .error r → x = (r, old)) ∧
        ∀ rows, res = .ok rows → Out rows x)

theorem paramsFor_field {schema : SqlRDBSchema} (hwf : schema.WellFormed) {key : SqlRDBCondition}
    {col sql : CStr} {n : ℕ}
    (hb : internalQbBuild (fieldSpec .selectField key col dialect schema) = .ok (sql, n)) :
    ParamsFor dialect sql (condValues (some key)) := by
  intro hlt
  rw [length_condValues] at hlt ⊢
  have hcount := countParams_of_field hwf rfl hb (show 0 + condLeaves (some key) < 2 ^ 31 by omega)
  exact hcount.trans (Nat.zero_add _)

/-- Which faults there are is not changed by an execution. -/
theorem Ran.faults_eq {sql : CStr} {vs : List SqlValue} {c c' : Conn Db}
    {res : Except SqlRDBResult (List (List SqlValue))} (hr : Ran e sql vs c res c') :
    c'.faults = c.faults := by
  cases res with
  | error r =>
    obtain ⟨-, t, rfl⟩ := hr.error r rfl
    rfl
  | ok rows =>
    obtain ⟨o, t, -, -, -, rfl⟩ := hr.ok rows rfl
    rfl

/-- The exit of a call on a statement of its own. -/
theorem wp_finalize_looked {spec : SqlRDBQuerySpec} {sql : CStr} {n : ℕ} {vs : List SqlValue}
    {res : Except SqlRDBResult (List (List SqlValue))} {c : Conn Db} {id : StmtId}
    {g : SqlRDBHandle (Session Db)} (hu : InUse dialect e sql id true g)
    (hkeep : g.frame = h.frame) (hp : Prepares dialect e spec sql n)
    (hran : Ran e sql vs h.ctx.conn res c) (st : Stmt) (t : ℕ)
    {Q : SqlRDBResult → SqlRDBHandle (Session Db) → Prop}
    (hQ : ∀ x h', (∀ {α : Type} (old : α) Out y, (∀ r, res = .error r → y = (r, old)) →
      (∀ rows, res = .ok rows → Out rows y) → Looked dialect e spec vs h old Out y h') → Q x h') :
    wp (drv ((driver dialect e).finalize id)) Q
      { g with ctx := g.ctx.put id st { c with tick := t } } := by
  refine wp_finalize_put hu st _ fun x h' hs' hview => hQ x h' fun old Out y herr hout => ?_
  have hk : h'.frame = g.frame := SqlRDBHandle.frame_of_view hview rfl
  exact ⟨hs', hk.trans hkeep, .inr ⟨sql, n, res, c, t, hp, hran,
    congrArg SqlRDBHandle.ctx hview, herr, hout⟩⟩

section Count

variable {schema : SqlRDBSchema} (hwf : schema.WellFormed) (hs : CacheSound dialect e h)

include hwf hs

/-- **`count_matching_rows`** counts the rows of its statement up to two. -/
theorem countMatchingRows_spec (col : CStr) (key : SqlRDBCondition) :
    wp (countMatchingRows (driver dialect e) schema col key)
      (Looked dialect e (fieldSpec .selectField key col dialect schema) (condValues (some key)) h 0
        fun rows res => (res.1 = .ok → res.2 = min rows.length 2) ∧
          ((∀ k, h.ctx.conn.faults .step k = none) → res.1 = .ok)) h := by
  unfold countMatchingRows
  refine wp_prepareOwn hs (fun r h' hr hs' hc hk hp => ?_)
    fun sql n id st h₁ hp hu hst hf hview => ?_
  · rw [wp_pure]
    exact ⟨hs', hk, .inl ⟨hr, rfl, hc, hp⟩⟩
  · have hconn : h₁.ctx.conn = h.ctx.conn := congrArg SqlRDBHandle.ctx hview
    have hkeep : h₁.frame = h.frame := SqlRDBHandle.frame_of_view hview rfl
    unfold countRows
    refine wp_bindCond_step hst hf (paramsFor_field hwf hp.build_eq)
      (fun r st' c' hran hused => ?_) fun res hasRow st' c' hran hused hrow => ?_
    · rw [hconn] at hran
      rw [wp_bind]
      refine wp_finalize_looked hu hkeep hp hran st' c'.tick fun _ h' hlooked => ?_
      exact hlooked 0 _ _ (fun _ h => Except.error.inj h ▸ rfl) (by rintro _ ⟨⟩)
    · rw [hconn] at hran
      cases res with
      | error r =>
        rw [wp_ite, if_pos (show resultCode (.error r) ≠ .ok from (hran.error r rfl).1), wp_bind]
        refine wp_finalize_looked hu hkeep hp hran st' c'.tick fun _ h' hlooked => ?_
        exact hlooked 0 _ _ (fun _ h => Except.error.inj h ▸ rfl) (by rintro _ ⟨⟩)
      | ok rows =>
        obtain rfl := hrow rows rfl
        have hcur := hused.cursor_eq rows rfl
        rw [wp_ite, if_neg (show ¬resultCode (.ok rows) ≠ .ok from not_not.2 rfl), wp_ite]
        cases rows with
        | nil =>
          rw [if_neg (show ¬(Cursor.at []).hasRow = true from Bool.false_ne_true), wp_bind]
          refine wp_finalize_looked hu hkeep hp hran st' c'.tick fun _ h' hlooked => ?_
          refine hlooked 0 _ _ (by rintro _ ⟨⟩) fun rows h => ?_
          cases h
          exact ⟨fun _ => rfl, fun _ => rfl⟩
        | cons row rest =>
          -- the look-ahead
          rw [if_pos (show (Cursor.at (row :: rest)).hasRow = true from rfl), wp_bind, wp_drv]
          refine wp_mono (step_row (Session.stmts_put ..) hcur) ?_
          rintro ⟨r, hasRow2⟩ s₂ ⟨⟨cur, t, rfl⟩, htwo, hok⟩
          rw [Session.conn_put, hran.faults_eq] at hok
          rw [Session.put_put, Session.conn_put, wp_bind]
          have hm : r = .ok → (if hasRow2 then 2 else 1) = min (row :: rest).length 2 := by
            intro hr
            rw [show hasRow2 = !rest.isEmpty from htwo hr]
            cases rest <;> simp
          refine wp_finalize_looked hu hkeep hp hran _ t fun _ h' hlooked => ?_
          by_cases hr : r = .ok
          · rw [wp_ite, if_neg (not_not.2 hr)]
            refine hlooked 0 _ _ (by rintro _ ⟨⟩) fun rows h => ?_
            cases h
            exact ⟨fun _ => hm hr, fun _ => rfl⟩
          · rw [wp_ite, if_pos hr]
            refine hlooked 0 _ _ (by rintro _ ⟨⟩) fun rows h => ?_
            cases h
            exact ⟨fun h => absurd h hr, hok⟩

omit hwf in
/-- A text is built, and its statement taken from the cache or prepared. -/
theorem wp_prepareCached {α : Type} {spec : SqlRDBQuerySpec}
    {fail : SqlRDBResult → Api (Session Db) α} {next : StmtId → Bool → Api (Session Db) α}
    {Q : α → SqlRDBHandle (Session Db) → Prop}
    (hfail : ∀ r h', r ≠ .ok → CacheSound dialect e h' → h'.ctx.conn = h.ctx.conn →
      h'.frame = h.frame → Unprepared dialect e h spec r → wp (fail r) Q h')
    (hnext : ∀ sql n id owned st h', Prepares dialect e spec sql n →
      InUse dialect e sql id owned h' → h'.ctx.stmts id = some st → st.Fresh dialect sql →
      h'.view = h.view → wp (next id owned) Q h') :
    wp (do
      let res ← qbBuild spec
      match res with
      | .error r => fail r
      | .ok (sql, _) =>
        let res ← getOrPrepare (driver dialect e) sql
        match res with
        | .error r => fail r
        | .ok (id, owned) => next id owned) Q h := by
  simp only [qbBuild, wp_bind, wp_malloc, wp_pure]
  cases hheap : h.heap.fails h.heap.tick with
  | true =>
    exact hfail _ _ (by rintro ⟨⟩) hs rfl rfl fun _ hf => by simp [hf] at hheap
  | false =>
    simp only [Bool.not_false, if_true]
    cases hb : internalQbBuild spec with
    | error r =>
      exact hfail _ _ (internalQbBuild_ne_ok hb) hs rfl rfl fun _ _ => .inl hb
    | ok text =>
      obtain ⟨sql, n⟩ := text
      rw [wp_bind]
      refine wp_mono (getOrPrepare_spec (h := { h with heap := h.heap.next }) hs sql) ?_
      rintro res h₁ ⟨hview, hgot⟩
      cases res with
      | error r =>
        obtain ⟨hr, hs₁, hwhy⟩ := hgot
        exact hfail r h₁ hr hs₁ (congrArg SqlRDBHandle.ctx hview)
          (SqlRDBHandle.frame_of_view hview rfl) fun hpf hheap' =>
            .inr ⟨sql, n, hb, hwhy hpf hheap'⟩
      | ok x =>
        obtain ⟨id, owned⟩ := x
        obtain ⟨hu, ⟨st, hst, hf⟩, hc⟩ := hgot
        exact hnext sql n id owned st h₁ ⟨hb, hc⟩ hu hst hf hview

omit hs in
/-- The UPDATE statement has a parameter for the new value and one for each value of the key. -/
theorem paramsFor_update {key : SqlRDBCondition} {col sql : CStr} {n : ℕ} (bytes : List UInt8)
    (hb : internalQbBuild (fieldSpec .updateField key col dialect schema) = .ok (sql, n)) :
    ParamsFor dialect sql (.blob bytes :: condValues (some key)) := by
  intro hlt
  rw [List.length_cons, length_condValues] at hlt ⊢
  have hcount := countParams_of_field hwf rfl hb (show 1 + condLeaves (some key) < 2 ^ 31 by omega)
  exact hcount.trans (Nat.add_comm ..)

/-- **The UPDATE of `SqlRDBWriteBlobField`** runs its statement on the bytes and the key. -/
theorem updateField_spec (key : SqlRDBCondition) (col : CStr) (bytes : List UInt8) :
    wp (updateField (driver dialect e) schema key col bytes) (fun r =>
      Operated dialect e (fieldSpec .updateField key col dialect schema)
        (.blob bytes :: condValues (some key)) h r fun _ _ => True) h := by
  unfold updateField
  refine wp_prepareCached hs (fun r h' hr hs' hc hk hp => ?_)
    fun sql n id owned st h₁ hp hu hst hf hview => ?_
  · rw [wp_bind, wp_mutexUnlock, wp_pure]
    exact ⟨hs', hk, .inl ⟨hr, hc, hp⟩⟩
  · have hconn : h₁.ctx.conn = h.ctx.conn := congrArg SqlRDBHandle.ctx hview
    have hkeep : h₁.frame = h.frame := SqlRDBHandle.frame_of_view hview rfl
    have hparams := paramsFor_update hwf bytes hp.build_eq
    obtain rfl := hf.sql_eq
    -- what is common to the exits: the statement is given back
    have hexit : ∀ {r : SqlRDBResult} {res : Except SqlRDBResult (List (List SqlValue))}
        {st' : Stmt} {c' : Conn Db}, Used dialect st.sql res st' → r = resultCode res →
        Ran e st.sql (.blob bytes :: condValues (some key)) h.ctx.conn res c' →
        wp (do
          releaseCachedStmt (driver dialect e) id owned
          mutexUnlock
          pure r) (fun r => Operated dialect e (fieldSpec .updateField key col dialect schema)
            (.blob bytes :: condValues (some key)) h r fun _ _ => True)
          { h₁ with ctx := h₁.ctx.put id st' c' } := by
      intro r res st' c' hused hcode hran
      refine wp_close hu hused.sql_eq hused.nparams_eq c' fun h' hs' hconn' hk => ?_
      exact ⟨hs', hk.trans hkeep, .inr ⟨st.sql, n, res, hp, hconn' ▸ hran, hcode,
        fun _ _ => trivial⟩⟩
    rw [wp_bind, wp_drv]
    have hindex : cInt (0 + 1 : ℕ) = 1 := cInt_of_lt (by norm_num) (by norm_num)
    have hbind : wp ((driver dialect e).bind id (cInt (0 + 1 : ℕ)) (.blob bytes))
        (BoundTo h₁.ctx id st 0 [.blob bytes]) h₁.ctx :=
      boundTo_bind hst hf.cursor_eq (by norm_num) _
    rw [hindex] at hbind
    refine wp_mono hbind fun r s₁ hblob => ?_
    rw [wp_ite]
    split_ifs with hr
    · have hran := (hblob.fail (condValues (some key)) hr).ran (e := e) hr hf.nparams_eq hparams
      rw [hconn] at hran
      obtain ⟨ps, t, rfl, -⟩ := hblob.put
      have hused : Used dialect st.sql (.error r) { st with params := ps } :=
        ⟨rfl, hf.nparams_eq, nofun⟩
      exact hexit hused rfl hran
    · rw [not_not] at hr
      subst hr
      obtain ⟨ps, t, hs₁, -⟩ := hblob.put
      have hst₁ : s₁.stmts id = some { st with params := ps } := by
        rw [hs₁]
        exact Session.stmts_put ..
      rw [wp_bind, wp_drv]
      have hkey : wp (bindCond ((driver dialect e).bind id) (some key) (1 + 1 : ℕ))
          (BoundTo s₁ id { st with params := ps } 1 (condValues (some key))) s₁ :=
        boundTo_bindCond (some key) hst₁ hf.cursor_eq (by norm_num) (hblob.range rfl).2
      refine wp_mono hkey fun r s₂ hcond => ?_
      have hboth : BoundTo h₁.ctx id st 0 (.blob bytes :: condValues (some key)) r s₂ := by
        refine hblob.seq fun ps' t' hs₁' => ?_
        have hps : (some { st with params := ps' } : Option Stmt) =
            some { st with params := ps } := by
          rw [← hst₁, hs₁', Session.stmts_put]
        obtain rfl : ps' = ps := congrArg Stmt.params (Option.some.inj hps)
        exact hcond
      rw [wp_ite]
      split_ifs with hr
      · have hran := hboth.ran (e := e) hr hf.nparams_eq hparams
        rw [hconn] at hran
        obtain ⟨ps, t, rfl, -⟩ := hboth.put
        have hused : Used dialect st.sql (.error r) { st with params := ps } :=
          ⟨rfl, hf.nparams_eq, nofun⟩
        exact hexit hused rfl hran
      · rw [not_not] at hr
        subst hr
        refine hboth.wp_step hf hparams fun res hasRow st' c' hran hused _ => ?_
        rw [hconn] at hran
        rw [wp_bind]
        refine wp_mono (release_put hu hused.sql_eq hused.nparams_eq c') fun _ h' hc => ?_
        have hconn' : h'.ctx.conn = c' := congrArg SqlRDBHandle.ctx hc.2
        have hk : h'.frame = h.frame :=
          (SqlRDBHandle.frame_of_view (h := h₁) hc.2 rfl).trans hkeep
        have hdone : Operated dialect e (fieldSpec .updateField key col dialect schema)
            (.blob bytes :: condValues (some key)) h (resultCode res) (fun _ _ => True) h' :=
          ⟨hc.1, hk, .inr ⟨st.sql, n, res, hp, hconn' ▸ hran, rfl, fun _ _ => trivial⟩⟩
        rw [wp_ite]
        split_ifs
        · rw [wp_bind, wp_errSet, wp_bind, wp_mutexUnlock, wp_pure]
          exact hdone
        · rw [wp_bind, wp_mutexUnlock, wp_pure]
          exact hdone

/-- What `SqlRDBReadBlobField` returns for the rows of its statement. -/
def fieldReply (e : Engine Db) (old : Option (List UInt8)) :
    List (List SqlValue) → SqlRDBResult × Option (Option (List UInt8))
  | [] => (.errNotFound, some old)
  | [row] => (.ok, some (some ((columnBlob e (row[0]?.getD .null)).getD [])))
  | _ => (.errMultipleRows, some old)

/-- What `SqlRDBReadBlobField` may return for the rows of its statement: its reply, or an error of
the driver or the allocator with the old output. -/
inductive FieldReturns (e : Engine Db) (old : Option (List UInt8)) (calm : Prop)
    (rows : List (List SqlValue)) : SqlRDBResult × Option (Option (List UInt8)) → Prop
  | reply {x : SqlRDBResult × Option (Option (List UInt8))} (h : x = fieldReply e old rows) :
      FieldReturns e old calm rows x
  | failed {r : SqlRDBResult} (hcalm : ¬calm) (hr : r ≠ .ok) :
      FieldReturns e old calm rows (r, some old)

omit hwf hs in
theorem FieldReturns.eq_fieldReply {old : Option (List UInt8)} {calm : Prop}
    {rows : List (List SqlValue)} {x : SqlRDBResult × Option (Option (List UInt8))}
    (h : FieldReturns e old calm rows x) (hcalm : calm) : x = fieldReply e old rows := by
  cases h with
  | reply h => exact h
  | failed hnot => exact absurd hcalm hnot

omit hwf hs in
/-- The first row of the statement is copied, and returned if there is no other. -/
theorem readBlobRow_spec {spec : SqlRDBQuerySpec} {sql : CStr} {n : ℕ} {vs : List SqlValue}
    {c : Conn Db} {id : StmtId} {h₁ : SqlRDBHandle (Session Db)} {row : List SqlValue}
    {rest : List (List SqlValue)} (hu : InUse dialect e sql id true h₁)
    (hkeep : h₁.frame = h.frame) (hp : Prepares dialect e spec sql n)
    (hran : Ran e sql vs h.ctx.conn (.ok (row :: rest)) c) {st : Stmt}
    (hcur : st.cursor = .row row rest) (old : Option (List UInt8)) :
    wp (readBlobRow (driver dialect e) id old) (fun res => Looked dialect e spec vs h (some old)
      (FieldReturns e old h.Calm) (res.1, some res.2)) { h₁ with ctx := h₁.ctx.put id st c } := by
  have hcol : (driver dialect e).columnBlob id 0 (h₁.ctx.put id st c) =
      ((.ok, columnBlob e (row[0]?.getD .null)), h₁.ctx.put id st c) := by
    refine (onColumn_eq (Session.stmts_put ..) 0 none (columnBlob e)).trans ?_
    rw [Stmt.column, hcur]
  unfold readBlobRow
  rw [wp_bind, wp_drv]
  refine wp.of_run hcol ?_
  rw [wp_ite, if_neg (not_not.2 rfl), wp_bind, wp_malloc]
  have hheap : h₁.heap.fails = h.heap.fails := SqlRDBHandle.fails_of_frame hkeep
  cases hfail : h₁.heap.fails h₁.heap.tick with
  | true =>
    rw [wp_ite, if_pos (show (!!true) = true from rfl), wp_bind]
    refine wp_finalize_looked (g := { h₁ with heap := h₁.heap.next }) hu hkeep hp hran st c.tick
      fun _ h' hlooked => ?_
    rw [wp_bind, wp_mutexUnlock, wp_pure]
    refine hlooked _ _ _ (by rintro _ ⟨⟩) fun rows _ => .failed (fun hcalm => ?_) (by rintro ⟨⟩)
    rw [hheap, hcalm.heap] at hfail
    cases hfail
  | false =>
    rw [wp_ite, if_neg (show ¬(!!false) = true by decide), wp_bind, wp_drv]
    refine wp_mono (step_row (Session.stmts_put ..) hcur) ?_
    rintro ⟨r, hasRow2⟩ s₂ ⟨⟨cur, t, rfl⟩, htwo, hok⟩
    rw [Session.conn_put, hran.faults_eq] at hok
    rw [Session.put_put, Session.conn_put, wp_bind]
    refine wp_finalize_looked (g := { h₁ with heap := h₁.heap.next }) hu hkeep hp hran _ t
      fun _ h' hlooked => ?_
    by_cases hr : r = .ok
    · rw [wp_ite, if_neg (not_not.2 hr), wp_ite, show hasRow2 = !rest.isEmpty from htwo hr]
      cases rest with
      | nil =>
        rw [if_neg (show ¬(!([] : List (List SqlValue)).isEmpty) = true from Bool.false_ne_true),
          wp_bind, wp_mutexUnlock, wp_pure]
        refine hlooked _ _ _ (by rintro _ ⟨⟩) fun rows h => ?_
        cases h
        exact .reply rfl
      | cons row' rest =>
        rw [if_pos (show (!(row' :: rest).isEmpty) = true from rfl), wp_bind, wp_mutexUnlock,
          wp_pure]
        refine hlooked _ _ _ (by rintro _ ⟨⟩) fun rows h => ?_
        cases h
        exact .reply rfl
    · rw [wp_ite, if_pos hr, wp_bind, wp_mutexUnlock, wp_pure]
      exact hlooked _ _ _ (by rintro _ ⟨⟩) fun rows _ =>
        .failed (fun hcalm => hr (hok (hcalm.faults .step))) hr

/-- **`SqlRDBReadBlobField`** returns the column of the one row of its statement. -/
theorem readBlobField_spec (hv : h.valid = true) {name : CStr}
    (hlook : h.lookup name = some schema) {col : CStr} {c : SqlRDBColumnDef}
    (hcol : findCol schema col = some c) (htype : c.type = .blob) (key : SqlRDBCondition)
    (old : Option (List UInt8)) :
    wp (sqlRDBReadBlobField (driver dialect e) (some name) (some key) (some col) (some old))
      (Looked dialect e (fieldSpec .selectField key col dialect schema) (condValues (some key)) h
        (some old) (FieldReturns e old h.Calm)) h := by
  have hlook₁ : ({ h with mutex := h.mutex.lock }).lookup name = some schema := hlook
  simp only [sqlRDBReadBlobField, wp_bind, wp_get, hv, Bool.not_true, Bool.false_eq_true, if_false,
    wp_mutexLock, hlook₁, hcol, htype, ne_eq, not_true_eq_false]
  rw [← wp_bind]
  refine wp_prepareOwn (h := { h with mutex := h.mutex.lock }) hs (fun r h' hr hs' hc hk hp => ?_)
    fun sql n id st h₁ hp hu hst hf hview => ?_
  · rw [wp_bind, wp_mutexUnlock, wp_pure]
    exact ⟨hs', hk, .inl ⟨hr, rfl, hc, hp⟩⟩
  · have hconn : h₁.ctx.conn = h.ctx.conn := congrArg SqlRDBHandle.ctx hview
    have hkeep : h₁.frame = h.frame := SqlRDBHandle.frame_of_view hview rfl
    refine wp_bindCond_step hst hf (paramsFor_field hwf hp.build_eq)
      (fun r st' c' hran hused => ?_) fun res hasRow st' c' hran hused hrow => ?_
    · rw [hconn] at hran
      rw [wp_bind]
      refine wp_finalize_looked hu hkeep hp hran st' c'.tick fun _ h' hlooked => ?_
      rw [wp_bind, wp_mutexUnlock, wp_pure]
      exact hlooked _ _ _ (fun _ h => Except.error.inj h ▸ rfl) (by rintro _ ⟨⟩)
    · rw [hconn] at hran
      cases res with
      | error r =>
        rw [wp_ite, if_pos (show resultCode (.error r) ≠ .ok from (hran.error r rfl).1), wp_bind]
        refine wp_finalize_looked hu hkeep hp hran st' c'.tick fun _ h' hlooked => ?_
        rw [wp_bind, wp_mutexUnlock, wp_pure]
        exact hlooked _ _ _ (fun _ h => Except.error.inj h ▸ rfl) (by rintro _ ⟨⟩)
      | ok rows =>
        obtain rfl := hrow rows rfl
        have hcur := hused.cursor_eq rows rfl
        rw [wp_ite, if_neg (show ¬resultCode (.ok rows) ≠ .ok from not_not.2 rfl), wp_ite]
        cases rows with
        | nil =>
          rw [if_pos (show (!(Cursor.at []).hasRow) = true from rfl), wp_bind]
          refine wp_finalize_looked hu hkeep hp hran st' c'.tick fun _ h' hlooked => ?_
          rw [wp_bind, wp_mutexUnlock, wp_pure]
          refine hlooked _ _ _ (by rintro _ ⟨⟩) fun rows h => ?_
          cases h
          exact .reply rfl
        | cons row rest =>
          rw [if_neg (show ¬(!(Cursor.at (row :: rest)).hasRow) = true from Bool.false_ne_true),
            wp_bind]
          exact readBlobRow_spec hu hkeep hp hran hcur old

end Count

/-! ## Errors leave the outputs alone -/

section Outputs

variable {σ : Type} (d : SqlRDBDriver σ)

/-- An error comes with the old outputs. -/
def KeepsOut {α : Type} (out : α) (res : SqlRDBResult × α) : Prop := res.1 ≠ .ok → res.2 = out

theorem keepsOut_readBlobRow (stmt : StmtId) (old : Option (List UInt8)) :
    Yields (KeepsOut old) (readBlobRow d stmt old) := by
  have herr : ∀ r, KeepsOut old (r, old) := fun _ _ => rfl
  have hok : ∀ new, KeepsOut old (.ok, new) := fun _ h => absurd rfl h
  unfold readBlobRow
  refine .bind fun x => .ite (.bind fun _ => .bind fun _ => .pure (herr _)) (.bind fun ok => ?_)
  refine .ite (.bind fun _ => .bind fun _ => .pure (herr _)) (.bind fun x => .bind fun _ => ?_)
  refine .ite (.bind fun _ => .pure (herr _)) (.ite (.bind fun _ => .pure (herr _)) ?_)
  exact .bind fun _ => .pure (hok _)

/-- **An error of `SqlRDBReadBlobField` leaves the outputs alone**, whatever the driver and the
allocator do. -/
theorem keepsOut_readBlobField (structName : Option CStr) (key : Option SqlRDBCondition)
    (colName : Option CStr) (out : Option (Option (List UInt8))) :
    Yields (KeepsOut out) (sqlRDBReadBlobField d structName key colName out) := by
  have herr : ∀ r, KeepsOut out (r, out) := fun _ _ => rfl
  have hexit : ∀ r, Yields (KeepsOut out) (do mutexUnlock; pure (r, out) : Api σ _) := fun r =>
    .bind fun _ => .pure (herr r)
  unfold sqlRDBReadBlobField
  refine .bind fun h => .ite (.pure (herr _)) ?_
  split
  case h_2 => exact .pure (herr _)
  case h_1 name key col old =>
    refine .bind fun _ => .bind fun h => ?_
    cases h.lookup name with
    | none => exact .bind fun _ => hexit _
    | some schema =>
      dsimp only
      cases findCol schema col with
      | none => exact hexit _
      | some c =>
        refine .ite (.bind fun _ => hexit _) (.bind fun res => ?_)
        cases res with
        | error r => exact hexit _
        | ok text =>
          refine .bind fun x => .ite (hexit _) (.bind fun r => .ite (.bind fun _ => hexit _) ?_)
          refine .bind fun x => .ite (.bind fun _ => hexit _) (.ite (.bind fun _ => hexit _) ?_)
          refine (keepsOut_readBlobRow d _ old).seq fun res hres => .pure fun hr => ?_
          exact congrArg some (hres hr)

end Outputs

end C2Sql
