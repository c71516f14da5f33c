import C2Sql.Execution
import C2Sql.Transactions

/-!
# Batches of rows

`SqlRDBWriteMany` outside a transaction wraps its rows in a transaction of its own.

* `Conn.runRows`: the direct execution of a batch;
* `writeRows_spec`, `sqlRDBWriteMany_spec`: the loop and the call execute the batch directly;
* `writeMany_allOrNothing_iff`: a call is all or nothing exactly if its commit does not fail.
-/

namespace C2Sql

open SnapshotStack StateLogic

variable {Db : Type}

/-! ## Direct execution of a batch -/

/-- The rows are executed one after the other, up to the first error. -/
def Conn.runRows (e : Engine Db) (sql : CStr) : List Binds → Conn Db → SqlRDBResult × Conn Db
  | [], c => (.ok, c)
  | binds :: batch, c =>
    match c.runOnce e sql binds with
    | (.error r, c) => (r, c)
    | (.ok _, c) => c.runRows e sql batch

/-- What `SqlRDBWriteMany` binds for `k` rows from the `i`-th on. -/
def batchBinds (schema : SqlRDBSchema) (rows : Mem) (stride : ℕ) (nullMaps : Option Mem) :
    ℕ → ℕ → List Binds
  | 0, _ => []
  | k + 1, i =>
    rowBinds (rows.at (i * stride))
        (nullMaps.map fun m => m.at (i * nullBitmapBytes schema.cols.length)) 0 schema.cols ::
      batchBinds schema rows stride nullMaps k (i + 1)

section Loop

variable {dialect : C2SqlDialect} {e : Engine Db} {s : Session Db} {id : StmtId} {st : Stmt}
  {sql : CStr}

theorem Conn.runBound_ne_ok (sql : CStr) (values : List SqlValue) (c : Conn Db) {r : SqlRDBResult}
    (h : (c.runBound e sql values).1 = .error r) : r ≠ .ok := by
  simp only [Conn.runBound, Conn.fault] at h
  cases hf : c.faults .step c.tick with
  | some f =>
    simp only [hf] at h
    cases h
    exact f.code_ne_ok
  | none =>
    simp only [hf] at h
    cases hx : Conn.execute e { c with tick := c.tick + 1 } sql values with
    | none =>
      rw [hx] at h
      cases h
      rintro ⟨⟩
    | some o =>
      rw [hx] at h
      cases h

/-- **The loop of a batch** on a ready statement executes the batch directly. -/
theorem writeRows_spec (schema : SqlRDBSchema) (rows : Mem) (stride : ℕ) (nullMaps : Option Mem)
    (k i : ℕ) (hst : s.stmts id = some st) (hf : st.Fresh dialect sql)
    (hn : countParams dialect sql = schema.cols.length) :
    wp (writeRows (driver dialect e) id schema rows stride nullMaps k i) (fun r s' =>
      r = (s.conn.runRows e sql (batchBinds schema rows stride nullMaps k i)).1 ∧
      ∃ st', s' = s.put id st'
          (s.conn.runRows e sql (batchBinds schema rows stride nullMaps k i)).2 ∧
        st'.sql = sql ∧ st'.nparams = countParams dialect sql) s := by
  induction k generalizing s st i with
  | zero =>
    refine ⟨rfl, st, ?_, hf.sql_eq, hf.nparams_eq⟩
    rw [batchBinds, Conn.runRows, Session.put_self id hst]
    rfl
  | succ k ih =>
    obtain ⟨hsql, hnp, hcur⟩ := hf
    set row := rows.at (i * stride)
    set nm := nullMaps.map fun m => m.at (i * nullBitmapBytes schema.cols.length)
    have hbatch : batchBinds schema rows stride nullMaps (k + 1) i =
      rowBinds row nm 0 schema.cols :: batchBinds schema rows stride nullMaps k (i + 1) := rfl
    simp only [writeRows, wp_bind]
    refine wp_mono (bound_bindRowFrom row nm hst hcur (by omega)) fun r s₁ hb => ?_
    obtain ⟨hr, ps, rfl, hps⟩ := hb
    rcases hres : s.conn.bindAll (rowBinds row nm 0 schema.cols) with ⟨r' | vs, c⟩
    · -- a row that cannot be bound ends the loop
      have hne : r' ≠ .ok := Conn.bindAll_ne_ok (rowBinds_sound row nm 0 _) s.conn (by rw [hres])
      have hrun : s.conn.runRows e sql (batchBinds schema rows stride nullMaps (k + 1) i) =
          (r', c) := by
        rw [hbatch, Conn.runRows, Conn.runOnce, hres]
      simp only [hres, resultCode] at hr
      subst hr
      rw [hrun, wp_ite, if_pos hne]
      exact ⟨rfl, _, rfl, hsql, hnp⟩
    · have hlen : vs.length = st.nparams := by
        rw [Conn.length_bindAll (c := s.conn) (by rw [hres]), length_rowBinds, hnp, hn]
      simp only [hres, resultCode] at hr hps
      obtain rfl := hps vs rfl
      subst hr
      have hvals := values_setValues st st.params hlen.symm
      rw [wp_ite, if_neg (not_not.2 rfl), wp_bind]
      refine wp_mono (step_ready (Session.stmts_put ..) hcur) fun res s₂ hstep => ?_
      obtain ⟨cur, rfl, hcode, -⟩ := hstep
      rw [Session.conn_put, hvals] at hcode ⊢
      rw [wp_bind, wp, reset_spec (Session.stmts_put ..)]
      simp only [Session.conn_put, Session.put_put, hsql] at hcode ⊢
      rcases hstep : c.runBound e sql vs with ⟨r' | out, c'⟩
      · have hne : r' ≠ .ok := Conn.runBound_ne_ok sql vs c (by rw [hstep])
        have hrun : s.conn.runRows e sql (batchBinds schema rows stride nullMaps (k + 1) i) =
            (r', c') := by
          rw [hbatch, Conn.runRows, Conn.runOnce, hres]
          simp only [hstep]
        simp only [hstep, resultCode] at hcode
        rw [hrun, wp_ite, hcode, if_pos hne]
        exact ⟨rfl, _, rfl, Stmt.sql_reset .., (Stmt.nparams_reset ..).trans hnp⟩
      · have hrun : s.conn.runRows e sql (batchBinds schema rows stride nullMaps (k + 1) i) =
            c'.runRows e sql (batchBinds schema rows stride nullMaps k (i + 1)) := by
          rw [hbatch, Conn.runRows, Conn.runOnce, hres]
          simp only [hstep]
        simp only [hstep, resultCode] at hcode
        rw [wp_ite, hcode, if_neg (not_not.2 rfl)]
        refine wp_mono (ih (i + 1) (Session.stmts_put ..) ⟨Stmt.sql_reset ..,
          (Stmt.nparams_reset ..).trans hnp, Stmt.cursor_reset ..⟩) fun r s₃ hr => ?_
        rw [Session.conn_put, ← hrun] at hr
        obtain ⟨rfl, st', rfl, hst'⟩ := hr
        exact ⟨rfl, st', Session.put_put .., hst'⟩

end Loop

/-! ## The transaction around a batch -/

/-- A transaction command of a driver. -/
def Conn.control (dialect : C2SqlDialect) (call : DriverCall)
    (f : Store CStr Db → Option (Store CStr Db)) (c : Conn Db) : SqlRDBResult × Conn Db :=
  c.call call fun c => c.txn (dialect == .postgres) (f c.store)

/-- The direct execution of a batch in a transaction of its own. The result is that of the rows,
whatever the commit returns. -/
def Conn.runBatch (dialect : C2SqlDialect) (e : Engine Db) (sql : CStr) (batch : List Binds)
    (c : Conn Db) : SqlRDBResult × Conn Db :=
  let (r, c) := c.control dialect .begin Store.begin
  if r ≠ .ok then (r, c)
  else
    let (r, c) := c.runRows e sql batch
    (r, if r = .ok then (c.control dialect .commit Store.commit).2
      else (c.control dialect .rollback Store.rollback).2)

section Batch

variable {dialect : C2SqlDialect} {e : Engine Db} {h : SqlRDBHandle (Session Db)} {sql : CStr}

/-- Nothing keeps a text from being prepared and cached. -/
structure SqlRDBHandle.CanPrepare (h : SqlRDBHandle (Session Db)) (dialect : C2SqlDialect)
    (e : Engine Db) (sql : CStr) : Prop where
  faults : ∀ k, h.ctx.conn.faults .prepare k = none
  heap : ∀ k, h.heap.fails k = false
  compiles : ¬(dialect = .sqlite ∧ e.compiles sql = false)

/-- **A batch outside a transaction** is executed directly, unless its statement cannot be
prepared. -/
theorem sqlRDBWriteMany_spec (hs : CacheSound dialect e h) (hv : h.valid = true)
    {name : CStr} {schema : SqlRDBSchema} (hlook : h.lookup name = some schema)
    (hwf : schema.WellFormed) (hd : h.txn.depth = 0) (rows : Mem) {count stride : ℕ}
    (hcount : 0 < count) (hstride : 0 < stride) (nullMaps : Option Mem) :
    wp (sqlRDBWriteMany (driver dialect e) (some name) (some rows) count stride nullMaps)
      (fun r h' => CacheSound dialect e h' ∧
        ((r, h'.ctx.conn) = h.ctx.conn.runBatch dialect e (writeSql dialect schema)
            (batchBinds schema rows stride nullMaps count 0) ∨
          (¬h.CanPrepare dialect e (writeSql dialect schema) ∧ r ≠ .ok ∧
            h'.ctx.conn = h.ctx.conn))) h := by
  have hargs : ¬(count = 0 ∨ stride = 0) := by omega
  simp only [sqlRDBWriteMany, wp_bind, wp_get, hv, Bool.not_true, Bool.false_eq_true, if_false,
    if_neg hargs, wp_mutexLock]
  have hlook₁ : ({ h with mutex := h.mutex.lock }).lookup name = some schema := hlook
  obtain ⟨m, hbuild⟩ := internalQbBuild_writeSpec dialect schema
  refine wp_mono (openStmt_spec (h := { h with mutex := h.mutex.lock }) hs _ name _)
    fun res h₁ hopen => ?_
  cases res with
  | error r =>
    obtain ⟨hr, hs₁, hopen⟩ := hopen
    simp only [hlook₁] at hopen
    refine ⟨hs₁, .inr ⟨fun hp => ?_, hr, congrArg SqlRDBHandle.ctx hopen.1⟩⟩
    obtain hb | ⟨sql, n, hb, -, hc⟩ := hopen.2 hp.faults hp.heap
    · cases hb.symm.trans hbuild
    · cases hb.symm.trans hbuild
      exact hp.compiles hc
  | ok x =>
    obtain ⟨schema', id, owned⟩ := x
    obtain ⟨hview, hlook', sql, n, hb, hu, ⟨st, hst, hfresh⟩, -⟩ := hopen
    cases hlook'.symm.trans hlook₁
    cases hb.symm.trans hbuild
    have hconn : h₁.ctx.conn = h.ctx.conn := congrArg SqlRDBHandle.ctx hview
    have htxn : h₁.txn.depth = 0 := (congrArg (fun v => v.txn.depth) hview).trans hd
    simp only [wp_bind, wp_get, htxn, if_true, wp_drv]
    rw [← hconn]
    have hcontrol : ∀ (call : DriverCall) (f : Store CStr Db → Option (Store CStr Db))
        (s : Session Db) (st : Stmt), s.stmts id = some st →
        onConn (Conn.control dialect call f) s =
          ((s.conn.control dialect call f).1, s.put id st (s.conn.control dialect call f).2) := by
      intro call f s st hst
      rw [Session.put_self id hst]
      rfl
    rw [Conn.runBatch]
    refine wp.of_run (hcontrol .begin Store.begin _ st hst) ?_
    rcases h₁.ctx.conn.control dialect .begin Store.begin with ⟨br, c⟩
    by_cases hbr : br = .ok
    · subst hbr
      simp only [wp_ite, ne_eq, not_true_eq_false, if_false, wp_bind, wp_drv]
      refine wp_mono (writeRows_spec schema rows stride nullMaps count 0 (Session.stmts_put ..)
        hfresh (countParams_writeSql dialect hwf)) fun r s₂ hrun => ?_
      rw [Session.conn_put] at hrun
      generalize c.runRows e (writeSql dialect schema)
        (batchBinds schema rows stride nullMaps count 0) = run at hrun ⊢
      obtain ⟨rfl, st', rfl, hsql', hn'⟩ := hrun
      simp only [Session.put_put]
      split_ifs
      · refine wp.of_run (hcontrol .commit Store.commit _ st' (Session.stmts_put ..)) ?_
        rw [Session.conn_put, Session.put_put]
        refine wp_mono (release_put hu hsql' hn' _) fun _ h' hc => ?_
        rw [wp_mutexUnlock]
        exact ⟨hc.1, .inl (Prod.ext rfl (congrArg SqlRDBHandle.ctx hc.2))⟩
      · refine wp.of_run (hcontrol .rollback Store.rollback _ st' (Session.stmts_put ..)) ?_
        rw [Session.conn_put, Session.put_put]
        refine wp_mono (release_put hu hsql' hn' _) fun _ h' hc => ?_
        rw [wp_mutexUnlock]
        exact ⟨hc.1, .inl (Prod.ext rfl (congrArg SqlRDBHandle.ctx hc.2))⟩
    · simp only [ne_eq, hbr, not_false_eq_true, if_true, wp_bind]
      refine wp_mono (release_put hu hfresh.sql_eq hfresh.nparams_eq c) fun _ h' hc => ?_
      rw [wp_mutexUnlock]
      exact ⟨hc.1, .inl (Prod.ext rfl (congrArg SqlRDBHandle.ctx hc.2))⟩

end Batch

/-! ## All or nothing -/

/-- The values that a driver stores for a row, if every column has one. -/
def Binds.values : Binds → Option (List SqlValue)
  | [] => some []
  | .error _ :: _ => none
  | .ok v :: binds => do
    let vs ← Binds.values binds
    pure (storedValue v :: vs)

/-- The database after all the rows have been written, if every one of them can be. -/
def writesAll (e : Engine Db) (sql : CStr) : List Binds → Db → Option Db
  | [], db => some db
  | binds :: batch, db => do
    let values ← binds.values
    let outcome ← e.run sql values db
    writesAll e sql batch outcome.db

/-- Success says that every row has been written, an error that nothing has, and no transaction is
left open. -/
structure AllOrNothing (e : Engine Db) (sql : CStr) (batch : List Binds) (s : Store CStr Db)
    (r : SqlRDBResult) (s' : Store CStr Db) : Prop where
  written : r = .ok → writesAll e sql batch s.contents = some s'.contents
  unchanged : r ≠ .ok → s'.contents = s.contents
  closed : s'.frames = []

/-- If the transaction is begun and every row is written, then the commit succeeds. -/
def CommitOk (dialect : C2SqlDialect) (e : Engine Db) (sql : CStr) (batch : List Binds)
    (c : Conn Db) : Prop :=
  ∀ c₁ c₂, c.control dialect .begin Store.begin = (.ok, c₁) → c₁.runRows e sql batch = (.ok, c₂) →
    c₂.faults .commit c₂.tick = none

section Connection

variable {dialect : C2SqlDialect} {e : Engine Db} {sql : CStr} {c : Conn Db}

/-- Binding keeps the connection but for the number of calls, and a success stores the values. -/
theorem Conn.bindAll_spec (binds : Binds) (c : Conn Db) :
    (∃ t, (c.bindAll binds).2 = { c with tick := t }) ∧
      ∀ vs, (c.bindAll binds).1 = .ok vs → binds.values = some vs := by
  induction binds generalizing c with
  | nil =>
    refine ⟨⟨c.tick, rfl⟩, fun vs hvs => ?_⟩
    cases hvs
    rfl
  | cons b binds ih =>
    cases b with
    | error r => exact ⟨⟨c.tick, rfl⟩, (by rintro _ ⟨⟩)⟩
    | ok v =>
      simp only [Conn.bindAll, Conn.fault]
      cases c.faults .bind c.tick with
      | some f => exact ⟨⟨_, rfl⟩, (by rintro _ ⟨⟩)⟩
      | none =>
        obtain ⟨⟨t, ht⟩, hvs⟩ := ih { c with tick := c.tick + 1 }
        refine ⟨⟨t, ht⟩, fun vs h => ?_⟩
        cases hres : (Conn.bindAll binds { c with tick := c.tick + 1 }).1 with
        | error r => simp [hres, Except.map] at h
        | ok us =>
          simp only [hres, Except.map, Except.ok.injEq] at h
          subst h
          simp [Binds.values, hvs us hres]

/-- The execution of a row keeps the schedule of failures and the open frames, and a success is the
engine's. -/
theorem Conn.runOnce_spec (e : Engine Db) (sql : CStr) (binds : Binds) (c : Conn Db) :
    (c.runOnce e sql binds).2.faults = c.faults ∧
      (c.runOnce e sql binds).2.store.frames = c.store.frames ∧
      ∀ rows, (c.runOnce e sql binds).1 = .ok rows → ∃ vs o, binds.values = some vs ∧
        e.run sql vs c.store.contents = some o ∧
        (c.runOnce e sql binds).2.store.contents = o.db := by
  obtain ⟨⟨t, ht⟩, hvalues⟩ := c.bindAll_spec binds
  rw [Conn.runOnce]
  rcases hb : c.bindAll binds with ⟨r | vs, c'⟩
  · obtain rfl : c' = { c with tick := t } := by rw [← ht, hb]
    exact ⟨rfl, rfl, (by rintro _ ⟨⟩)⟩
  · obtain rfl : c' = { c with tick := t } := by rw [← ht, hb]
    simp only [Conn.runBound, Conn.fault, Conn.execute]
    cases c.faults .step t with
    | some f => exact ⟨rfl, rfl, (by rintro _ ⟨⟩)⟩
    | none =>
      simp only
      cases ho : e.run sql vs c.store.contents with
      | none => exact ⟨rfl, rfl, (by rintro _ ⟨⟩)⟩
      | some o => exact ⟨rfl, rfl, fun _ _ => ⟨vs, o, hvalues vs (by rw [hb]), ho, rfl⟩⟩

theorem Conn.runOnce_ne_ok {binds : Binds} (hb : binds.Sound) {c : Conn Db} {r : SqlRDBResult}
    (h : (c.runOnce e sql binds).1 = .error r) : r ≠ .ok := by
  rw [Conn.runOnce] at h
  rcases hres : c.bindAll binds with ⟨r' | vs, c'⟩
  · rw [hres] at h
    cases h
    exact Conn.bindAll_ne_ok hb c (by rw [hres])
  · rw [hres] at h
    exact Conn.runBound_ne_ok sql vs c' h

/-- The rows keep the schedule of failures and the open frames, and a success writes them all. -/
theorem Conn.runRows_spec (e : Engine Db) (sql : CStr) {batch : List Binds}
    (hb : ∀ binds ∈ batch, binds.Sound) (c : Conn Db) :
    (c.runRows e sql batch).2.faults = c.faults ∧
      (c.runRows e sql batch).2.store.frames = c.store.frames ∧
      ((c.runRows e sql batch).1 = .ok →
        writesAll e sql batch c.store.contents =
          some (c.runRows e sql batch).2.store.contents) := by
  induction batch generalizing c with
  | nil => exact ⟨rfl, rfl, fun _ => rfl⟩
  | cons binds batch ih =>
    obtain ⟨hbinds, hbatch⟩ := List.forall_mem_cons.1 hb
    obtain ⟨hfaults, hframes, hok⟩ := c.runOnce_spec e sql binds
    have hne : ∀ r, (c.runOnce e sql binds).1 = .error r → r ≠ .ok := fun r =>
      Conn.runOnce_ne_ok hbinds
    rw [Conn.runRows]
    generalize c.runOnce e sql binds = run at hfaults hframes hok hne ⊢
    obtain ⟨r | rows, c'⟩ := run
    · exact ⟨hfaults, hframes, fun hr => absurd hr (hne r rfl)⟩
    · obtain ⟨vs, o, hvs, ho, hdb⟩ := hok rows rfl
      obtain ⟨hfaults', hframes', hok'⟩ := ih hbatch c'
      refine ⟨hfaults'.trans hfaults, hframes'.trans hframes, fun hr => ?_⟩
      simp only [writesAll, hvs, ho, Option.bind_eq_bind, Option.bind_some]
      rw [← hdb]
      exact hok' hr

/-- A command that succeeds. -/
theorem Conn.control_of_fault_eq_none (dialect : C2SqlDialect) {call : DriverCall}
    {f : Store CStr Db → Option (Store CStr Db)} {s : Store CStr Db}
    (hf : c.faults call c.tick = none) (hs : f c.store = some s) :
    c.control dialect call f = (.ok, { c with tick := c.tick + 1, store := s }) := by
  simp only [Conn.control, Conn.call, Conn.fault, hf, hs, Conn.txn]

/-- A command that fails on its own. -/
theorem Conn.control_of_fault_eq_some (dialect : C2SqlDialect) {call : DriverCall}
    (f : Store CStr Db → Option (Store CStr Db)) {x : Fault}
    (hf : c.faults call c.tick = some x) :
    c.control dialect call f = (x.code, { c with tick := c.tick + 1 }) := by
  simp only [Conn.control, Conn.call, Conn.fault, hf]

/-- **A batch on a connection is all or nothing exactly if its commit does not fail.** -/
theorem Conn.allOrNothing_runBatch_iff (dialect : C2SqlDialect) (e : Engine Db) (sql : CStr)
    {batch : List Binds} (hb : ∀ binds ∈ batch, binds.Sound)
    (hframes : c.store.frames = []) (hrb : ∀ k, c.faults .rollback k = none) :
    AllOrNothing e sql batch c.store (c.runBatch dialect e sql batch).1
        (c.runBatch dialect e sql batch).2.store ↔ CommitOk dialect e sql batch c := by
  cases hbegin : c.faults .begin c.tick with
  | some x =>
    -- nothing has happened
    have hctl := Conn.control_of_fault_eq_some dialect Store.begin hbegin
    rw [Conn.runBatch, hctl, CommitOk, hctl]
    simp only [ne_eq, x.code_ne_ok, not_false_eq_true, if_true]
    exact ⟨fun _ c₁ c₂ h => absurd (congrArg Prod.fst h) x.code_ne_ok,
      fun _ => ⟨fun h => absurd h x.code_ne_ok, fun _ => rfl, hframes⟩⟩
  | none =>
    have hbeg : c.store.begin = some ⟨c.store.contents, [⟨none, c.store.contents⟩]⟩ := by
      simp only [Store.begin, hframes]
    have hctl := Conn.control_of_fault_eq_none dialect hbegin hbeg
    rw [Conn.runBatch, hctl, CommitOk, hctl]
    set c₁ : Conn Db := { c with
      tick := c.tick + 1
      store := ⟨c.store.contents, [⟨none, c.store.contents⟩]⟩ } with hc₁
    obtain ⟨hfaults, hframes₁, hok⟩ := c₁.runRows_spec e sql hb
    have hcond : (∀ c₁' c₂, (SqlRDBResult.ok, c₁) = (.ok, c₁') →
          c₁'.runRows e sql batch = (.ok, c₂) → c₂.faults .commit c₂.tick = none) ↔
        ((c₁.runRows e sql batch).1 = .ok → (c₁.runRows e sql batch).2.faults .commit
          (c₁.runRows e sql batch).2.tick = none) := by
      refine ⟨fun h hr => h c₁ _ rfl (Prod.ext hr rfl), fun h c₁' c₂ h₁ hr => ?_⟩
      cases h₁
      rw [hr] at h
      exact h rfl
    simp only [hcond, ne_eq, not_true_eq_false, if_false]
    generalize c₁.runRows e sql batch = run at hfaults hframes₁ hok ⊢
    obtain ⟨r, c₂⟩ := run
    simp only at hfaults hframes₁ hok ⊢
    by_cases hr : r = .ok
    · subst hr
      cases hcommit : c₂.faults .commit c₂.tick with
      | none =>
        have hcom : c₂.store.commit = some ⟨c₂.store.contents, []⟩ := by
          simp only [Store.commit, hframes₁, hc₁]
        rw [if_pos rfl, Conn.control_of_fault_eq_none dialect hcommit hcom]
        exact ⟨fun _ _ => rfl, fun _ => ⟨hok, fun hne => absurd rfl hne, rfl⟩⟩
      | some x =>
        -- the transaction is still open
        rw [if_pos rfl, Conn.control_of_fault_eq_some dialect _ hcommit]
        refine ⟨fun h => ?_, fun h => by cases h rfl⟩
        have hclosed : c₂.store.frames = [] := h.closed
        rw [hframes₁] at hclosed
        cases hclosed
    · have hrb₂ : c₂.faults .rollback c₂.tick = none := by rw [hfaults]; exact hrb _
      have hroll : c₂.store.rollback = some ⟨c.store.contents, []⟩ := by
        simp only [Store.rollback, hframes₁, hc₁, List.getLast?_singleton, Option.map_some]
      rw [if_neg hr, Conn.control_of_fault_eq_none dialect hrb₂ hroll]
      exact ⟨fun _ h => absurd h hr, fun _ => ⟨fun h => absurd h hr, fun _ => rfl, rfl⟩⟩

end Connection

theorem sound_of_mem_batchBinds (schema : SqlRDBSchema) (rows : Mem) (stride : ℕ)
    (nullMaps : Option Mem) (k i : ℕ) :
    ∀ binds ∈ batchBinds schema rows stride nullMaps k i, binds.Sound := by
  induction k generalizing i with
  | zero => exact fun _ h => absurd h List.not_mem_nil
  | succ k ih => exact List.forall_mem_cons.2 ⟨rowBinds_sound _ _ _ _, ih _⟩

/-- **A batch outside a transaction is all or nothing exactly if its commit does not fail**: the
result of the commit is not looked at. Without failing preparations this is an equivalence; a batch
whose statement cannot be prepared is all or nothing as well. -/
theorem writeMany_allOrNothing_iff {dialect : C2SqlDialect} {e : Engine Db}
    {h : SqlRDBHandle (Session Db)} (hs : CacheSound dialect e h) (hv : h.valid = true)
    {name : CStr} {schema : SqlRDBSchema} (hlook : h.lookup name = some schema)
    (hacc : schema.Accepted) (hd : h.txn.depth = 0) (hframes : h.store.frames = [])
    (hrb : ∀ k, h.ctx.conn.faults .rollback k = none)
    (rows : Mem) (count stride : ℕ) (nullMaps : Option Mem) :
    let sql := writeSql dialect schema
    let batch := batchBinds schema rows stride nullMaps count 0
    let res := sqlRDBWriteMany (driver dialect e) (some name) (some rows) count stride nullMaps h
    let commitOk := 0 < count → 0 < stride → CommitOk dialect e sql batch h.ctx.conn
    (commitOk → AllOrNothing e sql batch h.store res.1 res.2.store) ∧
      (h.CanPrepare dialect e sql →
        (AllOrNothing e sql batch h.store res.1 res.2.store ↔ commitOk)) := by
  intro sql batch res commitOk
  by_cases hargs : 0 < count ∧ 0 < stride
  · obtain ⟨hcount, hstride⟩ := hargs
    have hcond : commitOk ↔ CommitOk dialect e sql batch h.ctx.conn :=
      ⟨fun h => h hcount hstride, fun h _ _ => h⟩
    have hiff := Conn.allOrNothing_runBatch_iff dialect e sql
      (sound_of_mem_batchBinds schema rows stride nullMaps count 0) hframes hrb
    obtain ⟨-, hrun | ⟨hp, hr, hconn⟩⟩ := sqlRDBWriteMany_spec hs hv hlook
      ((SqlRDBSchema.accepted_iff schema).1 hacc) hd rows hcount hstride nullMaps
    · have hr : res.1 = (h.ctx.conn.runBatch dialect e sql batch).1 := congrArg Prod.fst hrun
      have hc : res.2.store = (h.ctx.conn.runBatch dialect e sql batch).2.store :=
        congrArg (fun x => x.2.store) hrun
      rw [hcond, hr, hc]
      exact ⟨hiff.2, fun _ => hiff⟩
    · have hstore : res.2.store = h.store := congrArg Conn.store hconn
      refine ⟨fun _ => ⟨fun h => absurd h hr, fun _ => ?_, ?_⟩, fun h => absurd h hp⟩
      · rw [hstore]
      · rw [hstore, hframes]
  · have hnone : count = 0 ∨ stride = 0 := by omega
    have hres : wp (sqlRDBWriteMany (driver dialect e) (some name) (some rows) count stride
        nullMaps) (fun r h' => r = .errInvalidArg ∧ h' = h) h := by
      simp only [sqlRDBWriteMany, wp_bind, wp_get, hv, Bool.not_true, Bool.false_eq_true, if_false,
        if_pos hnone, wp_pure, and_self]
    have hall : AllOrNothing e sql batch h.store res.1 res.2.store := by
      rw [show res.1 = _ from hres.1, show res.2 = h from hres.2]
      exact ⟨(by rintro ⟨⟩), fun _ => rfl, hframes⟩
    exact ⟨fun _ => hall, fun _ => ⟨fun _ hc hs => absurd ⟨hc, hs⟩ hargs, fun _ => hall⟩⟩

/-- Two rows that are written and committed. -/
theorem writeMany_allOrNothing_sample :
    let res := sqlRDBWriteMany (driver .postgres journal) (some (lit "persons")) (some fun _ => 0)
      2 48 none journalHandle
    AllOrNothing journal (writeSql .postgres personsSchema)
      (batchBinds personsSchema (fun _ => 0) 48 none 2 0) journalHandle.store res.1
      res.2.store := by
  have hs : CacheSound .postgres journal journalHandle :=
    cacheSound_of_nil (SqlRDBStmtCache.represents_nil _ _)
  have hlook : journalHandle.lookup (lit "persons") = some personsSchema := by decide +kernel
  refine (writeMany_allOrNothing_iff hs rfl hlook personsSchema_accepted rfl rfl (fun _ => rfl)
    _ 2 48 none).1 fun _ _ c₁ c₂ h₁ h₂ => ?_
  have hfaults := (c₁.runRows_spec journal (writeSql .postgres personsSchema)
    (sound_of_mem_batchBinds personsSchema (fun _ => 0) 48 none 2 0)).1
  rw [h₂] at hfaults
  cases h₁
  rw [hfaults]
  rfl

/-! ## A commit that fails -/

/-- A handle whose driver fails at every commit. -/
def busyHandle : SqlRDBHandle (Session (List (CStr × List SqlValue))) :=
  { journalHandle with ctx := { journalSession with conn := { journalSession.conn with
    faults := fun call _ => if call = .commit then some .driver else none } } }

/-- A batch of one row whose commit fails: success is reported for a row that a rollback will
remove, and the transaction stays open. -/
theorem writeMany_commit_fails :
    let res := sqlRDBWriteMany (driver .sqlite journal) (some (lit "persons")) (some fun _ => 0)
      1 48 none busyHandle
    res.1 = .ok ∧ res.2.txn.depth = 0 ∧ res.2.store.frames = [⟨none, []⟩] ∧
      res.2.store.durable = busyHandle.store.contents ∧
      ¬AllOrNothing journal (writeSql .sqlite personsSchema)
        (batchBinds personsSchema (fun _ => 0) 48 none 1 0) busyHandle.store res.1 res.2.store := by
  intro res
  have hframes : res.2.store.frames = [⟨none, []⟩] := by decide +kernel
  refine ⟨by decide +kernel, by decide +kernel, hframes, by decide +kernel, fun h => ?_⟩
  cases h.closed.symm.trans hframes

end C2Sql
