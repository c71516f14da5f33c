import C2Sql.CacheResize
import C2Sql.Frame
import C2Sql.KeyedWrites
import C2Sql.StoreSteps

/-!
# The handle refines the store

A handle on a database that executes SQL is a store of tables: each call that its client makes is a
step of the store, and a run of calls is a run of the store with the same replies.

* `beginTx_ok`, `endTx_ok`: without failures, the transaction calls succeed where the store can;
* `serves_beginTx`, `serves_commitTx`, `serves_rollbackTx`, `serves_writeMany`, `serves_setConfig`,
  `serves_setLogger`: the steps of these calls, beside those of the single statements;
* `exec_refines`, `run_refines`: one call of a client, and a run of calls;
* `handle_refines_store`: the replies and the state after a run of calls, from a handle that serves
  its structs.
-/

namespace C2Sql

open SnapshotStack SqlText StateLogic

/-! ## Transactions -/

section Transactions

variable {Db : Type} (dialect : C2SqlDialect) (e : Engine Db) {h : SqlRDBHandle (Session Db)}

/-- What the transaction calls keep. -/
def SqlRDBHandle.steady (h : SqlRDBHandle (Session Db)) :
    SqlRDBStmtCache × (StmtId → Option Stmt) × StmtId × (DriverCall → ℕ → Option Fault) ×
      (ℕ → Bool) :=
  (h.cache, h.ctx.stmts, h.ctx.next, h.ctx.conn.faults, h.heap.fails)

theorem Conn.faults_txn (c : Conn Db) (warns : Bool) (res : Option (Store CStr Db)) :
    (c.txn warns res).2.faults = c.faults := by
  cases res <;> rfl

theorem keepsSteady_call (call : DriverCall) {act : Conn Db → SqlRDBResult × Conn Db}
    (hact : ∀ c, (act c).2.faults = c.faults) :
    Keeps SqlRDBHandle.steady (drv (onConn fun c => c.call call act)) := by
  intro h
  have hfaults : (h.ctx.conn.call call act).2.faults = h.ctx.conn.faults := by
    rw [Conn.call, Conn.fault]
    cases h.ctx.conn.faults call h.ctx.conn.tick with
    | some f => rfl
    | none => exact hact _
  exact congrArg (fun f => (h.cache, h.ctx.stmts, h.ctx.next, f, h.heap.fails)) hfaults

theorem keepsSteady_beginCall :
    Keeps SqlRDBHandle.steady (beginCall (driver dialect e)) := by
  refine .of_wp fun h => ?_
  simp only [beginCall, wp_bind, wp_get]
  split
  · exact keepsSteady_call _ (fun c => c.faults_txn _ _) h
  · exact keepsSteady_call _ (fun c => c.faults_txn _ _) _

theorem keepsSteady_commitCall : Keeps SqlRDBHandle.steady (commitCall (driver dialect e)) :=
  Keeps.bind (fun _ => rfl) fun _ => .ite (keepsSteady_call _ fun c => c.faults_txn _ _)
    (keepsSteady_call _ fun c => c.faults_txn _ _)

theorem keepsSteady_rollbackCall : Keeps SqlRDBHandle.steady (rollbackCall (driver dialect e)) :=
  Keeps.bind (fun _ => rfl) fun _ => .ite (keepsSteady_call _ fun c => c.faults_txn _ _)
    ((keepsSteady_call _ fun c => c.faults_txn _ _).bind fun _ =>
      .ite (keepsSteady_call _ fun c => c.faults_txn _ _) (.pure _))

theorem keepsSteady_mutexUnlock :
    Keeps SqlRDBHandle.steady (mutexUnlock : Api (Session Db) Unit) := fun h => by
  rw [mutexUnlock_eq]
  rfl

theorem keepsSteady_mutexLock :
    Keeps SqlRDBHandle.steady (mutexLock : Api (Session Db) Unit) := fun h => by
  rw [mutexLock_eq]
  rfl

theorem keepsSteady_exit (r : SqlRDBResult) :
    Keeps SqlRDBHandle.steady (do mutexUnlock; pure r : Api (Session Db) SqlRDBResult) :=
  keepsSteady_mutexUnlock.bind fun _ => .pure _

theorem keepsSteady_beginTx : Keeps SqlRDBHandle.steady (sqlRDBBeginTx (driver dialect e)) := by
  refine Keeps.bind (fun _ => rfl) fun h => .ite (.pure _) (keepsSteady_mutexLock.bind fun _ => ?_)
  refine .ite (Keeps.bind (fun _ => rfl) fun _ => keepsSteady_exit _) ?_
  refine (keepsSteady_beginCall dialect e).bind fun r => .ite ?_ ?_
  · exact Keeps.bind (fun _ => rfl) fun _ => keepsSteady_exit _
  · exact Keeps.bind (fun _ => rfl) fun _ => keepsSteady_exit _

theorem keepsSteady_endTx (who : CStr) {call : Api (Session Db) SqlRDBResult}
    (hcall : Keeps SqlRDBHandle.steady call) : Keeps SqlRDBHandle.steady (endTx who call) := by
  refine Keeps.bind (fun _ => rfl) fun h => .ite (.pure _) (keepsSteady_mutexLock.bind fun _ => ?_)
  refine .ite (keepsSteady_exit _) (hcall.bind fun r => .ite ?_ ?_)
  · exact Keeps.bind (fun _ => rfl) fun _ => keepsSteady_exit _
  · exact Keeps.bind (fun _ => rfl) fun _ => keepsSteady_exit _

/-! ### Without failures -/

/-- A transaction command that the store accepts has its effect. -/
theorem txn_ok {s : Session Db} {call : DriverCall} {w : Bool}
    {f : Store CStr Db → Option (Store CStr Db)} {t : Store CStr Db}
    (hf : ∀ k, s.conn.faults call k = none) (ht : f s.conn.store = some t) :
    wp (onConn fun c => c.call call fun c => c.txn w (f c.store))
      (fun r s' => r = .ok ∧ s'.conn.store = t ∧ s'.conn.faults = s.conn.faults) s := by
  rw [wp, onConn, Conn.call, Conn.fault, hf]
  simp only [ht, Conn.txn]
  exact ⟨trivial, trivial, trivial⟩

variable (hn : h.Nesting) (hcalm : h.Calm)

include hn hcalm

theorem beginCall_ok : wp (beginCall (driver dialect e)) (fun r _ => r = .ok) h := by
  have hlen := hn.length_frames
  simp only [beginCall, wp_bind, wp_get, wp_ite, wp_set, wp_drv]
  split
  case isTrue h0 =>
    have hnil : h.store.frames = [] := List.length_eq_zero_iff.1 (hlen.trans h0)
    have hbegin : h.store.begin = some ⟨h.store.contents, [⟨none, h.store.contents⟩]⟩ := by
      rw [Store.begin, hnil]
    exact (txn_ok (hcalm.faults _) hbegin).1
  case isFalse h0 =>
    have hne : h.store.frames ≠ [] := fun hnil => h0 (by rw [← hlen, hnil]; rfl)
    rw [wp]
    simp only [driver, onConn, Conn.call, Conn.fault, hcalm.faults, Conn.savepoint]
    rw [if_neg fun h' => hne h'.2]
    rfl

theorem commitCall_ok (hd : 0 < h.txn.depth) :
    wp (commitCall (driver dialect e)) (fun r _ => r = .ok) h := by
  obtain ⟨k, hk⟩ := Nat.exists_eq_succ_of_ne_zero hd.ne'
  obtain ⟨f, fs, hfs, hf, -⟩ := hn.frames_eq hk
  simp only [commitCall, wp_bind, wp_get, wp_ite, wp_drv, hk, Nat.succ_eq_add_one, Nat.add_eq_right]
  split
  case isTrue h0 =>
    have hcommit : h.store.commit = some ⟨h.store.contents, []⟩ := by
      rw [Store.commit, hfs]
    exact (txn_ok (hcalm.faults _) hcommit).1
  case isFalse h0 =>
    rw [Nat.add_sub_cancel, hn.spNames_eq k (by omega) (by omega)]
    rw [frameName, if_neg h0] at hf
    exact (txn_ok (hcalm.faults _) (Store.release_top hfs hf)).1

theorem rollbackCall_ok (hd : 0 < h.txn.depth) :
    wp (rollbackCall (driver dialect e)) (fun r _ => r = .ok) h := by
  obtain ⟨k, hk⟩ := Nat.exists_eq_succ_of_ne_zero hd.ne'
  obtain ⟨f, fs, hfs, hf, -⟩ := hn.frames_eq hk
  simp only [rollbackCall, wp_bind, wp_get, wp_ite, wp_drv, hk, Nat.succ_eq_add_one,
    Nat.add_eq_right]
  split
  case isTrue h0 =>
    obtain ⟨g, hg⟩ := Option.isSome_iff_exists.1
      (List.getLast?_isSome.2 (show h.store.frames ≠ [] by rw [hfs]; exact List.cons_ne_nil _ _))
    have hrollback : h.store.rollback = some ⟨g.saved, []⟩ := by
      rw [Store.rollback, hg]
      rfl
    exact (txn_ok (hcalm.faults _) hrollback).1
  case isFalse h0 =>
    rw [Nat.add_sub_cancel, hn.spNames_eq k (by omega) (by omega)]
    rw [frameName, if_neg h0] at hf
    refine wp_mono (txn_ok (hcalm.faults _) (Store.rollbackTo_top hfs hf)) ?_
    rintro _ s ⟨rfl, hstore, hfaults⟩
    have htop : s.conn.store.release (spName (k + 1)) = some _ :=
      Store.release_top (by rw [hstore]; exact hfs) hf
    rw [if_pos rfl]
    exact (txn_ok (by rw [hfaults]; exact hcalm.faults _) htop).1

theorem beginTx_ok (hroom : h.txn.depth < maxTxDepth) :
    wp (sqlRDBBeginTx (driver dialect e)) (fun r _ => r = .ok) h := by
  simp only [sqlRDBBeginTx, wp_bind, wp_get, wp_ite, wp_mutexLock, wp_errSet, wp_mutexUnlock,
    wp_pure, wp_modify, hn.valid, Bool.not_true, Bool.false_eq_true, if_false, not_le.2 hroom]
  refine wp_mono (beginCall_ok dialect e hn.lock ⟨hcalm.faults, hcalm.heap⟩) ?_
  rintro _ _ rfl
  simp

omit hcalm in
theorem endTx_ok (who : CStr) {call : Api (Session Db) SqlRDBResult} (hd : 0 < h.txn.depth)
    (hcall : wp call (fun r _ => r = .ok) { h with mutex := h.mutex.lock }) :
    wp (endTx who call) (fun r _ => r = .ok) h := by
  simp only [endTx, wp_bind, wp_get, wp_ite, wp_mutexLock, wp_errSet, wp_mutexUnlock,
    wp_pure, wp_modify, hn.valid, Bool.not_true, Bool.false_eq_true, if_false, hd.ne']
  refine wp_mono hcall ?_
  rintro _ _ rfl
  simp

end Transactions

section TransactionCalls

variable {dialect : C2SqlDialect} {sem : SqlSemantics} {h h' : TableHandle}

theorem Kept.of_steady (hsound : CacheSound dialect (sqlEngine sem) h)
    (hsteady : h'.steady = h.steady) (hn : h'.Nesting) : Kept dialect sem h h' where
  sound := by
    obtain ⟨l, hl, hready⟩ := hsound
    have hcache : h'.cache = h.cache := congrArg Prod.fst hsteady
    have hstmts : h'.ctx.stmts = h.ctx.stmts := congrArg (fun v => v.2.1) hsteady
    have hnext : h'.ctx.next = h.ctx.next := congrArg (fun v => v.2.2.1) hsteady
    refine ⟨l, hcache ▸ hl, hready.nodup, ?_, hready.compiles, ?_⟩
    · rw [hnext]
      exact hready.lt_next
    · rw [hstmts]
      exact hready.fresh
  faults := congrArg (fun v => v.2.2.2.1) hsteady
  fails := congrArg (fun v => v.2.2.2.2) hsteady
  nesting := hn

/-- `SqlRDBBeginTx` makes a step of the store. -/
theorem serves_beginTx (hserving : h.Serving dialect sem) :
    wp (sqlRDBBeginTx (driver dialect (sqlEngine sem)))
      (fun r h' => ServesCall dialect sem h .beginTx (.plain r) h') h := by
  have hn := hserving.nesting
  have hstep := sqlRDBBeginTx_step dialect (sqlEngine sem) hn
  have hsteady := keepsSteady_beginTx dialect (sqlEngine sem) h
  have hok := fun hcalm hroom => beginTx_ok dialect (sqlEngine sem) hn hcalm hroom
  rw [wp] at hstep ⊢
  simp only [wp] at hok
  generalize sqlRDBBeginTx (driver dialect (sqlEngine sem)) h = res at hstep hsteady hok ⊢
  obtain ⟨r, h'⟩ := res
  obtain ⟨hstep, hstays⟩ := hstep
  have hkept := Kept.of_steady hserving.sound hsteady (hstep.nesting hn hstays)
  cases hstep with
  | failed hr hdepth hstore =>
    refine hkept.serves hstore (.refused hr fun hcalm reply s' hmeant => hr ?_)
    cases hmeant with
    | beginTx room => exact hok hcalm (hn.length_frames ▸ room)
  | began room hdepth hname hstore =>
    refine ⟨hkept, ?_⟩
    rw [hstore, ← hn.length_frames]
    exact .meant (.beginTx (hn.length_frames.symm ▸ room))

/-- `SqlRDBCommitTx` makes a step of the store. -/
theorem serves_commitTx (hserving : h.Serving dialect sem) :
    wp (sqlRDBCommitTx (driver dialect (sqlEngine sem)))
      (fun r h' => ServesCall dialect sem h .commitTx (.plain r) h') h := by
  have hn := hserving.nesting
  have hstep := sqlRDBCommitTx_step dialect (sqlEngine sem) hn
  have hsteady := keepsSteady_endTx (lit "CommitTx")
    (keepsSteady_commitCall dialect (sqlEngine sem)) h
  have hok := fun hcalm hd => endTx_ok hn (lit "CommitTx") hd
    (commitCall_ok dialect (sqlEngine sem) hn.lock hcalm hd)
  rw [wp] at hstep ⊢
  simp only [wp] at hok
  rw [sqlRDBCommitTx] at hstep ⊢
  generalize endTx (lit "CommitTx") (commitCall (driver dialect (sqlEngine sem))) h = res
    at hstep hsteady hok ⊢
  obtain ⟨r, h'⟩ := res
  obtain ⟨hstep, hstays⟩ := hstep
  have hkept := Kept.of_steady hserving.sound hsteady (hstep.nesting hn hstays)
  cases hstep with
  | failed hr hdepth hstore =>
    refine hkept.serves hstore (.refused hr fun hcalm reply s' hmeant => hr ?_)
    cases hmeant with
    | commitTx hframes =>
      refine hok ⟨hcalm.faults, hcalm.heap⟩ ?_
      rw [← hn.length_frames, show h.store.frames = _ from hframes]
      exact Nat.succ_pos _
  | committed hdepth f hframes hcontents =>
    refine ⟨hkept, ?_⟩
    rw [store_ext (t := { h.store with frames := h'.store.frames }) hcontents rfl]
    exact .meant (.commitTx hframes)

/-- `SqlRDBRollbackTx` makes a step of the store. -/
theorem serves_rollbackTx (hserving : h.Serving dialect sem) :
    wp (sqlRDBRollbackTx (driver dialect (sqlEngine sem)))
      (fun r h' => ServesCall dialect sem h .rollbackTx (.plain r) h') h := by
  have hn := hserving.nesting
  have hstep := sqlRDBRollbackTx_step dialect (sqlEngine sem) hn
  have hsteady := keepsSteady_endTx (lit "RollbackTx")
    (keepsSteady_rollbackCall dialect (sqlEngine sem)) h
  have hok := fun hcalm hd => endTx_ok hn (lit "RollbackTx") hd
    (rollbackCall_ok dialect (sqlEngine sem) hn.lock hcalm hd)
  rw [wp] at hstep ⊢
  simp only [wp] at hok
  rw [sqlRDBRollbackTx] at hstep ⊢
  generalize endTx (lit "RollbackTx") (rollbackCall (driver dialect (sqlEngine sem))) h = res
    at hstep hsteady hok ⊢
  obtain ⟨r, h'⟩ := res
  obtain ⟨hstep, hstays⟩ := hstep
  have hkept := Kept.of_steady hserving.sound hsteady (hstep.nesting hn hstays)
  cases hstep with
  | failed hr hdepth hstore =>
    by_cases hrew : TxCall.rollback.rewinds (driver dialect (sqlEngine sem)) h = true
    · have hd : 1 < h.txn.depth := by
        rw [TxCall.rewinds, Bool.and_eq_true, decide_eq_true_iff] at hrew
        exact hrew.1
      obtain ⟨f, fs, hfs, -⟩ := hn.frames_eq (Nat.succ_pred_eq_of_pos (by omega)).symm
      rw [if_pos hrew, Store.innermost, hfs] at hstore
      refine ⟨hkept, ?_⟩
      rw [hstore]
      refine .rewound (fun hcalm => hr (hok ⟨hcalm.faults, hcalm.heap⟩ (by omega))) hr hfs
    · rw [if_neg hrew] at hstore
      refine hkept.serves hstore (.refused hr fun hcalm reply s' hmeant => hr ?_)
      cases hmeant with
      | rollbackTx hframes =>
        refine hok ⟨hcalm.faults, hcalm.heap⟩ ?_
        rw [← hn.length_frames, show h.store.frames = _ from hframes]
        exact Nat.succ_pos _
  | rolledBack hdepth f hframes hcontents =>
    refine ⟨hkept, ?_⟩
    rw [store_ext (t := ⟨f.saved, h'.store.frames⟩) hcontents rfl]
    exact .meant (.rollbackTx hframes)

end TransactionCalls

/-! ## Batches -/

section Batches

variable (dialect : C2SqlDialect) {sem : SqlSemantics} {h : TableHandle} {schema : SqlRDBSchema}
  (hwf : schema.WellFormed)

include hwf

variable (sem) in
/-- A row is written as its statement is executed. It can be written unless the driver fails. -/
theorem runOnce_executed {binds : Binds} (hb : binds.Sound) (c : Conn (Catalog SqlValue)) :
    match c.runOnce (sqlEngine sem) (writeSql dialect schema) binds with
    | (.ok _, c') => ∃ res, executed sem schema binds c.store.contents = some res ∧
        c'.store = { c.store with contents := res.db } ∧ c'.faults = c.faults
    | (.error r, c') => r ≠ .ok ∧ c'.store = c.store ∧ c'.faults = c.faults ∧
        ((∀ call k, c.faults call k = none) →
          executed sem schema binds c.store.contents = none) := by
  obtain ⟨hfaults, hframes, hok⟩ :=
    c.runOnce_spec (sqlEngine sem) (writeSql dialect schema) binds
  rcases hrun : c.runOnce (sqlEngine sem) (writeSql dialect schema) binds with ⟨r | rows, c'⟩
  · rw [hrun] at hfaults
    refine ⟨Conn.runOnce_ne_ok hb (by rw [hrun]), Conn.store_runOnce_error hrun, hfaults,
      fun hf => ?_⟩
    cases hex : executed sem schema binds c.store.contents with
    | none => rfl
    | some res =>
      obtain ⟨hset, vs, hvs, hexec⟩ := executed_eq_some_iff.1 hex
      have hone := c.runOnce_of_run hf hvs
        ((run_writeSql_iff dialect hwf).2 ⟨hset, res, hexec, rfl⟩)
      rw [hrun] at hone
      cases hone
  · rw [hrun] at hfaults hframes hok
    obtain ⟨vs, o, hvs, ho, hdb⟩ := hok rows rfl
    obtain ⟨hset, res, hexec, rfl⟩ := (run_writeSql_iff dialect hwf).1 ho
    exact ⟨res, executed_eq_some_iff.2 ⟨hset, vs, hvs, hexec⟩, store_ext hdb hframes, hfaults⟩

/-- The rows of a batch have been written up to one that cannot be, or for which the driver fails:
all of them, if the result is a success. -/
structure WrittenUpTo (sem : SqlSemantics) (schema : SqlRDBSchema) (batch : List Binds)
    (calm : Prop) (db : Catalog SqlValue) (r : SqlRDBResult) (db' : Catalog SqlValue) : Prop where
  all : r = .ok → writeBatch sem schema batch db = (true, db')
  first : ∃ k, writeBatch sem schema (batch.take k) db = (true, db')
  calm : calm → r ≠ .ok → writeBatch sem schema batch db = (false, db')

variable (sem) in
/-- The rows of a batch are written up to the first one that cannot be, or the driver fails. -/
theorem runRows_writtenUpTo {batch : List Binds} (hb : ∀ binds ∈ batch, binds.Sound)
    (c : Conn (Catalog SqlValue)) :
    ∃ r c', c.runRows (sqlEngine sem) (writeSql dialect schema) batch = (r, c') ∧
      WrittenUpTo sem schema batch (∀ call k, c.faults call k = none) c.store.contents r
        c'.store.contents ∧
      c'.store.frames = c.store.frames ∧ c'.faults = c.faults := by
  induction batch generalizing c with
  | nil => exact ⟨.ok, c, rfl, ⟨fun _ => rfl, ⟨0, rfl⟩, fun _ h => absurd rfl h⟩, rfl, rfl⟩
  | cons binds batch ih =>
    obtain ⟨hbinds, hrest⟩ := List.forall_mem_cons.1 hb
    have hone := runOnce_executed dialect sem hwf hbinds c
    rw [Conn.runRows]
    rcases hrun : c.runOnce (sqlEngine sem) (writeSql dialect schema) binds with ⟨r | rows, c₁⟩
    · rw [hrun] at hone
      obtain ⟨hr, hstore, hfaults, hcalm⟩ := hone
      refine ⟨r, c₁, rfl, ⟨fun h => absurd h hr, ⟨0, ?_⟩, fun hf _ => ?_⟩, by rw [hstore], hfaults⟩
      · rw [hstore]
        rfl
      · rw [writeBatch, hcalm hf, hstore]
    · rw [hrun] at hone
      obtain ⟨res, hexec, hstore, hfaults⟩ := hone
      obtain ⟨r, c', hrows, hwritten, hframes, hfaults'⟩ := ih hrest c₁
      rw [hstore, hfaults] at hwritten
      -- the first row has been written, and the rest is written after it
      have hcons : ∀ bs, writeBatch sem schema (binds :: bs) c.store.contents =
          writeBatch sem schema bs res.db := fun bs => by rw [writeBatch, hexec]
      refine ⟨r, c', hrows, ⟨fun h => (hcons _).trans (hwritten.all h), ?_,
        fun hf h => (hcons _).trans (hwritten.calm hf h)⟩, by rw [hframes, hstore],
        hfaults'.trans hfaults⟩
      obtain ⟨k, hk⟩ := hwritten.first
      exact ⟨k + 1, (hcons _).trans hk⟩

/-- A batch has been written as a whole, if the result is a success, or not at all. -/
structure WrittenOrNot (sem : SqlSemantics) (schema : SqlRDBSchema) (batch : List Binds)
    (calm : Prop) (db : Catalog SqlValue) (r : SqlRDBResult) (db' : Catalog SqlValue) : Prop where
  all : r = .ok → writeBatch sem schema batch db = (true, db')
  none : r ≠ .ok → db' = db
  calm : calm → r ≠ .ok → ∃ db₁, writeBatch sem schema batch db = (false, db₁)

/-- **A batch with a transaction of its own** is written as a whole or not at all, if the driver
does not fail to end the transaction. -/
theorem runBatch_writtenOrNot {batch : List Binds} (hb : ∀ binds ∈ batch, binds.Sound)
    {c : Conn (Catalog SqlValue)}
    (hend : ∀ k, c.faults .commit k = none ∧ c.faults .rollback k = none)
    (hframes : c.store.frames = []) :
    ∃ r c', c.runBatch dialect (sqlEngine sem) (writeSql dialect schema) batch = (r, c') ∧
      WrittenOrNot sem schema batch (∀ call k, c.faults call k = none) c.store.contents r
        c'.store.contents ∧
      c'.store.frames = [] ∧ c'.faults = c.faults := by
  have hbegin : c.store.begin = some ⟨c.store.contents, [⟨none, c.store.contents⟩]⟩ := by
    rw [Store.begin, hframes]
  rw [Conn.runBatch]
  cases hf : c.faults .begin c.tick with
  | some f =>
    rw [Conn.control_of_fault_eq_some dialect _ hf]
    simp only [ne_eq, f.code_ne_ok, not_false_eq_true, if_true]
    exact ⟨_, _, rfl, ⟨fun h => absurd h f.code_ne_ok, fun _ => rfl,
      fun hcalm => by simp [hcalm] at hf⟩, hframes, rfl⟩
  | none =>
    rw [Conn.control_of_fault_eq_none dialect hf hbegin]
    obtain ⟨r, c₁, hrows, hwritten, hframes₁, hfaults⟩ := runRows_writtenUpTo dialect sem hwf hb
      { c with tick := c.tick + 1, store := ⟨c.store.contents, [⟨none, c.store.contents⟩]⟩ }
    simp only [ne_eq, not_true_eq_false, if_false, hrows]
    by_cases hr : r = .ok
    · have hcommit : c₁.store.commit = some ⟨c₁.store.contents, []⟩ := by
        rw [Store.commit, hframes₁]
      have hfault : c₁.faults .commit c₁.tick = none := by
        rw [hfaults]
        exact (hend _).1
      rw [if_pos hr, Conn.control_of_fault_eq_none dialect hfault hcommit]
      exact ⟨r, _, rfl, ⟨hwritten.all, fun h => absurd hr h, fun _ h => absurd hr h⟩, rfl, hfaults⟩
    · have hrollback : c₁.store.rollback = some ⟨c.store.contents, []⟩ := by
        rw [Store.rollback, hframes₁]
        rfl
      have hfault : c₁.faults .rollback c₁.tick = none := by
        rw [hfaults]
        exact (hend _).2
      rw [if_neg hr, Conn.control_of_fault_eq_none dialect hfault hrollback]
      exact ⟨r, _, rfl, ⟨fun h => absurd h hr, fun _ => rfl,
        fun hcalm _ => ⟨_, hwritten.calm hcalm hr⟩⟩, rfl, hfaults⟩

theorem not_settable_of_compiles
    (hc : (sqlEngine sem).compiles (writeSql dialect schema) = false) : ¬schema.Settable := by
  intro hset
  rw [sqlEngine_compiles (parsed_writeSql hwf dialect hset)] at hc
  cases hc

omit hwf in
theorem writeBatch_of_not_settable (hset : ¬schema.Settable) {batch : List Binds} (hb : batch ≠ [])
    (db : Catalog SqlValue) : writeBatch sem schema batch db = (false, db) := by
  obtain ⟨binds, rest, rfl⟩ := List.exists_cons_of_ne_nil hb
  rw [writeBatch, executed, if_neg hset]

omit hwf in
theorem keepsTxn_writeMany (e : Engine (Catalog SqlValue)) (name : Option CStr) (rows : Option Mem)
    (n stride : ℕ) (nullMaps : Option Mem) :
    Keeps (fun h : TableHandle => h.txn)
      (sqlRDBWriteMany (driver dialect e) name rows n stride nullMaps) := by
  have hview : ∀ {α : Type} {c : Api (Session (Catalog SqlValue)) α},
      Keeps SqlRDBHandle.txnView c → Keeps (fun h : TableHandle => h.txn) c :=
    fun hc h => congrArg (fun v => v.2.1) (hc h)
  have hdrv : ∀ {α : Type} (c : StateM (Session (Catalog SqlValue)) α),
      Keeps (fun h : TableHandle => h.txn) (drv c) := fun _ _ => rfl
  have hclose : ∀ stmt owned (r : SqlRDBResult), Keeps (fun h : TableHandle => h.txn) (do
      releaseCachedStmt (driver dialect e) stmt owned
      mutexUnlock
      pure r) := fun stmt owned r =>
    (hview (keeps_releaseCachedStmt dialect e stmt owned)).bind fun _ =>
      (hview (keeps_mutexUnlock)).bind fun _ => .pure _
  refine Keeps.bind (fun _ => rfl) fun h => .ite (.pure _) ?_
  split
  · refine .ite (.pure _) (Keeps.bind (fun h => by rw [mutexLock_eq]) fun _ => ?_)
    refine (hview (keeps_openStmt dialect e _ _ _)).bind fun res => ?_
    split
    · exact .pure _
    · refine Keeps.bind (fun _ => rfl) fun h => .ite
        ((hdrv _).bind fun br => .ite (hclose _ _ _) ?_)
        (Keeps.bind (.pure _) fun br => .ite (hclose _ _ _) ?_)
      all_goals
        refine (hdrv _).bind fun r => .ite (.ite ?_ ?_) (hclose _ _ _)
        · exact (hdrv _).bind fun _ => hclose _ _ _
        · exact (hdrv _).bind fun _ => hclose _ _ _
  · exact .pure _

variable {dialect}

section Steps

variable (hserving : h.Serving dialect sem) {name : CStr} (hlook : h.lookup name = some schema)
  {rows : Mem} {n stride : ℕ} (hn : 0 < n) (hstride : 0 < stride) {nullMaps : Option Mem}
  {h' : TableHandle} {r : SqlRDBResult}

omit hwf

include hlook hn hstride

/-- A batch inside a transaction makes a step of the store. -/
theorem WrittenUpTo.serves
    (hw : WrittenUpTo sem schema (batchBinds schema rows stride nullMaps n 0) h.Calm
      h.store.contents r h'.store.contents) (hopen : h.store.frames ≠ [])
    (hkept : Kept dialect sem h h') (hframes : h'.store.frames = h.store.frames) :
    ServesCall dialect sem h (.writeMany (some name) (some rows) n stride nullMaps) (.plain r)
      h' := by
  have hstore : h'.store = { h.store with contents := h'.store.contents } := store_ext rfl hframes
  -- a batch that means its outcome
  have hmeant {all : Bool} (hr : r = .ok ↔ all = true) (hbatch : writeBatch sem schema
      (batchBinds schema rows stride nullMaps n 0) h.store.contents = (all, h'.store.contents)) :
      StoreStep dialect sem h.lookup h.Calm h.model
        (.writeMany (some name) (some rows) n stride nullMaps) (.plain r) ⟨h'.store, h.config⟩ := by
    have hstep : Meant dialect sem h.lookup h.model _ _ _ :=
      .writeMany hlook hn hstride hbatch hr
    rw [if_pos (.inr hopen)] at hstep
    rw [hstore]
    exact .meant hstep
  refine ⟨hkept, ?_⟩
  by_cases hr : r = .ok
  · exact hmeant (by simp [hr]) (hw.all hr)
  · by_cases hcalm : h.Calm
    · exact hmeant (by simp [hr]) (hw.calm hcalm hr)
    · obtain ⟨k, hk⟩ := hw.first
      rw [hstore]
      exact .stopped hcalm hr hlook hopen hk

/-- A batch with a transaction of its own makes a step of the store. -/
theorem WrittenOrNot.serves
    (hw : WrittenOrNot sem schema (batchBinds schema rows stride nullMaps n 0) h.Calm
      h.store.contents r h'.store.contents) (hclosed : h.store.frames = [])
    (hkept : Kept dialect sem h h') (hframes : h'.store.frames = h.store.frames) :
    ServesCall dialect sem h (.writeMany (some name) (some rows) n stride nullMaps) (.plain r)
      h' := by
  refine ⟨hkept, ?_⟩
  by_cases hr : r = .ok
  · have hstep : Meant dialect sem h.lookup h.model _ _ _ :=
      .writeMany hlook hn hstride (hw.all hr) (iff_of_true hr rfl)
    rw [if_pos (.inl rfl)] at hstep
    have hstore : h'.store = { h.store with contents := h'.store.contents } :=
      store_ext rfl hframes
    rw [hstore]
    exact .meant hstep
  · rw [store_ext (hw.none hr) hframes]
    by_cases hcalm : h.Calm
    · obtain ⟨db, hdb⟩ := hw.calm hcalm hr
      have hstep : Meant dialect sem h.lookup h.model _ _ _ :=
        .writeMany hlook hn hstride hdb (iff_of_false hr Bool.false_ne_true)
      rw [if_neg (by simp [SqlRDBHandle.model, hclosed])] at hstep
      exact .meant hstep
    · exact .refused hr fun h => absurd h hcalm

include hserving

/-- `SqlRDBWriteMany` makes a step of the store, if the driver does not fail to end a transaction
that the call opens. -/
theorem serves_writeMany (rows : Mem) (nullMaps : Option Mem)
    (hend : ∀ k, h.ctx.conn.faults .commit k = none ∧ h.ctx.conn.faults .rollback k = none) :
    wp (sqlRDBWriteMany (driver dialect (sqlEngine sem)) (some name) (some rows) n stride nullMaps)
      (fun r h' => ServesCall dialect sem h (.writeMany (some name) (some rows) n stride nullMaps)
        (.plain r) h') h := by
  have hv := hserving.nesting.valid
  have hwf := hserving.schemas name schema hlook
  have hsound := sound_of_mem_batchBinds schema rows stride nullMaps n 0
  have hne : batchBinds schema rows stride nullMaps n 0 ≠ [] := by
    obtain ⟨k, rfl⟩ := Nat.exists_eq_succ_of_ne_zero hn.ne'
    exact List.cons_ne_nil _ _
  have hcore := bracketed_writeMany (driver dialect (sqlEngine sem)) (some name) (some rows)
    n stride nullMaps h
  have htxn := keepsTxn_writeMany dialect (sqlEngine sem) (some name) (some rows) n
    stride nullMaps h
  -- what the call keeps, wherever the batch runs
  have hkept {h' : TableHandle} (hs' : CacheSound dialect (sqlEngine sem) h')
      (hcore : h'.core = h.core ∨ h'.core = h.core.locked.unlocked) (htxn : h'.txn = h.txn)
      (hfaults : h'.ctx.conn.faults = h.ctx.conn.faults)
      (hframes : h'.store.frames = h.store.frames) : Kept dialect sem h h' := by
    refine ⟨hs', hfaults, ?_, hserving.nesting.of_eq ?_ htxn hframes⟩
    · exact hcore.elim (congrArg fun v : SqlRDBHandle Unit => v.heap.fails)
        (congrArg fun v : SqlRDBHandle Unit => v.heap.fails)
    · exact hcore.elim (congrArg fun v : SqlRDBHandle Unit => v.magic)
        (congrArg fun v : SqlRDBHandle Unit => v.magic)
  have hunset (hset : ¬schema.Settable) : writeBatch sem schema
      (batchBinds schema rows stride nullMaps n 0) h.store.contents = (false, h.store.contents) :=
    writeBatch_of_not_settable hset hne _
  by_cases hd : h.txn.depth = 0
  · have hclosed : h.store.frames = [] :=
      List.length_eq_zero_iff.1 (hserving.nesting.length_frames.trans hd)
    have hspec := sqlRDBWriteMany_spec hserving.sound hv hlook hwf hd rows hn hstride nullMaps
    rw [wp] at hspec ⊢
    generalize sqlRDBWriteMany (driver dialect (sqlEngine sem)) (some name) (some rows) n stride
      nullMaps h = res at hspec hcore htxn ⊢
    obtain ⟨r, h'⟩ := res
    obtain ⟨hs', hrun | ⟨hprep, hr, hconn⟩⟩ := hspec
    · obtain ⟨r', c', hrun', hwritten, hframes, hfaults⟩ :=
        runBatch_writtenOrNot dialect hwf hsound hend hclosed
      obtain ⟨rfl, rfl⟩ := Prod.mk.inj (hrun.trans hrun')
      have hframes' : h'.store.frames = h.store.frames := hframes.trans hclosed.symm
      refine WrittenOrNot.serves hlook hn hstride ?_ hclosed
        (hkept hs' hcore htxn hfaults hframes') hframes'
      exact ⟨hwritten.all, hwritten.none, fun hcalm => hwritten.calm hcalm.faults⟩
    · have hstore : h'.store = h.store := congrArg Conn.store hconn
      have hframes' : h'.store.frames = h.store.frames := by rw [hstore]
      refine WrittenOrNot.serves hlook hn hstride ?_ hclosed
        (hkept hs' hcore htxn (congrArg Conn.faults hconn) hframes') hframes'
      refine ⟨fun h => absurd h hr, fun _ => by rw [hstore], fun hcalm _ => ⟨_, hunset ?_⟩⟩
      exact fun hset => hprep ⟨hcalm.faults _, hcalm.heap, by
        simp [sqlEngine_compiles (parsed_writeSql hwf dialect hset)]⟩
  · have hopen : h.store.frames ≠ [] := fun hnil =>
      hd (by rw [← hserving.nesting.length_frames, hnil]; rfl)
    have hspec := writeMany_nested_spec hserving.sound hv hlook hwf hd rows hn hstride nullMaps
    rw [wp] at hspec ⊢
    generalize sqlRDBWriteMany (driver dialect (sqlEngine sem)) (some name) (some rows) n stride
      nullMaps h = res at hspec hcore htxn ⊢
    obtain ⟨r, h'⟩ := res
    obtain ⟨hs', -, ⟨-, hrun⟩ | ⟨hr, hconn, hunprep⟩⟩ := hspec
    · obtain ⟨r', c', hrun', hwritten, hframes, hfaults⟩ :=
        runRows_writtenUpTo dialect sem hwf hsound h.ctx.conn
      obtain ⟨rfl, rfl⟩ := Prod.mk.inj (hrun.trans hrun')
      refine WrittenUpTo.serves hlook hn hstride ?_ hopen
        (hkept hs' hcore htxn hfaults hframes) hframes
      exact ⟨hwritten.all, hwritten.first, fun hcalm => hwritten.calm hcalm.faults⟩
    · have hstore : h'.store = h.store := congrArg Conn.store hconn
      have hframes' : h'.store.frames = h.store.frames := by rw [hstore]
      refine WrittenUpTo.serves hlook hn hstride ?_ hopen
        (hkept hs' hcore htxn (congrArg Conn.faults hconn) hframes') hframes'
      rw [hstore]
      refine ⟨fun h => absurd h hr, ⟨0, rfl⟩, fun hcalm _ => hunset ?_⟩
      exact not_settable_of_compiles dialect hwf
        (hunprep.refused (hcalm.faults _) hcalm.heap).2.2

end Steps

end Batches

/-! ## Configuration -/

section Configuration

variable {dialect : C2SqlDialect} {sem : SqlSemantics} {h h' : TableHandle}

/-- A resize of the cache keeps what it leaves in it ready, whether or not it succeeds. -/
theorem cacheRebuild_kept (hsound : CacheSound dialect (sqlEngine sem) h) (hn : h.Nesting) (n : ℕ) :
    wp (cacheRebuild (driver dialect (sqlEngine sem)) n)
      (fun _ h' => Kept dialect sem h h' ∧ h'.store = h.store) h := by
  obtain ⟨l, hrep, hl⟩ := hsound
  simp only [cacheRebuild, wp_bind, wp_malloc, wp_get]
  split
  · exact ⟨⟨⟨l, hrep, hl⟩, rfl, rfl, hn.of_eq rfl rfl rfl⟩, rfl⟩
  case h_2 r cache dropped hr =>
    obtain ⟨hrep', rfl, -⟩ := hrep.rebuild hr
    simp only [wp_bind, wp_set]
    rw [wp, finalizeAll_eq]
    refine ⟨⟨⟨l.take n, hrep', ?_⟩, rfl, rfl, hn.of_eq rfl rfl rfl⟩, rfl⟩
    refine (hl.sublist (List.take_sublist n l)).drop fun p hp => ?_
    rw [List.mem_reverse]
    exact hl.not_mem_drop n hp

/-- `SqlRDBSetConfig` makes a step of the store, if it returns. -/
theorem serves_setConfig (hserving : h.Serving dialect sem) (cfg : SqlRDBConfig) :
    wp (sqlRDBSetConfig (driver dialect (sqlEngine sem)) (some cfg))
      (fun r h' => ∀ code, r = some code → Kept dialect sem h h' ∧ h'.lookup = h.lookup ∧
        StoreStep dialect sem h.lookup h.Calm h.model (.setConfig (some cfg)) (.plain code)
          h'.model) h := by
  have hv := hserving.nesting.valid
  have hkept : wp (sqlRDBSetConfig (driver dialect (sqlEngine sem)) (some cfg))
      (fun _ h' => Kept dialect sem h h' ∧ h'.store = h.store) h := by
    have hset : ∀ h₁ : TableHandle, Kept dialect sem h h₁ ∧ h₁.store = h.store →
        ∀ config mutex, Kept dialect sem h { h₁ with config := config, mutex := mutex } ∧
          ({ h₁ with config := config, mutex := mutex } : TableHandle).store = h.store :=
      fun h₁ hk config mutex => ⟨⟨hk.1.sound, hk.1.faults, hk.1.fails,
        hk.1.nesting.of_eq rfl rfl rfl⟩, hk.2⟩
    simp only [sqlRDBSetConfig, wp_bind, wp_get, hv, Bool.not_true, Bool.false_eq_true, if_false,
      wp_mutexLock, wp_ite]
    split
    · refine wp_mono (cacheRebuild_kept (h := { h with mutex := h.mutex.lock }) hserving.sound
        hserving.nesting.lock cfg.stmtCacheSize) ?_
      rintro (_ | r) h₁ ⟨hk, hs⟩
      · exact hset h₁ ⟨hk.withMutex, hs⟩ _ _
      · simp only [wp_bind, wp_modify, wp_mutexUnlock, wp_pure, wp_ite]
        split
        · exact hset h₁ ⟨hk.withMutex, hs⟩ _ _
        · exact hset h₁ ⟨hk.withMutex, hs⟩ _ _
    · simp only [wp_bind, wp_modify, wp_mutexUnlock, wp_pure, if_true]
      exact hset h ⟨⟨hserving.sound, rfl, rfl, hserving.nesting⟩, rfl⟩ _ _
  have hcore := setConfig_core (driver dialect (sqlEngine sem)) hv cfg
  rw [wp] at hkept hcore ⊢
  generalize sqlRDBSetConfig (driver dialect (sqlEngine sem)) (some cfg) h = res
    at hkept hcore ⊢
  obtain ⟨r, h'⟩ := res
  obtain ⟨hkept, hstore⟩ := hkept
  intro code hcode
  have hmodel : h'.model = ⟨h.store, h'.config⟩ := congrArg (Model.mk · h'.config) hstore
  rw [show SqlRDBHandle.model _ = _ from hmodel]
  obtain ⟨hr, hfails, hcore⟩ | ⟨rfl, -, hcore⟩ := hcore code hcode
  · refine ⟨hkept, congrArg (fun v : SqlRDBHandle Unit => v.lookup) hcore, ?_⟩
    rw [show h'.config = h.config from congrArg (fun v : SqlRDBHandle Unit => v.config) hcore]
    refine .refused hr fun hcalm => ?_
    simp [SqlRDBHandle.resizeFails, hcalm.heap] at hfails
  · refine ⟨hkept, congrArg (fun v : SqlRDBHandle Unit => v.lookup) hcore, ?_⟩
    rw [show h'.config = cfg from congrArg (fun v : SqlRDBHandle Unit => v.config) hcore]
    exact .meant (.setConfig cfg)

/-- `SqlRDBSetLogger` makes a step of the store. -/
theorem serves_setLogger (hserving : h.Serving dialect sem) (logger : SqlRDBLoggerCtx) :
    wp (sqlRDBSetLogger logger)
      (fun r h' => ServesCall dialect sem h (.setLogger logger) (.plain r) h') h := by
  simp only [sqlRDBSetLogger, wp_bind, wp_get, hserving.nesting.valid, Bool.not_true,
    Bool.false_eq_true, if_false, wp_mutexLock, wp_modify, wp_mutexUnlock, wp_pure]
  exact ⟨⟨hserving.sound, rfl, rfl, hserving.nesting.of_eq rfl rfl rfl⟩, .meant (.setLogger logger)⟩

end Configuration

/-! ## Runs -/

section Runs

variable {dialect : C2SqlDialect} {sem : SqlSemantics}

/-- The calls on rows, transactions and the configuration. A batch is among them if the schedule has
no failure of a COMMIT or a ROLLBACK: the call does not look at the result of the one that ends its
own transaction, which would stay open. -/
def Call.OnStore (faults : DriverCall → ℕ → Option Fault) : Call → Prop
  | .registerStruct .. | .readMany .. | .stmtNext .. | .stmtFree .. => False
  | .writeMany .. => ∀ k, faults .commit k = none ∧ faults .rollback k = none
  | _ => True

/-- What a call does to a handle between two calls. -/
structure RefinesCall (dialect : C2SqlDialect) (sem : SqlSemantics) (h : TableHandle) (c : Call)
    (reply : Reply) (h' : TableHandle) : Prop where
  serving : h'.Serving dialect sem
  lookup_eq : h'.lookup = h.lookup
  faults_eq : h'.ctx.conn.faults = h.ctx.conn.faults
  calm_iff : h'.Calm ↔ h.Calm
  step : StoreStep dialect sem h.lookup h.Calm h.model c reply h'.model

section Step

variable {h h' : TableHandle} (hserving : h.Serving dialect sem) {c : Call} {reply : Reply}

include hserving

theorem Kept.refines (hk : Kept dialect sem h h') (hlook : h'.lookup = h.lookup)
    (hstep : StoreStep dialect sem h.lookup h.Calm h.model c reply h'.model) :
    RefinesCall dialect sem h c reply h' where
  serving := ⟨hk.sound, hk.nesting, hlook ▸ hserving.schemas⟩
  lookup_eq := hlook
  faults_eq := hk.faults
  calm_iff := ⟨fun hc => ⟨hk.faults ▸ hc.faults, hk.fails ▸ hc.heap⟩, hk.calm⟩
  step := hstep

/-- A call that keeps the registry and the configuration. -/
theorem ServesCall.refines (hs : ServesCall dialect sem h c reply h')
    (hcore : h'.core = h.core ∨ h'.core = h.core.locked.unlocked) :
    RefinesCall dialect sem h c reply h' := by
  have hlook : h'.lookup = h.lookup := hcore.elim
    (congrArg fun v : SqlRDBHandle Unit => v.lookup)
    (congrArg fun v : SqlRDBHandle Unit => v.lookup)
  have hconfig : h'.config = h.config := hcore.elim
    (congrArg fun v : SqlRDBHandle Unit => v.config)
    (congrArg fun v : SqlRDBHandle Unit => v.config)
  have hmodel : h'.model = ⟨h'.store, h.config⟩ := congrArg (Model.mk h'.store) hconfig
  refine hs.1.refines hserving hlook ?_
  rw [hmodel]
  exact hs.2

end Step

/-- **One call** makes a step of the store, and leaves the handle ready for the next one. -/
theorem exec_refines {w : Client (Session (Catalog SqlValue))}
    (hserving : w.handle.Serving dialect sem) {c : Call}
    (hc : c.OnStore w.handle.ctx.conn.faults)
    (hret : (c.exec (driver dialect (sqlEngine sem)) w).1.code.isSome) :
    RefinesCall dialect sem w.handle c (c.exec (driver dialect (sqlEngine sem)) w).1
      (c.exec (driver dialect (sqlEngine sem)) w).2.handle := by
  cases hrefusal : c.refusal w.handle.lookup with
  | some r =>
    obtain ⟨err, mutex, hrun⟩ := exec_refusal (driver dialect (sqlEngine sem))
      hserving.nesting.valid hrefusal
    have hserves := serves_refusal hserving hrefusal err mutex
    rw [hrun]
    exact hserves.1.refines hserving rfl hserves.2
  | none =>
    have hcore := fun hc => bracketed_exec (driver dialect (sqlEngine sem)) (c := c) hc w
    cases c with
    | registerStruct => exact hc.elim
    | readMany => exact hc.elim
    | stmtNext => exact hc.elim
    | stmtFree => exact hc.elim
    | write name row nullMap =>
      obtain ⟨hrow, name, schema, rfl, hlook⟩ := refuse_eq_none hrefusal
      obtain ⟨row, rfl⟩ := Option.isSome_iff_exists.1 hrow
      exact (serves_write hserving hlook row nullMap).refines hserving (hcore rfl)
    | writeMany name rows n stride nullMaps =>
      obtain ⟨hgiven, name, schema, rfl, hlook⟩ := refuse_eq_none hrefusal
      simp only [Bool.and_eq_true, bne_iff_ne] at hgiven
      obtain ⟨⟨hrows, hn⟩, hstride⟩ := hgiven
      obtain ⟨rows, rfl⟩ := Option.isSome_iff_exists.1 hrows
      exact (serves_writeMany hserving hlook (Nat.pos_of_ne_zero hn) (Nat.pos_of_ne_zero hstride)
        rows nullMaps hc).refines hserving (hcore rfl)
    | read name cond out opts =>
      obtain ⟨row, nullMap⟩ := out
      obtain ⟨hrow, name, schema, rfl, hlook⟩ := refuse_eq_none hrefusal
      obtain ⟨row, rfl⟩ := Option.isSome_iff_exists.1 hrow
      exact (serves_read hserving hlook cond row nullMap opts).refines hserving (hcore rfl)
    | delete name cond out =>
      obtain ⟨hcond, name, schema, rfl, hlook⟩ := refuse_eq_none hrefusal
      obtain ⟨cond, rfl⟩ := Option.isSome_iff_exists.1 hcond
      exact (serves_delete hserving hlook cond out).refines hserving (hcore rfl)
    | count name cond out =>
      obtain ⟨hout, name, schema, rfl, hlook⟩ := refuse_eq_none hrefusal
      obtain ⟨old, rfl⟩ := Option.isSome_iff_exists.1 hout
      exact (serves_count hserving hlook cond old).refines hserving (hcore rfl)
    | beginTx => exact (serves_beginTx hserving).refines hserving (hcore rfl)
    | commitTx => exact (serves_commitTx hserving).refines hserving (hcore rfl)
    | rollbackTx => exact (serves_rollbackTx hserving).refines hserving (hcore rfl)
    | writeBlobField name key col bytes =>
      obtain ⟨name, schema, key, col, bytes, c, rfl, rfl, rfl, rfl, hlook, hcol, htype⟩ :=
        field_of_refusal hrefusal
      exact (serves_writeBlobField hserving hlook hcol htype key bytes).refines hserving
        (hcore rfl)
    | readBlobField name key col out =>
      obtain ⟨name, schema, key, col, old, c, rfl, rfl, rfl, rfl, hlook, hcol, htype⟩ :=
        field_of_refusal hrefusal
      exact (serves_readBlobField hserving hlook hcol htype key old).refines hserving (hcore rfl)
    | setLogger logger => exact (serves_setLogger hserving logger).refines hserving (hcore rfl)
    | setConfig cfg =>
      rcases cfg with _ | cfg
      · cases hrefusal
      have hrun : (Call.setConfig (some cfg)).exec (driver dialect (sqlEngine sem)) w =
        (⟨(sqlRDBSetConfig (driver dialect (sqlEngine sem)) (some cfg) w.handle).1, .nothing⟩,
          { w with handle :=
            (sqlRDBSetConfig (driver dialect (sqlEngine sem)) (some cfg) w.handle).2 }) := rfl
      rw [hrun] at hret ⊢
      obtain ⟨code, hcode⟩ := Option.isSome_iff_exists.1 hret
      obtain ⟨hk, hlook, hstep⟩ := serves_setConfig hserving cfg code hcode
      refine hk.refines hserving hlook ?_
      rw [show (sqlRDBSetConfig _ (some cfg) w.handle).1 = some code from hcode]
      exact hstep

theorem run_cons {σ : Type} {d : SqlRDBDriver σ} {c : Call} {cs : List Call} {w : Client σ}
    (h : (c.exec d w).1.code.isSome) :
    run d (c :: cs) w =
      ((c.exec d w).1 :: (run d cs (c.exec d w).2).1, (run d cs (c.exec d w).2).2) := by
  change (if (c.exec d w).1.code.isNone then pure [(c.exec d w).1]
    else do
      let replies ← run d cs
      pure ((c.exec d w).1 :: replies) : StateM (Client σ) (List Reply)) (c.exec d w).2 = _
  rw [if_neg (fun hnone => by simp [Option.isNone_iff_eq_none.1 hnone] at h)]
  rfl

/-- What a run of calls does to a handle. -/
structure RefinesRun (dialect : C2SqlDialect) (sem : SqlSemantics) (h : TableHandle)
    (cs : List Call) (replies : List Reply) (h' : TableHandle) : Prop where
  serving : h'.Serving dialect sem
  lookup_eq : h'.lookup = h.lookup
  calm_iff : h'.Calm ↔ h.Calm
  storeRun : StoreRun dialect sem h.lookup h.Calm h.model cs replies h'.model

section Run

variable {w : Client (Session (Catalog SqlValue))} (hserving : w.handle.Serving dialect sem)
  {cs : List Call} (hcs : ∀ c ∈ cs, c.OnStore w.handle.ctx.conn.faults)
  (hret : Returns (driver dialect (sqlEngine sem)) cs w)

include hserving hcs hret

theorem run_refines :
    RefinesRun dialect sem w.handle cs (run (driver dialect (sqlEngine sem)) cs w).1
      (run (driver dialect (sqlEngine sem)) cs w).2.handle := by
  induction cs generalizing w with
  | nil => exact ⟨hserving, rfl, Iff.rfl, .nil _⟩
  | cons c cs ih =>
    obtain ⟨hcode, hret', -⟩ := returns_cons hret
    have hone := exec_refines hserving (hcs c (List.mem_cons_self ..)) hcode
    have hrest := ih hone.serving
      (fun c hc => hone.faults_eq ▸ hcs c (List.mem_cons_of_mem _ hc)) hret'
    rw [run_cons hcode]
    refine ⟨hrest.serving, hrest.lookup_eq.trans hone.lookup_eq,
      hrest.calm_iff.trans hone.calm_iff, .cons hone.step ?_⟩
    rw [← hone.lookup_eq, ← propext hone.calm_iff]
    exact hrest.storeRun

/-- **The handle refines the store.** Whatever state its cache is in, and whatever fails in the
driver and the allocator, every run of calls on rows, transactions and the configuration is a run of
the store with the same replies, which ends with the tables, the transactions and the configuration
of the handle; the handle is then ready for further calls. Of the failures, those of a COMMIT or a
ROLLBACK are excluded from runs with batches. -/
theorem handle_refines_store :
    StoreRun dialect sem w.handle.lookup w.handle.Calm w.handle.model cs
        (run (driver dialect (sqlEngine sem)) cs w).1
        (run (driver dialect (sqlEngine sem)) cs w).2.handle.model ∧
      (run (driver dialect (sqlEngine sem)) cs w).2.handle.Serving dialect sem :=
  have hrun := run_refines hserving hcs hret
  ⟨hrun.storeRun, hrun.serving⟩

end Run

end Runs

/-- A new handle on the empty tables of the persons and the notes, with some failures. -/
def failingTables (faults : DriverCall → ℕ → Option Fault) : TableHandle :=
  { freshHandle ⟨⟨⟨fun n =>
        if n = lit "persons" then some (createdTable .sqlite personsSchema)
        else if n = lit "notes" then some (createdTable .sqlite notesSchema)
        else none, []⟩, 0, faults, 0⟩, fun _ => none, 1, 0⟩
      ⟨fun _ => false, fun _ => false, 0, 1, ⟨[], [], none⟩, false⟩ with
    registry := ⟨0, [personsSchema, notesSchema], 8⟩ }

theorem serving_failingTables (faults : DriverCall → ℕ → Option Fault) :
    (failingTables faults).Serving .sqlite plainSemantics where
  sound := cacheSound_of_nil (SqlRDBStmtCache.represents_nil _ _)
  nesting := SqlRDBHandle.Idle.nesting ⟨rfl, rfl, rfl⟩
  schemas _ schema hlook := by
    have hs : schema ∈ [personsSchema, notesSchema] := SqlRDBHandle.mem_of_lookup hlook
    rw [List.mem_pair] at hs
    rcases hs with rfl | rfl
    · exact (SqlRDBSchema.accepted_iff _).1 personsSchema_accepted
    · exact (SqlRDBSchema.accepted_iff _).1 notesSchema_accepted

/-- The empty tables of the persons and the notes. -/
def emptyTables : TableHandle := failingTables fun _ _ => none

theorem serving_emptyTables : emptyTables.Serving .sqlite plainSemantics :=
  serving_failingTables _

/-- A row that is written in a transaction, counted and rolled back. -/
def rolledBackWrite : List Call :=
  [.beginTx, .write (some (lit "persons")) (some fun _ => 0) none,
    .count (some (lit "persons")) none (some 7), .rollbackTx,
    .count (some (lit "persons")) none (some 7)]

theorem returns_of_codes {σ : Type} {d : SqlRDBDriver σ} {cs : List Call} {w : Client σ}
    {codes : List (Option SqlRDBResult)}
    (h : ((run d cs w).1.map fun reply => reply.code) = codes)
    (hall : ∀ code ∈ codes, code.isSome = true) : Returns d cs w := by
  intro reply hreply
  refine hall reply.code ?_
  rw [← h]
  exact List.mem_map_of_mem hreply

theorem returns_rolledBackWrite :
    Returns (driver .sqlite (sqlEngine plainSemantics)) rolledBackWrite ⟨emptyTables, []⟩ := by
  have hcodes : ((run (driver .sqlite (sqlEngine plainSemantics)) rolledBackWrite
      ⟨emptyTables, []⟩).1.map fun reply => reply.code) = List.replicate 5 (some .ok) := by
    decide +kernel
  exact returns_of_codes hcodes (by decide)

/-- Two persons are written in a transaction, and counted. -/
def batchInTx : List Call :=
  [.beginTx, .writeMany (some (lit "persons")) (some fun i => if i = 48 then 1 else 0) 2 48 none,
    .count (some (lit "persons")) none (some 7), .commitTx]

/-- A connection on which the step of the second row fails. -/
def stopsBatch : DriverCall → ℕ → Option Fault := fun call k =>
  if call = .step ∧ k = 8 then some .driver else none

theorem codes_batchInTx : ((run (driver .sqlite (sqlEngine plainSemantics)) batchInTx
    ⟨failingTables stopsBatch, []⟩).1.map fun reply => reply.code) =
      [some .ok, some .errDriver, some .ok, some .ok] := by
  decide +kernel

/-- The batch fails at its second row, and the first one is kept. -/
theorem handle_refines_store_batchInTx :
    ((run (driver .sqlite (sqlEngine plainSemantics)) batchInTx
        ⟨failingTables stopsBatch, []⟩).2.handle.store.contents (lit "persons")).map
          (fun t => t.rows.length) = some 1 ∧
      Returns (driver .sqlite (sqlEngine plainSemantics)) batchInTx
        ⟨failingTables stopsBatch, []⟩ ∧
      StoreRun .sqlite plainSemantics (failingTables stopsBatch).lookup
        (failingTables stopsBatch).Calm (failingTables stopsBatch).model batchInTx
        (run (driver .sqlite (sqlEngine plainSemantics)) batchInTx
          ⟨failingTables stopsBatch, []⟩).1
        (run (driver .sqlite (sqlEngine plainSemantics)) batchInTx
          ⟨failingTables stopsBatch, []⟩).2.handle.model := by
  have hret : Returns (driver .sqlite (sqlEngine plainSemantics)) batchInTx
      ⟨failingTables stopsBatch, []⟩ := returns_of_codes codes_batchInTx (by decide)
  refine ⟨by decide +kernel, hret,
    (handle_refines_store (serving_failingTables stopsBatch) ?_ hret).1⟩
  simp [batchInTx, Call.OnStore, stopsBatch, failingTables, freshHandle]

end C2Sql
