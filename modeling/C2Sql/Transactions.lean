import C2Sql.Api.Handles
import C2Sql.DriverSpec

/-!
# Nested transactions

`SqlRDBBeginTx`, `SqlRDBCommitTx` and `SqlRDBRollbackTx` turn the one transaction and the named
savepoints of a driver into transactions that nest to a depth of sixteen.

* `Nesting`: the counter of the handle and the frames of the driver agree;
* `TxStep`: what one call can do to the contents and the frames;
* `TxCall.run_step`, `nesting_runCalls`: one call, and a run of calls;
* `nested_transactions`: the calls simulate a stack of snapshots.
-/

namespace C2Sql

open SnapshotStack StateLogic

variable {Db : Type}

/-- The database of a handle, with its open frames. -/
def SqlRDBHandle.store (h : SqlRDBHandle (Session Db)) : Store CStr Db := h.ctx.conn.store

/-! ## Calls -/

/-- The calls of a transaction run. -/
inductive TxCall
  | begin
  | commit
  | rollback
  | write (structName : Option CStr) (row nullMap : Option Mem)

/-- The public function of a call. -/
def TxCall.run {σ : Type} (d : SqlRDBDriver σ) : TxCall → Api σ SqlRDBResult
  | begin => sqlRDBBeginTx d
  | commit => sqlRDBCommitTx d
  | rollback => sqlRDBRollbackTx d
  | write structName row nullMap => sqlRDBWrite d structName row nullMap

/-- The handle after a run of calls. -/
def runCalls {σ : Type} (d : SqlRDBDriver σ) (calls : List TxCall) (h : SqlRDBHandle σ) :
    SqlRDBHandle σ :=
  calls.foldl (fun h call => (call.run d h).2) h

/-- A rollback of a savepoint whose `ROLLBACK TO` succeeds. -/
def TxCall.rewinds {σ : Type} (d : SqlRDBDriver σ) (h : SqlRDBHandle σ) : TxCall → Bool
  | rollback => 1 < h.txn.depth && (d.rollbackSp (h.txn.spNames (h.txn.depth - 1)) h.ctx).1 == .ok
  | _ => false

/-- The name of the frame that a `SqlRDBBeginTx` at this depth opens. -/
def frameName (depth : ℕ) : Option CStr := if depth = 0 then none else some (spName (depth + 1))

section Steps

variable (d : SqlRDBDriver (Session Db))

/-- What one call does to the nesting, the contents and the frames. -/
inductive TxStep (h : SqlRDBHandle (Session Db)) :
    TxCall → SqlRDBResult → SqlRDBHandle (Session Db) → Prop
  | failed {call : TxCall} {r : SqlRDBResult} {h' : SqlRDBHandle (Session Db)} (hr : r ≠ .ok)
      (depth : h'.txn.depth = h.txn.depth)
      (store : h'.store = { h.store with
        contents := if call.rewinds d h then h.store.innermost else h.store.contents }) :
      TxStep h call r h'
  | began {h' : SqlRDBHandle (Session Db)} (room : h.txn.depth < maxTxDepth)
      (depth : h'.txn.depth = h.txn.depth + 1)
      (name : h'.txn.depth = 1 ∨ h'.txn.spNames h.txn.depth = spName h'.txn.depth)
      (store : h'.store = { h.store with
        frames := ⟨frameName h.txn.depth, h.store.contents⟩ :: h.store.frames }) :
      TxStep h .begin .ok h'
  | committed {h' : SqlRDBHandle (Session Db)} (depth : h.txn.depth = h'.txn.depth + 1)
      (f : Frame CStr Db) (frames : h.store.frames = f :: h'.store.frames)
      (contents : h'.store.contents = h.store.contents) : TxStep h .commit .ok h'
  | rolledBack {h' : SqlRDBHandle (Session Db)} (depth : h.txn.depth = h'.txn.depth + 1)
      (f : Frame CStr Db) (frames : h.store.frames = f :: h'.store.frames)
      (contents : h'.store.contents = f.saved) : TxStep h .rollback .ok h'
  | wrote {structName : Option CStr} {row nullMap : Option Mem} {h' : SqlRDBHandle (Session Db)}
      (depth : h'.txn.depth = h.txn.depth) (frames : h'.store.frames = h.store.frames) :
      TxStep h (.write structName row nullMap) .ok h'

end Steps

/-! ## Writing -/

/-- The part of a handle that nesting is about. -/
def SqlRDBHandle.txnView (h : SqlRDBHandle (Session Db)) : ℕ × SqlRDBTxnState × Store CStr Db :=
  (h.magic, h.txn, h.store)

theorem keeps_drv {α : Type} {c : StateM (Session Db) α}
    (hc : Keeps (fun s : Session Db => s.conn.store) c) :
    Keeps SqlRDBHandle.txnView (drv c) := fun h => by
  simp only [SqlRDBHandle.txnView, SqlRDBHandle.store, Prod.mk.injEq]
  exact ⟨rfl, rfl, hc h.ctx⟩

section Write

variable (dialect : C2SqlDialect) (e : Engine Db)

theorem keeps_finalizeAll (ids : List StmtId) :
    Keeps SqlRDBHandle.txnView (finalizeAll (driver dialect e) ids) := by
  induction ids with
  | nil => exact .pure _
  | cons id ids ih => exact .bind (keeps_drv (keeps_finalize dialect e id)) fun _ => ih

theorem keeps_mallocs (n : ℕ) :
    Keeps SqlRDBHandle.txnView (mallocs n : Api (Session Db) Bool) := by
  induction n with
  | zero => exact .pure _
  | succ n ih => exact .bind (fun _ => rfl) fun _ => .ite ih (.pure _)

theorem keeps_cacheGet (sql : CStr) :
    Keeps SqlRDBHandle.txnView (cacheGet sql : Api (Session Db) (Option StmtId)) := by
  refine .of_wp fun h => ?_
  simp only [cacheGet, wp_bind, wp_get]
  split <;> rfl

theorem keeps_cachePut (sql : CStr) (stmt : StmtId) :
    Keeps SqlRDBHandle.txnView (cachePut (driver dialect e) sql stmt) := by
  refine .bind (keeps_mallocs 2) fun allocOk => .of_wp fun h => ?_
  simp only [wp_bind, wp_get, wp_set]
  exact keeps_finalizeAll dialect e _ { h with cache := (h.cache.put sql stmt allocOk).2.1 }

theorem keeps_getOrPrepare (sql : CStr) :
    Keeps SqlRDBHandle.txnView (getOrPrepare (driver dialect e) sql) := by
  refine .bind (keeps_cacheGet sql) fun hit => ?_
  cases hit with
  | some stmt => exact .pure _
  | none =>
    refine .bind (keeps_drv (keeps_prepare dialect e sql)) fun res => .ite (.pure _) ?_
    refine .bind (fun _ => rfl) fun h => .ite (.pure _) ?_
    refine .bind (keeps_cachePut dialect e sql res.2) fun r => .ite (.pure _) ?_
    refine .bind (keeps_cacheGet sql) fun hit => ?_
    cases hit <;> exact .pure _

theorem keeps_releaseCachedStmt (stmt : StmtId) (owned : Bool) :
    Keeps SqlRDBHandle.txnView (releaseCachedStmt (driver dialect e) stmt owned) := by
  cases owned with
  | true => exact .bind (keeps_drv (keeps_finalize dialect e stmt)) fun _ => .pure _
  | false => exact .bind (keeps_drv (keeps_reset dialect e stmt)) fun _ => .pure _

theorem keeps_mutexUnlock :
    Keeps SqlRDBHandle.txnView (mutexUnlock : Api (Session Db) Unit) := by
  refine .of_wp fun h => ?_
  rw [wp_mutexUnlock]
  rfl

theorem keeps_openStmt (who structName : CStr) (spec : SqlRDBSchema → SqlRDBQuerySpec) :
    Keeps SqlRDBHandle.txnView (openStmt (driver dialect e) who structName spec) := by
  refine .bind (fun _ => rfl) fun h => ?_
  cases h.lookup structName with
  | none => exact .bind (fun _ => rfl) fun _ => .bind keeps_mutexUnlock fun _ => .pure _
  | some schema =>
    refine .bind (fun _ => rfl) fun res => ?_
    cases res with
    | error r => exact .bind keeps_mutexUnlock fun _ => .pure _
    | ok res =>
      refine .bind (keeps_getOrPrepare dialect e res.1) fun res => ?_
      cases res with
      | error r => exact .bind keeps_mutexUnlock fun _ => .pure _
      | ok res => exact .pure _

theorem keeps_bindRowFrom (stmt : StmtId) (row : Mem) (nullMap : Option Mem) (i : ℕ)
    (cols : List SqlRDBColumnDef) :
    Keeps (fun s : Session Db => s.conn.store)
      (bindRowFrom (driver dialect e) stmt row nullMap i cols) := by
  induction cols generalizing i with
  | nil => exact .pure _
  | cons col cols ih =>
    refine .ite (.ite (.pure _) ?_) (.bind ?_ fun r => .ite (.pure _) (ih _))
    · exact .bind (keeps_bind dialect e stmt _ _) fun r => .ite (.pure _) (ih _)
    · rw [bindOne]
      cases boundValue col row with
      | none => exact .pure _
      | some v => exact keeps_bind dialect e stmt _ v

/-- A handle whose nesting is as before, and whose contents are too unless the call succeeded. -/
def Wrote (h : SqlRDBHandle (Session Db)) (r : SqlRDBResult) (h' : SqlRDBHandle (Session Db)) :
    Prop :=
  h'.magic = h.magic ∧ h'.txn = h.txn ∧ h'.store.frames = h.store.frames ∧
    (r ≠ .ok → h'.store = h.store)

variable {dialect e} in
theorem Wrote.of_txnView {h h' : SqlRDBHandle (Session Db)} (r : SqlRDBResult)
    (hv : h'.txnView = h.txnView) : Wrote h r h' := by
  obtain ⟨hm, ht, hs⟩ := by simpa only [SqlRDBHandle.txnView, Prod.mk.injEq] using hv
  exact ⟨hm, ht, by rw [hs], fun _ => hs⟩

theorem sqlRDBWrite_wrote (structName : Option CStr) (row nullMap : Option Mem)
    (h : SqlRDBHandle (Session Db)) :
    wp (sqlRDBWrite (driver dialect e) structName row nullMap) (Wrote h) h := by
  simp only [sqlRDBWrite, wp_bind, wp_get, wp_ite]
  split
  · exact .of_txnView _ rfl
  · cases structName with
    | none => exact .of_txnView _ rfl
    | some name =>
    cases row with
    | none => exact .of_txnView _ rfl
    | some row =>
      simp only [wp_bind, wp_mutexLock]
      refine wp_mono ((keeps_openStmt dialect e _ _ _).wp _) fun res h₁ hv₁ => ?_
      cases res with
      | error r => exact .of_txnView _ hv₁
      | ok res =>
        obtain ⟨schema, stmt, owned⟩ := res
        simp only [wp_bind]
        refine wp_mono ((keeps_drv (keeps_bindRowFrom dialect e stmt row nullMap 0 _)).wp _)
          fun r h₂ hv₂ => ?_
        have hv : h₂.txnView = h.txnView := hv₂.trans hv₁
        simp only [wp_ite, wp_bind]
        split
        · refine wp_mono ((keeps_releaseCachedStmt dialect e stmt owned).wp _) fun _ h₃ hv₃ => ?_
          rw [wp_mutexUnlock]
          exact .of_txnView _ (hv₃.trans hv)
        · rw [wp_drv]
          refine wp_mono (step_store dialect e stmt _) fun res ctx hstep => ?_
          refine wp_mono ((keeps_releaseCachedStmt dialect e stmt owned).wp _) fun _ h₃ hv₃ => ?_
          simp only [SqlRDBHandle.txnView, SqlRDBHandle.store, Prod.mk.injEq] at hv hv₃
          obtain ⟨hm, ht, hs⟩ := hv
          obtain ⟨hm₃, ht₃, hs₃⟩ := hv₃
          have hw : Wrote h res.1 h₃ := by
            refine ⟨hm₃.trans hm, ht₃.trans ht, ?_, fun hr => ?_⟩
            · rw [SqlRDBHandle.store, SqlRDBHandle.store, hs₃, hstep.1, hs]
            · rw [SqlRDBHandle.store, SqlRDBHandle.store, hs₃, hstep.2 hr, hs]
          split
          · simp only [wp_errSet, wp_mutexUnlock, wp_pure]
            exact hw
          · simp only [wp_mutexUnlock, wp_pure]
            exact hw

end Write

/-! ## One call -/

/-- The names of the frames that are open at a depth, innermost first. -/
def frameNames : ℕ → List (Option CStr)
  | 0 => []
  | k + 1 => frameName k :: frameNames k

/-- The counter and the names of a handle agree with the frames of its driver. -/
structure SqlRDBHandle.Nesting (h : SqlRDBHandle (Session Db)) : Prop where
  valid : h.valid = true
  depth_le : h.txn.depth ≤ maxTxDepth
  frames_names : h.store.frames.map Frame.name = frameNames h.txn.depth
  spNames_eq : ∀ i, 0 < i → i < h.txn.depth → h.txn.spNames i = spName (i + 1)

theorem length_frameNames (depth : ℕ) : (frameNames depth).length = depth := by
  induction depth with
  | zero => rfl
  | succ k ih => rw [frameNames, List.length_cons, ih]

theorem SqlRDBHandle.Nesting.length_frames {h : SqlRDBHandle (Session Db)} (hn : h.Nesting) :
    h.store.frames.length = h.txn.depth := by
  rw [← List.length_map Frame.name, hn.frames_names, length_frameNames]

/-- At a positive depth there is an innermost frame, under the name of that depth. -/
theorem SqlRDBHandle.Nesting.frames_eq {h : SqlRDBHandle (Session Db)} (hn : h.Nesting) {k : ℕ}
    (hk : h.txn.depth = k + 1) :
    ∃ f fs, h.store.frames = f :: fs ∧ f.name = frameName k ∧
      fs.map Frame.name = frameNames k := by
  have hnames := hn.frames_names
  rw [hk, frameNames, List.map_eq_cons_iff] at hnames
  obtain ⟨f, fs, hfs, hf, hrest⟩ := hnames
  exact ⟨f, fs, hfs, hf, hrest⟩

theorem SqlRDBHandle.Nesting.lock {h : SqlRDBHandle (Session Db)} (hn : h.Nesting) :
    SqlRDBHandle.Nesting { h with mutex := h.mutex.lock } :=
  ⟨hn.valid, hn.depth_le, hn.frames_names, hn.spNames_eq⟩

section Calls

variable (dialect : C2SqlDialect) (e : Engine Db) {h : SqlRDBHandle (Session Db)}

/-- The names below the depth and the validity of a handle stay. -/
structure Stays (h h' : SqlRDBHandle (Session Db)) : Prop where
  magic_eq : h'.magic = h.magic
  spNames_eq : ∀ i < h.txn.depth, h'.txn.spNames i = h.txn.spNames i

/-- The driver calls of a transaction function: the nesting is left to the caller, and the store
becomes `t`, or `t'` when a call fails. -/
structure Called (h : SqlRDBHandle (Session Db)) (t t' : Store CStr Db) (r : SqlRDBResult)
    (h' : SqlRDBHandle (Session Db)) : Prop extends Stays h h' where
  depth_eq : h'.txn.depth = h.txn.depth
  store_eq : h'.store = if r = .ok then t else t'

theorem Called.of_reaches {t : Store CStr Db} {r : SqlRDBResult} {ctx : Session Db}
    (hr : Reaches h.ctx t r ctx) {h' : SqlRDBHandle (Session Db)} (hst : Stays h h')
    (hd : h'.txn.depth = h.txn.depth) (hc : h'.ctx = ctx) : Called h t h.store r h' := by
  refine ⟨hst, hd, ?_⟩
  rw [SqlRDBHandle.store, hc]
  rcases hr with ⟨rfl, hs⟩ | ⟨hne, hs⟩
  · rw [hs, if_pos rfl]
  · rw [hs, if_neg hne]
    rfl

theorem beginCall_called (hn : h.Nesting) :
    wp (beginCall (driver dialect e)) (fun r h' =>
      Called h ⟨h.store.contents, ⟨frameName h.txn.depth, h.store.contents⟩ :: h.store.frames⟩
        h.store r h' ∧
      (h.txn.depth = 0 ∨ h'.txn.spNames h.txn.depth = spName (h.txn.depth + 1))) h := by
  simp only [beginCall, wp_bind, wp_get, wp_ite, wp_set, wp_drv]
  have hlen := hn.length_frames
  split
  case isTrue h0 =>
    have hnil : h.store.frames = [] := List.length_eq_zero_iff.1 (hlen.trans h0)
    have hb : h.store.begin = some ⟨h.store.contents, [⟨none, h.store.contents⟩]⟩ := by
      rw [Store.begin, hnil]
    rw [h0, hnil]
    exact wp_mono (reaches_txn hb) fun r ctx hr =>
      ⟨.of_reaches hr ⟨rfl, fun _ _ => rfl⟩ rfl rfl, .inl rfl⟩
  case isFalse h0 =>
    have hne : h.ctx.conn.store.frames ≠ [] := fun hnil => h0 (by rw [← hlen]; exact hnil ▸ rfl)
    rw [frameName, if_neg h0]
    refine wp_mono (reaches_savepoint dialect _ hne) fun r ctx hr =>
      ⟨.of_reaches hr ⟨rfl, fun i hi => ?_⟩ rfl rfl, .inr (Function.update_self ..)⟩
    exact Function.update_of_ne (by simpa using hi.ne) ..

theorem commitCall_called (hn : h.Nesting) {k : ℕ} (hk : h.txn.depth = k + 1) {f : Frame CStr Db}
    {fs : List (Frame CStr Db)} (hfs : h.store.frames = f :: fs) (hf : f.name = frameName k) :
    wp (commitCall (driver dialect e)) (Called h ⟨h.store.contents, fs⟩ h.store) h := by
  have hlen := hn.length_frames
  rw [hfs, List.length_cons, hk, Nat.add_right_cancel_iff] at hlen
  simp only [commitCall, wp_bind, wp_get, wp_ite, wp_drv, hk, Nat.add_eq_right]
  split
  case isTrue h0 =>
    obtain rfl : fs = [] := List.length_eq_zero_iff.1 (hlen.trans h0)
    have hc : h.store.commit = some ⟨h.store.contents, []⟩ := by
      rw [Store.commit, hfs]
    exact wp_mono (reaches_txn hc) fun r ctx hr =>
      .of_reaches hr ⟨rfl, fun _ _ => rfl⟩ rfl rfl
  case isFalse h0 =>
    rw [Nat.add_sub_cancel, hn.spNames_eq k (by omega) (by omega)]
    rw [frameName, if_neg h0] at hf
    exact wp_mono (reaches_txn (Store.release_top hfs hf)) fun r ctx hr =>
      .of_reaches hr ⟨rfl, fun _ _ => rfl⟩ rfl rfl

/-- The contents that a failed rollback leaves. -/
def afterFailure {σ : Type} (d : SqlRDBDriver σ) (h : SqlRDBHandle σ) (call : TxCall)
    (s : Store CStr Db) : Store CStr Db :=
  { s with contents := if call.rewinds d h then s.innermost else s.contents }

theorem rollbackCall_called (hn : h.Nesting) {k : ℕ} (hk : h.txn.depth = k + 1)
    {f : Frame CStr Db} {fs : List (Frame CStr Db)} (hfs : h.store.frames = f :: fs)
    (hf : f.name = frameName k) :
    wp (rollbackCall (driver dialect e)) (Called h ⟨f.saved, fs⟩
      (afterFailure (driver dialect e) h .rollback h.store)) h := by
  have hlen := hn.length_frames
  rw [hfs, List.length_cons, hk, Nat.add_right_cancel_iff] at hlen
  simp only [rollbackCall, wp_bind, wp_get, wp_ite, wp_drv, hk, Nat.add_eq_right]
  split
  case isTrue h0 =>
    obtain rfl : fs = [] := List.length_eq_zero_iff.1 (hlen.trans h0)
    have hc : h.store.rollback = some ⟨f.saved, []⟩ := by
      rw [Store.rollback, hfs]
      rfl
    have hrew : TxCall.rollback.rewinds (driver dialect e) h = false := by
      simp [TxCall.rewinds, hk, h0]
    rw [afterFailure, hrew]
    exact wp_mono (reaches_txn hc) fun r ctx hr =>
      .of_reaches hr ⟨rfl, fun _ _ => rfl⟩ rfl rfl
  case isFalse h0 =>
    have hname : h.txn.spNames k = spName (k + 1) := hn.spNames_eq k (by omega) (by omega)
    rw [frameName, if_neg h0] at hf
    have hto : wp ((driver dialect e).rollbackSp (spName (k + 1))) (Reaches h.ctx _) h.ctx :=
      reaches_txn (Store.rollbackTo_top hfs hf)
    have hrew : TxCall.rollback.rewinds (driver dialect e) h =
        (((driver dialect e).rollbackSp (spName (k + 1)) h.ctx).1 == .ok) := by
      simp [TxCall.rewinds, hk, hname, Nat.pos_of_ne_zero h0]
    rw [Nat.add_sub_cancel, hname, afterFailure, hrew]
    rw [wp] at hto ⊢
    generalize (driver dialect e).rollbackSp (spName (k + 1)) h.ctx = res at hto ⊢
    obtain ⟨r, ctx⟩ := res
    obtain ⟨rfl, hs⟩ | ⟨hr, hs⟩ := hto
    · -- the savepoint has been rewound, and stays open when its release fails
      have hfs' : ctx.conn.store.frames = f :: fs := by rw [hs]; exact hfs
      rw [if_pos rfl]
      refine wp_mono (reaches_txn (Store.release_top hfs' hf)) fun r ctx' hr' =>
        ⟨⟨rfl, fun _ _ => rfl⟩, rfl, ?_⟩
      have hin : h.store.innermost = f.saved := by rw [Store.innermost, hfs]
      obtain ⟨rfl, hs'⟩ | ⟨hne, hs'⟩ := hr'
      · rw [SqlRDBHandle.store, hs', if_pos rfl, hs]
      · rw [SqlRDBHandle.store, hs', if_neg hne, hs, ← hin]
        rfl
    · rw [if_neg hr, wp_pure]
      refine ⟨⟨rfl, fun _ _ => rfl⟩, rfl, ?_⟩
      rw [SqlRDBHandle.store, if_neg hr, if_neg (by simpa using hr)]
      exact hs

theorem sqlRDBBeginTx_step (hn : h.Nesting) :
    wp (sqlRDBBeginTx (driver dialect e))
      (fun r h' => TxStep (driver dialect e) h .begin r h' ∧ Stays h h') h := by
  simp only [sqlRDBBeginTx, wp_bind, wp_get, wp_ite, wp_mutexLock, wp_errSet, wp_mutexUnlock,
    wp_pure, wp_modify, hn.valid, Bool.not_true, Bool.false_eq_true, if_false]
  split
  case isTrue hmax => exact ⟨.failed (by decide) rfl rfl, rfl, fun _ _ => rfl⟩
  case isFalse hmax =>
    refine wp_mono (beginCall_called dialect e hn.lock) fun r h' hc => ?_
    obtain ⟨⟨⟨hm, hsp⟩, hd, hs⟩, hname⟩ := hc
    split
    case isTrue hr =>
      rw [if_neg hr] at hs
      exact ⟨.failed hr hd hs, hm, hsp⟩
    case isFalse hr =>
      obtain rfl : r = .ok := not_not.1 hr
      rw [if_pos rfl] at hs
      refine ⟨.began (not_le.1 hmax) (by rw [hd]) ?_ hs, hm, hsp⟩
      rw [hd]
      exact hname.imp (fun h0 => by simpa using h0) id

theorem TxCall.rewinds_of_depth_eq_zero {σ : Type} (d : SqlRDBDriver σ) {h : SqlRDBHandle σ}
    (h0 : h.txn.depth = 0) (call : TxCall) : call.rewinds d h = false := by
  cases call <;> simp [TxCall.rewinds, h0]

/-- The functions that close a frame. -/
theorem endTx_step {who : CStr} {call : Api (Session Db) SqlRDBResult} {c : TxCall}
    (hn : h.Nesting) (t : Store CStr Db)
    (hcall : 0 < h.txn.depth → wp call
      (Called h t (afterFailure (driver dialect e) h c h.store)) { h with mutex := h.mutex.lock })
    (hok : ∀ h' : SqlRDBHandle (Session Db), h.txn.depth = h'.txn.depth + 1 → h'.store = t →
      TxStep (driver dialect e) h c .ok h') :
    wp (endTx who call) (fun r h' => TxStep (driver dialect e) h c r h' ∧ Stays h h') h := by
  simp only [endTx, wp_bind, wp_get, wp_ite, wp_mutexLock, wp_errSet, wp_mutexUnlock,
    wp_pure, wp_modify, hn.valid, Bool.not_true, Bool.false_eq_true, if_false]
  split
  case isTrue h0 =>
    refine ⟨.failed (by decide) rfl ?_, rfl, fun _ _ => rfl⟩
    rw [c.rewinds_of_depth_eq_zero _ h0]
    rfl
  case isFalse h0 =>
    refine wp_mono (hcall (Nat.pos_of_ne_zero h0)) fun r h' hc => ?_
    obtain ⟨⟨hm, hsp⟩, hd, hs⟩ := hc
    split
    case isTrue hr =>
      rw [if_neg hr] at hs
      exact ⟨.failed hr hd hs, hm, hsp⟩
    case isFalse hr =>
      obtain rfl : r = .ok := not_not.1 hr
      rw [if_pos rfl] at hs
      refine ⟨hok _ ?_ hs, hm, hsp⟩
      simp only [hd]
      omega

theorem sqlRDBCommitTx_step (hn : h.Nesting) :
    wp (sqlRDBCommitTx (driver dialect e))
      (fun r h' => TxStep (driver dialect e) h .commit r h' ∧ Stays h h') h := by
  cases hd : h.txn.depth with
  | zero => exact endTx_step dialect e hn h.store (by omega) fun _ hd' => by omega
  | succ k =>
    obtain ⟨f, fs, hfs, hf, -⟩ := hn.frames_eq hd
    refine endTx_step dialect e hn ⟨h.store.contents, fs⟩ (fun _ => ?_) fun h' hd' hs =>
      .committed hd' f (by rw [hfs, hs]) (by rw [hs])
    exact wp_mono (commitCall_called dialect e hn.lock hd hfs hf) fun r h' hc =>
      ⟨⟨hc.magic_eq, hc.spNames_eq⟩, hc.depth_eq, hc.store_eq⟩

theorem sqlRDBRollbackTx_step (hn : h.Nesting) :
    wp (sqlRDBRollbackTx (driver dialect e))
      (fun r h' => TxStep (driver dialect e) h .rollback r h' ∧ Stays h h') h := by
  cases hd : h.txn.depth with
  | zero => exact endTx_step dialect e hn h.store (by omega) fun _ hd' => by omega
  | succ k =>
    obtain ⟨f, fs, hfs, hf, -⟩ := hn.frames_eq hd
    refine endTx_step dialect e hn ⟨f.saved, fs⟩ (fun _ => ?_) fun h' hd' hs =>
      .rolledBack hd' f (by rw [hfs, hs]) (by rw [hs])
    exact wp_mono (rollbackCall_called dialect e hn.lock hd hfs hf) fun r h' hc =>
      ⟨⟨hc.magic_eq, hc.spNames_eq⟩, hc.depth_eq, hc.store_eq⟩

/-- **One call.** -/
theorem TxCall.run_step (hn : h.Nesting) (call : TxCall) :
    wp (call.run (driver dialect e))
      (fun r h' => TxStep (driver dialect e) h call r h' ∧ Stays h h') h := by
  cases call with
  | begin => exact sqlRDBBeginTx_step dialect e hn
  | commit => exact sqlRDBCommitTx_step dialect e hn
  | rollback => exact sqlRDBRollbackTx_step dialect e hn
  | write structName row nullMap =>
    refine wp_mono (sqlRDBWrite_wrote dialect e structName row nullMap h) fun r h' hw => ?_
    obtain ⟨hm, ht, hf, hs⟩ := hw
    refine ⟨?_, hm, fun _ _ => by rw [ht]⟩
    by_cases hr : r = .ok
    · exact hr ▸ .wrote (by rw [ht]) hf
    · exact .failed hr (by rw [ht]) (hs hr)

variable {dialect e}

theorem TxStep.nesting {call : TxCall} {r : SqlRDBResult} {h' : SqlRDBHandle (Session Db)}
    (hn : h.Nesting) (hstep : TxStep (driver dialect e) h call r h') (hst : Stays h h') :
    h'.Nesting := by
  have hvalid : h'.valid = true := by
    rw [SqlRDBHandle.valid, hst.magic_eq]
    exact hn.valid
  have hold : ∀ i, 0 < i → i < h.txn.depth → h'.txn.spNames i = spName (i + 1) :=
    fun i h0 hi => (hst.spNames_eq i hi).trans (hn.spNames_eq i h0 hi)
  have hle := hn.depth_le
  cases hstep with
  | failed hr depth store =>
    refine ⟨hvalid, depth ▸ hn.depth_le, ?_, depth ▸ hold⟩
    rw [store, depth]
    exact hn.frames_names
  | began room depth name store =>
    refine ⟨hvalid, by omega, ?_, fun i h0 hi => ?_⟩
    · rw [store, depth, frameNames, ← hn.frames_names]
      rfl
    · rcases Nat.lt_succ_iff_lt_or_eq.1 (depth ▸ hi) with hi | rfl
      · exact hold i h0 hi
      · exact depth ▸ name.resolve_left (by omega)
  | committed depth f frames contents =>
    refine ⟨hvalid, by omega, ?_, fun i h0 hi => hold i h0 (by omega)⟩
    have := hn.frames_names
    rw [frames, depth, frameNames, List.map_cons, List.cons.injEq] at this
    exact this.2
  | rolledBack depth f frames contents =>
    refine ⟨hvalid, by omega, ?_, fun i h0 hi => hold i h0 (by omega)⟩
    have := hn.frames_names
    rw [frames, depth, frameNames, List.map_cons, List.cons.injEq] at this
    exact this.2
  | wrote depth frames =>
    refine ⟨hvalid, depth ▸ hn.depth_le, ?_, depth ▸ hold⟩
    rw [frames, depth]
    exact hn.frames_names

theorem TxStep.move {call : TxCall} {r : SqlRDBResult} {h' : SqlRDBHandle (Session Db)}
    (hstep : TxStep (driver dialect e) h call r h') : Move h.store h'.store := by
  cases hstep with
  | failed hr depth store => exact .edit (by rw [store])
  | began room depth name store => exact .push _ (by rw [store])
  | committed depth f frames contents => exact .pop f frames
  | rolledBack depth f frames contents => exact .pop f frames
  | wrote depth frames => exact .edit frames

/-- The commit of the outermost level makes the contents durable. -/
theorem TxStep.durable_commit {h' : SqlRDBHandle (Session Db)} (hn : h.Nesting)
    (hstep : TxStep (driver dialect e) h .commit .ok h') (hd : h.txn.depth = 1) :
    h'.store.durable = h.store.contents := by
  cases hstep with
  | failed hr => exact absurd rfl hr
  | committed depth f frames contents =>
    have hlen := hn.length_frames
    rw [frames, List.length_cons] at hlen
    have hnil : h'.store.frames = [] := List.length_eq_zero_iff.1 (by omega)
    rw [Store.durable, hnil, ← contents]
    rfl

/-- Inside a transaction, nothing else changes what is durable. -/
theorem TxStep.durable_eq {call : TxCall} {r : SqlRDBResult} {h' : SqlRDBHandle (Session Db)}
    (hn : h.Nesting) (hstep : TxStep (driver dialect e) h call r h') (hd : 0 < h.txn.depth)
    (hnc : ¬(call = .commit ∧ h.txn.depth = 1 ∧ r = .ok)) :
    h'.store.durable = h.store.durable := by
  have hlen := hn.length_frames
  have hne : h.store.frames ≠ [] := List.ne_nil_of_length_pos (hlen ▸ hd)
  -- a frame that is closed is either the only one, or lies on another
  have hclose : ∀ f, h.store.frames = f :: h'.store.frames → h'.store.frames ≠ [] →
      h'.store.durable = h.store.durable := by
    intro f hf hne'
    obtain ⟨g, gs, hgs⟩ := List.exists_cons_of_ne_nil hne'
    exact Store.durable_of_cons (hgs ▸ hf) hgs
  cases hstep with
  | failed hr depth store => exact Store.durable_of_frames_ne_nil (by rw [store]) hne
  | began room depth name store =>
    obtain ⟨f, fs, hfs⟩ := List.exists_cons_of_ne_nil hne
    exact (Store.durable_of_cons (by rw [store, hfs]) hfs).symm
  | committed depth f frames contents =>
    refine hclose f frames fun hnil => hnc ⟨rfl, ?_, rfl⟩
    rw [← hlen, frames, hnil]
    rfl
  | rolledBack depth f frames contents =>
    by_cases hnil : h'.store.frames = []
    · rw [hnil] at frames
      simp only [Store.durable, hnil, frames, contents, List.getLast?_nil, List.getLast?_singleton]
    · exact hclose f frames hnil
  | wrote depth frames => exact Store.durable_of_frames_ne_nil frames hne

/-! ## Runs -/

variable (dialect e)

/-- **Every run keeps the nesting.** -/
theorem nesting_runCalls (hn : h.Nesting) (calls : List TxCall) :
    (runCalls (driver dialect e) calls h).Nesting := by
  induction calls generalizing h with
  | nil => exact hn
  | cons call calls ih =>
    obtain ⟨hstep, hst⟩ := call.run_step dialect e hn
    exact ih (hstep.nesting hn hst)

/-- The frames that are open when a run starts stay open while the depth is not below theirs. -/
theorem suffix_runCalls (hn : h.Nesting) {base : List (Frame CStr Db)}
    (hb : base <:+ h.store.frames) (calls : List TxCall)
    (habove : ∀ pre, pre <+: calls →
      base.length ≤ (runCalls (driver dialect e) pre h).txn.depth) :
    base <:+ (runCalls (driver dialect e) calls h).store.frames := by
  induction calls generalizing h with
  | nil => exact hb
  | cons call calls ih =>
    obtain ⟨hstep, hst⟩ := call.run_step dialect e hn
    have hn' := hstep.nesting hn hst
    refine ih hn' (hstep.move.suffix hb ?_) fun pre hpre => ?_
    · rw [hn'.length_frames]
      exact habove [call] ⟨calls, rfl⟩
    · exact habove (call :: pre) (List.cons_prefix_cons.2 ⟨rfl, hpre⟩)

/-! ## The stack of snapshots -/

/-- A handle on which no transaction has been begun; structs may be registered. -/
structure SqlRDBHandle.Idle (h : SqlRDBHandle (Session Db)) : Prop where
  valid : h.valid = true
  depth_eq : h.txn.depth = 0
  frames_eq : h.store.frames = []

theorem SqlRDBHandle.Idle.nesting (hi : h.Idle) : h.Nesting where
  valid := hi.valid
  depth_le := by simp [hi.depth_eq]
  frames_names := by rw [hi.frames_eq, hi.depth_eq]; rfl
  spNames_eq := by simp [hi.depth_eq]

theorem nodup_frameNames {depth : ℕ} (hd : depth ≤ maxTxDepth) :
    ((frameNames depth).filterMap id).Nodup := by
  revert depth
  decide

/-- What holds of a handle `h` that simulates a stack of snapshots: about its frames, and about
every call from it. -/
structure SqlRDBHandle.StackSimulation (h : SqlRDBHandle (Session Db)) : Prop where
  depth_eq : h.txn.depth = h.store.frames.length
  depth_le : h.txn.depth ≤ maxTxDepth
  names_nodup : (h.store.frames.filterMap Frame.name).Nodup
  /-- The innermost frame has the name that the next commit or rollback uses. -/
  name_eq : ∀ f fs, h.store.frames = f :: fs →
    f.name = if h.txn.depth = 1 then none else some (h.txn.spNames (h.txn.depth - 1))
  begin_ok : ∀ h', sqlRDBBeginTx (driver dialect e) h = (.ok, h') →
    h'.txn.depth = h.txn.depth + 1 ∧ h'.store.contents = h.store.contents
  commit_ok : ∀ h', sqlRDBCommitTx (driver dialect e) h = (.ok, h') →
    h.txn.depth = h'.txn.depth + 1 ∧ h'.store.contents = h.store.contents ∧
      (h.txn.depth = 1 → h'.store.durable = h.store.contents)
  /-- Inside a transaction, only the commit of the outermost level makes a change permanent. -/
  durable_eq : ∀ (call : TxCall) r h', call.run (driver dialect e) h = (r, h') →
    0 < h.txn.depth → ¬(call = .commit ∧ h.txn.depth = 1 ∧ r = .ok) →
      h'.store.durable = h.store.durable
  /-- A rollback restores the contents at the matching `SqlRDBBeginTx`: the last one that opened
  the level being closed, with only deeper levels in between. -/
  rollback_ok : ∀ h₁, sqlRDBBeginTx (driver dialect e) h = (.ok, h₁) →
    ∀ calls, (∀ pre, pre <+: calls →
      h.txn.depth < (runCalls (driver dialect e) pre h₁).txn.depth) →
    (runCalls (driver dialect e) calls h₁).txn.depth = h.txn.depth + 1 →
    ∀ h', sqlRDBRollbackTx (driver dialect e) (runCalls (driver dialect e) calls h₁) = (.ok, h') →
      h'.store = h.store ∧ h'.txn.depth = h.txn.depth
  /-- A call that fails changes nothing, except that a nested rollback whose `RELEASE` fails has
  rewound to its savepoint. -/
  failed : ∀ (call : TxCall) r h', call.run (driver dialect e) h = (r, h') → r ≠ .ok →
    h'.txn.depth = h.txn.depth ∧ h'.store.frames = h.store.frames ∧
      h'.store.contents =
        if call.rewinds (driver dialect e) h then h.store.innermost else h.store.contents

theorem rollback_restores (hn : h.Nesting) {h₁ : SqlRDBHandle (Session Db)}
    (hb : sqlRDBBeginTx (driver dialect e) h = (.ok, h₁)) {calls : List TxCall}
    (habove : ∀ pre, pre <+: calls →
      h.txn.depth < (runCalls (driver dialect e) pre h₁).txn.depth)
    (hd : (runCalls (driver dialect e) calls h₁).txn.depth = h.txn.depth + 1)
    {h' : SqlRDBHandle (Session Db)}
    (hr : sqlRDBRollbackTx (driver dialect e) (runCalls (driver dialect e) calls h₁) =
      (.ok, h')) : h'.store = h.store ∧ h'.txn.depth = h.txn.depth := by
  obtain ⟨hstep, hst⟩ := (sqlRDBBeginTx_step dialect e hn).of_eq hb
  have hn₁ := hstep.nesting hn hst
  have hn₂ := nesting_runCalls dialect e hn₁ calls
  cases hstep with
  | failed hr => exact absurd rfl hr
  | began room depth name store =>
    -- at the end of the run, the stack is the one right after the `SqlRDBBeginTx`
    have hsuf := suffix_runCalls dialect e hn₁ (List.suffix_refl _) calls fun pre hpre => by
      rw [hn₁.length_frames, depth]
      exact habove pre hpre
    have hfr := hsuf.eq_of_length (by rw [hn₁.length_frames, hn₂.length_frames, depth, hd])
    obtain ⟨hroll, -⟩ := (sqlRDBRollbackTx_step dialect e hn₂).of_eq hr
    cases hroll with
    | failed hne => exact absurd rfl hne
    | rolledBack depth' f frames contents =>
      rw [← hfr, store, List.cons.injEq] at frames
      obtain ⟨rfl, hfs⟩ := frames
      exact ⟨Store.ext contents hfs.symm, by omega⟩

variable {dialect e} in
theorem stackSimulation_of_nesting (hn : h.Nesting) : h.StackSimulation dialect e where
  depth_eq := hn.length_frames.symm
  depth_le := hn.depth_le
  names_nodup := by
    have hmap : h.store.frames.filterMap Frame.name =
        (h.store.frames.map Frame.name).filterMap id := by
      rw [List.filterMap_map]
      rfl
    rw [hmap, hn.frames_names]
    exact nodup_frameNames hn.depth_le
  name_eq := by
    intro f fs hfs
    have hlen := hn.length_frames
    rw [hfs, List.length_cons] at hlen
    obtain ⟨g, gs, hgs, hg, -⟩ := hn.frames_eq hlen.symm
    obtain rfl : f = g := (List.cons.inj (hfs.symm.trans hgs)).1
    rw [hg, frameName, ← hlen]
    by_cases h0 : fs.length = 0
    · rw [if_pos h0, if_pos (by rw [h0])]
    · rw [if_neg h0, if_neg (by omega), Nat.add_sub_cancel,
        hn.spNames_eq _ (by omega) (by omega)]
  begin_ok := by
    intro h' hb
    obtain ⟨hstep, -⟩ := (sqlRDBBeginTx_step dialect e hn).of_eq hb
    cases hstep with
    | failed hr => exact absurd rfl hr
    | began room depth name store => exact ⟨depth, by rw [store]⟩
  commit_ok := by
    intro h' hc
    obtain ⟨hstep, -⟩ := (sqlRDBCommitTx_step dialect e hn).of_eq hc
    have hdur := hstep.durable_commit hn
    cases hstep with
    | failed hr => exact absurd rfl hr
    | committed depth f frames contents => exact ⟨depth, contents, hdur⟩
  durable_eq := by
    intro call r h' hc hd hnc
    exact ((call.run_step dialect e hn).of_eq hc).1.durable_eq hn hd hnc
  rollback_ok := fun h₁ hb calls habove hd h' hr => rollback_restores dialect e hn hb habove hd hr
  failed := by
    intro call r h' hc hr
    obtain ⟨hstep, -⟩ := (call.run_step dialect e hn).of_eq hc
    cases hstep with
    | failed hr depth store => exact ⟨depth, by rw [store], by rw [store]⟩
    | _ => exact absurd rfl hr

/-- **Nested transactions are a stack of snapshots.** Whatever sequence of begins, commits,
rollbacks and writes is made on a handle without transactions, and whichever driver calls fail, the
handle simulates the stack. -/
theorem nested_transactions (hi : h.Idle) (calls : List TxCall) :
    (runCalls (driver dialect e) calls h).StackSimulation dialect e :=
  stackSimulation_of_nesting (nesting_runCalls dialect e hi.nesting calls)

end Calls

/-! ## A database of statements -/

/-- The engine that accepts every statement and keeps what it has run. -/
def journal : Engine (List (CStr × List SqlValue)) where
  compiles := fun _ => true
  run := fun sql values db => some ⟨[], db ++ [(sql, values)], some 1⟩
  toInt64 := fun _ => 0
  toReal := fun _ => 0
  toText := fun _ => []
  toBlob := fun _ => []

/-- An empty session without failures. -/
def journalSession : Session (List (CStr × List SqlValue)) :=
  ⟨⟨⟨[], []⟩, 0, fun _ _ => none, 0⟩, fun _ => none, 1, 0⟩

/-- A handle on which the sample struct is registered. -/
def journalHandle : SqlRDBHandle (Session (List (CStr × List SqlValue))) :=
  { freshHandle journalSession ⟨fun _ => false, fun _ => false, 0, 1, ⟨[], [], none⟩, false⟩ with
    registry := ⟨0, [personsSchema], 8⟩ }

theorem nested_transactions_sample :
    journalHandle.Idle ∧
      (runCalls (driver .sqlite journal)
        [.begin, .write (some (lit "persons")) (some fun _ => 0) none, .begin, .rollback, .commit]
        journalHandle).StackSimulation .sqlite journal := by
  have hidle : journalHandle.Idle := ⟨rfl, rfl, rfl⟩
  exact ⟨hidle, nested_transactions .sqlite journal hidle _⟩

end C2Sql
