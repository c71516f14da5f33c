import C2Sql.Frame
import C2Sql.Lib.Ledger

/-!
# The statements of a driver

A driver is wrapped so that its context carries a ledger of statements (`SqlRDBDriver.audited`): a
prepared statement gets a new name, and the ledger records each later call on it. Nothing is assumed
of the driver.

* `Spends`: a computation of the library turns one holding of statements into another;
* `SpendsSome`: so it does if it returns;
* `Quiet`: a computation that calls no driver function;
* `ctxSpends_writeRows`, `spends_readRow`, `spends_bindCond`: work on a statement in hand;
* `spendsSome_internalMigrateTable`: the queries of a registration finalize what they prepare,
  whatever fails.
-/

namespace C2Sql

open StateLogic

variable {σ α β : Type}

/-! ## Audited drivers -/

/-- A driver context, the ledger of its statements, and the driver's own name for each of them. -/
structure Audited (σ : Type) where
  ctx : σ
  ledger : Ledger
  names : StmtId → StmtId

/-- A call that names no statement. -/
def auditCall (c : StateM σ α) : StateM (Audited σ) α := fun s =>
  let (a, ctx) := c s.ctx
  (a, { s with ctx := ctx })

/-- A call on a statement, with what the ledger records. -/
def auditStmt (event : Ledger → StmtId → Ledger) (id : StmtId) (c : StmtId → StateM σ α) :
    StateM (Audited σ) α := fun s =>
  let (a, ctx) := c (s.names id) s.ctx
  (a, { s with ctx := ctx, ledger := event s.ledger id })

/-- A call that prepares a statement: if it succeeds, the statement gets a name of its own. -/
def auditPrepare (c : StateM σ (SqlRDBResult × StmtId)) :
    StateM (Audited σ) (SqlRDBResult × StmtId) := fun s =>
  let ((r, id), ctx) := c s.ctx
  if r = .ok then
    ((r, s.ledger.next), ⟨ctx, s.ledger.acquire, Function.update s.names s.ledger.next id⟩)
  else ((r, id), { s with ctx := ctx })

/-- The driver `d` with a ledger. -/
def SqlRDBDriver.audited (d : SqlRDBDriver σ) : SqlRDBDriver (Audited σ) where
  dialect := d.dialect
  close := auditCall d.close
  exec sql := auditCall (d.exec sql)
  prepare sql := auditPrepare (d.prepare sql)
  bind id i v := auditStmt .touch id fun id => d.bind id i v
  step id := auditStmt .touch id d.step
  columnInt64 id i := auditStmt .touch id fun id => d.columnInt64 id i
  columnInt32 id i := auditStmt .touch id fun id => d.columnInt32 id i
  columnReal id i := auditStmt .touch id fun id => d.columnReal id i
  columnText id i := auditStmt .touch id fun id => d.columnText id i
  columnBlob id i := auditStmt .touch id fun id => d.columnBlob id i
  columnIsnull id i := auditStmt .touch id fun id => d.columnIsnull id i
  reset id := auditStmt .rest id d.reset
  finalize id := auditStmt .close id d.finalize
  begin := auditCall d.begin
  commit := auditCall d.commit
  rollback := auditCall d.rollback
  savepoint name := auditCall (d.savepoint name)
  releaseSp name := auditCall (d.releaseSp name)
  rollbackSp name := auditCall (d.rollbackSp name)
  changes := auditCall d.changes

/-- A driver context before any statement has been prepared. -/
def Audited.fresh (ctx : σ) : Audited σ := ⟨ctx, .empty, id⟩

/-! ## Driver calls -/

/-- A driver computation and the statements it turns from `A` into `B`. -/
abbrev CtxSpends (A : Holding) (c : StateM (Audited σ) α) (B : α → Holding) : Prop :=
  Accounts Audited.ledger (fun _ => ()) A c B

/-- A library computation that leaves the cache alone, and the statements it turns from `A` into
`B`. -/
abbrev Spends (A : Holding) (c : Api (Audited σ) α) (B : α → Holding) : Prop :=
  Accounts (fun h => h.ctx.ledger) SqlRDBHandle.cache A c B

/-- A library computation that leaves the cache alone, and the statements it turns from `A` into
`A'` if it returns. -/
abbrev SpendsSome (A : Holding) (c : Api (Audited σ) (Option α)) (A' : Holding) : Prop :=
  AccountsSome (fun h => h.ctx.ledger) SqlRDBHandle.cache A c fun _ => A'

variable {A : Holding}

theorem ctxSpends_call (c : StateM σ α) : CtxSpends A (auditCall c) fun _ => A :=
  .of_keeps (fun _ => rfl) fun _ => rfl

theorem ctxSpends_touch {id : StmtId} (h : A.Has id) (c : StmtId → StateM σ α) :
    CtxSpends A (auditStmt .touch id c) fun _ => A := fun _ hs => ⟨hs.touch h, rfl⟩

theorem ctxSpends_rest {id : StmtId} (h : id ∈ A.live) (c : StmtId → StateM σ α) :
    CtxSpends (A.use id) (auditStmt .rest id c) fun _ => A := fun _ hs => ⟨hs.rest h, rfl⟩

theorem ctxSpends_close (id : StmtId) (c : StmtId → StateM σ α) :
    CtxSpends (A.take id) (auditStmt .close id c) fun _ => A := fun _ hs => ⟨hs.close, rfl⟩

/-- The holding after a statement may have been prepared. -/
def prepared (A : Holding) (res : SqlRDBResult × StmtId) : Holding :=
  if res.1 = .ok then A.add res.2 else A

theorem ctxSpends_prepare (c : StateM σ (SqlRDBResult × StmtId)) :
    CtxSpends A (auditPrepare c) (prepared A) := fun s hs => by
  rcases hc : c s.ctx with ⟨⟨r, id⟩, ctx⟩
  by_cases hr : r = .ok
  · have hrun : auditPrepare c s = ((r, s.ledger.next),
        ⟨ctx, s.ledger.acquire, Function.update s.names s.ledger.next id⟩) := by
      simp only [auditPrepare, hc, if_pos hr]
    refine .of_run hrun ⟨?_, rfl⟩
    rw [prepared, if_pos hr]
    exact hs.acquire
  · have hrun : auditPrepare c s = ((r, id), { s with ctx := ctx }) := by
      simp only [auditPrepare, hc, if_neg hr]
    refine .of_run hrun ⟨?_, rfl⟩
    rw [prepared, if_neg hr]
    exact hs

theorem spends_drv {c : StateM (Audited σ) α} {B : α → Holding} (h : CtxSpends A c B) :
    Spends A (drv c) B := fun s hs => ⟨(h s.ctx hs).1, rfl⟩

section Statements

variable {d : SqlRDBDriver σ} {stmt : StmtId}

theorem spends_prepare (sql : CStr) : Spends A (drv (d.audited.prepare sql)) (prepared A) :=
  spends_drv (ctxSpends_prepare _)

theorem spends_finalize : Spends (A.take stmt) (drv (d.audited.finalize stmt)) fun _ => A :=
  spends_drv (ctxSpends_close stmt _)

/-- A statement is finalized before the result is returned. -/
theorem spends_finalize_pure (a : α) :
    Spends (A.take stmt) (do let _ ← drv (d.audited.finalize stmt); pure a) fun _ => A :=
  spends_finalize.bind fun _ => .pure a

theorem ctxSpends_bind (h : A.Has stmt) (i : ℤ) (v : SqlValue) :
    CtxSpends A (d.audited.bind stmt i v) fun _ => A := ctxSpends_touch h _

theorem ctxSpends_step (h : A.Has stmt) : CtxSpends A (d.audited.step stmt) fun _ => A :=
  ctxSpends_touch h _

theorem ctxSpends_columnInt64 (h : A.Has stmt) (i : ℕ) :
    CtxSpends A (d.audited.columnInt64 stmt i) fun _ => A := ctxSpends_touch h _

theorem ctxSpends_columnInt32 (h : A.Has stmt) (i : ℕ) :
    CtxSpends A (d.audited.columnInt32 stmt i) fun _ => A := ctxSpends_touch h _

theorem ctxSpends_columnReal (h : A.Has stmt) (i : ℕ) :
    CtxSpends A (d.audited.columnReal stmt i) fun _ => A := ctxSpends_touch h _

theorem ctxSpends_columnText (h : A.Has stmt) (i : ℕ) :
    CtxSpends A (d.audited.columnText stmt i) fun _ => A := ctxSpends_touch h _

theorem ctxSpends_columnBlob (h : A.Has stmt) (i : ℕ) :
    CtxSpends A (d.audited.columnBlob stmt i) fun _ => A := ctxSpends_touch h _

theorem ctxSpends_columnIsnull (h : A.Has stmt) (i : ℕ) :
    CtxSpends A (d.audited.columnIsnull stmt i) fun _ => A := ctxSpends_touch h _

/-- A call of `prepare` and what follows: the error path runs without a statement, the other one
with a new one. -/
theorem spends_prepare_ite {sql : CStr} {e k : SqlRDBResult × StmtId → Api (Audited σ) α}
    {B : α → Holding} (he : ∀ res, Spends A (e res) B)
    (hk : ∀ stmt, Spends (A.take stmt) (k (.ok, stmt)) B) :
    Spends A (drv (d.audited.prepare sql) >>= fun res => if res.1 ≠ .ok then e res else k res)
      B := by
  refine (spends_prepare sql).bind ?_
  rintro ⟨r, stmt⟩
  by_cases hr : r = .ok
  · subst hr
    rw [if_neg (not_not.2 rfl)]
    exact .of_use (hk stmt)
  · rw [prepared, if_neg hr, if_pos hr]
    exact he _

theorem spendsSome_prepare_ite {sql : CStr}
    {e k : SqlRDBResult × StmtId → Api (Audited σ) (Option α)}
    (he : ∀ res, SpendsSome A (e res) A)
    (hk : ∀ stmt, SpendsSome (A.take stmt) (k (.ok, stmt)) A) :
    SpendsSome A
      (drv (d.audited.prepare sql) >>= fun res => if res.1 ≠ .ok then e res else k res) A := by
  refine .bind (spends_prepare sql) ?_
  rintro ⟨r, stmt⟩
  by_cases hr : r = .ok
  · subst hr
    rw [if_neg (not_not.2 rfl)]
    exact .of_use (hk stmt)
  · rw [prepared, if_neg hr, if_pos hr]
    exact he _

end Statements

/-! ## Quiet steps -/

/-- What concerns the driver, the statements and the transactions of a handle, and which allocations
fail. -/
def SqlRDBHandle.outer (h : SqlRDBHandle σ) :
    σ × SqlRDBStmtCache × SqlRDBTxnState × (ℕ → Bool) := (h.ctx, h.cache, h.txn, h.heap.fails)

section Outer

theorem keepsOuter_malloc : Keeps SqlRDBHandle.outer (malloc : Api σ Bool) := fun _ => rfl

theorem keepsOuter_mallocs (n : ℕ) : Keeps SqlRDBHandle.outer (mallocs n : Api σ Bool) := by
  induction n with
  | zero => exact .pure _
  | succ n ih => exact keepsOuter_malloc.bind fun _ => ih.ite (.pure _)

theorem keepsOuter_errSet (code : SqlRDBResult) (message : CStr) :
    Keeps SqlRDBHandle.outer (errSet code message : Api σ Unit) := fun _ => rfl

theorem keepsOuter_internalLog (code : SqlRDBResult) (message : CStr) :
    Keeps SqlRDBHandle.outer (internalLog code message : Api σ Unit) := fun h => by
  rw [internalLog]
  dsimp only
  split <;> rfl

theorem keepsOuter_mutexLock : Keeps SqlRDBHandle.outer (mutexLock : Api σ Unit) := fun h => by
  rw [mutexLock_eq]
  rfl

theorem keepsOuter_mutexUnlock : Keeps SqlRDBHandle.outer (mutexUnlock : Api σ Unit) := fun h => by
  rw [mutexUnlock_eq]
  rfl

theorem keepsOuter_refuse {code : SqlRDBResult} {message : CStr} {a : α} :
    Keeps SqlRDBHandle.outer (do errSet code message; pure a : Api σ α) :=
  (keepsOuter_errSet _ _).bind fun _ => .pure _

theorem keepsOuter_registryGrow : Keeps SqlRDBHandle.outer (registryGrow : Api σ SqlRDBResult) := by
  refine (keeps_get _).bind fun h => keepsOuter_malloc.bind fun ok => .ite keepsOuter_refuse ?_
  refine .bind (fun h => ?_) fun _ => .pure _
  change SqlRDBHandle.outer (if _ then _ else _) = _
  split <;> rfl

theorem keepsOuter_internalSchemaRegister (name : Option CStr)
    (cols : Option (List (Option SqlRDBColumnDef))) :
    Keeps SqlRDBHandle.outer (internalSchemaRegister name cols : Api σ SqlRDBResult) := by
  refine (keeps_get _).bind fun h => .ite (.pure _) ?_
  split
  · exact keepsOuter_refuse
  · dsimp only
    refine .ite (keepsOuter_registryGrow.bind fun r => ?_) (.bind (.pure _) fun r => ?_)
    all_goals
      refine .ite (.pure _) (keepsOuter_malloc.bind fun ok => .ite keepsOuter_refuse ?_)
      refine (keepsOuter_mallocs _).bind fun ok => .ite keepsOuter_refuse ?_
      exact .bind (fun _ => rfl) fun _ => .pure _

theorem keepsOuter_internalSchemaUnregister (name : CStr) :
    Keeps SqlRDBHandle.outer (internalSchemaUnregister name : Api σ SqlRDBResult) := by
  refine .of_wp fun h => ?_
  simp only [internalSchemaUnregister, wp_bind, wp_get, wp_ite]
  split
  · rfl
  · split <;> rfl

end Outer

/-- A computation that calls no driver function and leaves the cache alone. -/
structure Quiet (c : Api σ α) : Prop where
  ctx : Keeps SqlRDBHandle.ctx c
  cache : Keeps SqlRDBHandle.cache c

namespace Quiet

theorem of_outer {c : Api σ α} (hc : Keeps SqlRDBHandle.outer c) : Quiet c where
  ctx h := congrArg (fun v => v.1) (hc h)
  cache h := congrArg (fun v => v.2.1) (hc h)

theorem pure (a : α) : Quiet (Pure.pure a : Api σ α) := .of_outer (.pure a)

theorem bind {c : Api σ α} {k : α → Api σ β} (hc : Quiet c) (hk : ∀ a, Quiet (k a)) :
    Quiet (c >>= k) := ⟨hc.ctx.bind fun a => (hk a).ctx, hc.cache.bind fun a => (hk a).cache⟩

theorem get : Quiet (MonadState.get : Api σ (SqlRDBHandle σ)) := .of_outer (keeps_get _)

theorem malloc : Quiet (C2Sql.malloc : Api σ Bool) := .of_outer keepsOuter_malloc

theorem mallocs (n : ℕ) : Quiet (C2Sql.mallocs n : Api σ Bool) := .of_outer (keepsOuter_mallocs n)

theorem errSet (code : SqlRDBResult) (message : CStr) :
    Quiet (C2Sql.errSet code message : Api σ Unit) := .of_outer (keepsOuter_errSet _ _)

theorem internalLog (code : SqlRDBResult) (message : CStr) :
    Quiet (C2Sql.internalLog code message : Api σ Unit) := .of_outer (keepsOuter_internalLog _ _)

theorem mutexLock : Quiet (C2Sql.mutexLock : Api σ Unit) := .of_outer keepsOuter_mutexLock

theorem mutexUnlock : Quiet (C2Sql.mutexUnlock : Api σ Unit) := .of_outer keepsOuter_mutexUnlock

theorem noteOverrun (b : Buffer) : Quiet (C2Sql.noteOverrun b : Api σ Unit) :=
  .of_outer fun _ => rfl

theorem qbBuild (spec : SqlRDBQuerySpec) :
    Quiet (C2Sql.qbBuild spec : Api σ (Except SqlRDBResult (CStr × ℕ))) :=
  malloc.bind fun _ => .pure _

theorem callocNullMap (m : Option Mem) : Quiet (C2Sql.callocNullMap m : Api σ (Option Mem)) := by
  cases m with
  | none => exact .pure _
  | some m => exact malloc.bind fun _ => .pure _

theorem growCols (n cap : ℕ) : Quiet (C2Sql.growCols n cap : Api σ (Bool × ℕ)) := by
  unfold C2Sql.growCols
  split
  · exact malloc.bind fun _ => .pure _
  · exact .pure _

theorem internalSchemaRegister (name : Option CStr)
    (cols : Option (List (Option SqlRDBColumnDef))) :
    Quiet (C2Sql.internalSchemaRegister name cols : Api σ SqlRDBResult) :=
  .of_outer (keepsOuter_internalSchemaRegister name cols)

theorem internalSchemaUnregister (name : CStr) :
    Quiet (C2Sql.internalSchemaUnregister name : Api σ SqlRDBResult) :=
  .of_outer (keepsOuter_internalSchemaUnregister name)

end Quiet

theorem Quiet.spends {c : Api (Audited σ) α} (h : Quiet c) : Spends A c fun _ => A :=
  .of_keeps (fun s => congrArg Audited.ledger (h.ctx s)) h.cache

/-! ## Rows and conditions -/

section Rows

variable {d : SqlRDBDriver σ} {stmt : StmtId}

theorem ctxSpends_bindCondValues (h : A.Has stmt) (cond : SqlRDBCondition) (idx : ℤ) :
    CtxSpends A (bindCondValues (d.audited.bind stmt) cond idx) fun _ => A := by
  induction cond generalizing idx with
  | all => exact .pure _
  | leaf col op v => exact (ctxSpends_bind h _ _).bind fun _ => .pure _
  | and left right ihl ihr =>
    exact (ihl idx).bind fun res => .ite (fun _ => .pure _) fun _ => ihr _
  | or left right ihl ihr =>
    exact (ihl idx).bind fun res => .ite (fun _ => .pure _) fun _ => ihr _

theorem spends_bindCond (h : A.Has stmt) (cond : Option SqlRDBCondition) (start : ℤ) :
    Spends A (drv (bindCond (d.audited.bind stmt) cond start)) fun _ => A := by
  refine spends_drv ?_
  unfold bindCond
  split
  · exact .pure _
  · exact .pure _
  · exact (ctxSpends_bindCondValues h _ _).bind fun _ => .pure _

theorem ctxSpends_bindRowFrom (h : A.Has stmt) (row : Mem) (nullMap : Option Mem) (i : ℕ)
    (cols : List SqlRDBColumnDef) :
    CtxSpends A (bindRowFrom d.audited stmt row nullMap i cols) fun _ => A := by
  induction cols generalizing i with
  | nil => exact .pure _
  | cons col cols ih =>
    refine .ite (fun _ => .ite (fun _ => .pure _) fun _ => ?_) fun _ => ?_
    · exact (ctxSpends_bind h _ _).bind fun r => .ite (fun _ => .pure _) fun _ => ih _
    · refine Accounts.bind (B := fun _ => A) ?_ fun r => .ite (fun _ => .pure _) fun _ => ih _
      unfold bindOne
      split
      · exact ctxSpends_bind h _ _
      · exact .pure _

theorem ctxSpends_readOne (h : A.Has stmt) (i : ℕ) (col : SqlRDBColumnDef) (row : Buffer) :
    CtxSpends A (readOne d.audited stmt i col row) fun _ => A := by
  unfold readOne
  split
  · exact (ctxSpends_columnInt64 h i).bind fun res => .ite (fun _ => .pure _) fun _ => .pure _
  · exact (ctxSpends_columnInt64 h i).bind fun res => .ite (fun _ => .pure _) fun _ => .pure _
  · exact (ctxSpends_columnReal h i).bind fun res => .ite (fun _ => .pure _) fun _ => .pure _
  · refine (ctxSpends_columnText h i).bind fun res => .ite (fun _ => .pure _) fun _ => ?_
    exact .ite (fun _ => .pure _) fun _ => .pure _
  · exact (ctxSpends_columnBlob h i).bind fun res => .ite (fun _ => .pure _) fun _ => .pure _
  · exact .pure _

theorem ctxSpends_readRowFrom (h : A.Has stmt) (i : ℕ) (cols : List SqlRDBColumnDef)
    (anyTruncated : Bool) (row : Buffer) (nullMap : Option Mem) :
    CtxSpends A (readRowFrom d.audited stmt i cols anyTruncated row nullMap) fun _ => A := by
  induction cols generalizing i anyTruncated row nullMap with
  | nil => exact .pure _
  | cons col cols ih =>
    refine (ctxSpends_columnIsnull h i).bind fun res => .ite (fun _ => .pure _) fun _ => ?_
    refine .ite (fun _ => ih _ _ _ _) fun _ => (ctxSpends_readOne h i col row).bind fun res => ?_
    exact .ite (fun _ => ih _ _ _ _) fun _ => .ite (fun _ => .pure _) fun _ => ih _ _ _ _

theorem spends_readRow (h : A.Has stmt) (schema : SqlRDBSchema) (row : Buffer)
    (nullMap : Option Mem) :
    Spends A (drv (internalTmReadRow d.audited stmt schema row nullMap)) fun _ => A :=
  spends_drv (ctxSpends_readRowFrom h 0 schema.cols false row nullMap)

/-- The loop of a batch resets its statement after every row. -/
theorem ctxSpends_writeRows (h : stmt ∈ A.live) (schema : SqlRDBSchema) (rows : Mem) (stride : ℕ)
    (nullMaps : Option Mem) (k i : ℕ) :
    CtxSpends (A.use stmt) (writeRows d.audited stmt schema rows stride nullMaps k i)
      fun _ => A.use stmt := by
  induction k generalizing i with
  | zero => exact .pure _
  | succ k ih =>
    have hhas : (A.use stmt).Has stmt := Holding.has_use h
    refine (ctxSpends_bindRowFrom hhas _ _ _ _).bind fun r => .ite (fun _ => .pure _) fun _ => ?_
    refine (ctxSpends_step hhas).bind fun res => (ctxSpends_rest h _).bind fun _ => ?_
    exact .of_use (.ite (fun _ => .pure _) fun _ => ih (i + 1))

end Rows

/-! ## Table synchronisation -/

section Migration

variable {d : SqlRDBDriver σ} {stmt : StmtId}

theorem spends_step (h : A.Has stmt) : Spends A (drv (d.audited.step stmt)) fun _ => A :=
  spends_drv (ctxSpends_step h)

theorem spends_call (c : StateM σ α) : Spends A (drv (auditCall c)) fun _ => A :=
  spends_drv (ctxSpends_call c)

theorem spendsSome_finalize (a : α) :
    SpendsSome (A.take stmt) (do let _ ← drv (d.audited.finalize stmt); pure (some a)) A :=
  .bind spends_finalize fun _ => .some a

/-- A loop over the rows of a statement finalizes the statement at its end. -/
theorem spendsSome_collectCols {readRow : ℕ → Api (Audited σ) DbCol}
    (hrow : ∀ n, Spends (A.take stmt) (readRow n) fun _ => A.take stmt) (fuel cap : ℕ)
    (cols : List DbCol) :
    SpendsSome (A.take stmt) (collectCols d.audited stmt readRow fuel cap cols) A := by
  induction fuel generalizing cap cols with
  | zero => exact .none
  | succ fuel ih =>
    refine .bind (spends_step (A.has_take stmt)) fun res => ?_
    refine .ite (fun _ => spendsSome_finalize _) fun _ => ?_
    refine .bind (Quiet.growCols _ _).spends fun g => ?_
    refine .ite (fun _ => spendsSome_finalize _) fun _ => ?_
    exact .bind (hrow _) fun col => ih _ _

theorem spendsSome_collectNames {pick : Api (Audited σ) (Option (List UInt8))}
    (hpick : Spends (A.take stmt) pick fun _ => A.take stmt) (max len fuel : ℕ)
    (names : List CStr) :
    SpendsSome (A.take stmt) (collectNames d.audited stmt pick max len fuel names) A := by
  induction fuel generalizing names with
  | zero => exact .none
  | succ fuel ih =>
    refine .bind (spends_step (A.has_take stmt)) fun res => ?_
    exact .ite (fun _ => spendsSome_finalize _) fun _ => .bind hpick fun name => ih _

theorem spends_columnText (h : A.Has stmt) (i : ℕ) :
    Spends A (drv (d.audited.columnText stmt i)) fun _ => A :=
  spends_drv (ctxSpends_columnText h i)

theorem spends_columnInt32 (h : A.Has stmt) (i : ℕ) :
    Spends A (drv (d.audited.columnInt32 stmt i)) fun _ => A :=
  spends_drv (ctxSpends_columnInt32 h i)

theorem spends_pickText (h : A.Has stmt) (i : ℕ) :
    Spends A (pickText d.audited stmt i) fun _ => A :=
  (spends_columnText h i).bind fun _ => .pure _

theorem spends_pickIndexName (h : A.Has stmt) :
    Spends A (pickIndexName d.audited stmt) fun _ => A := by
  refine (spends_columnInt32 h 2).bind fun uniq => .ite (fun _ => .pure _) fun _ => ?_
  refine (spends_columnText h 3).bind fun origin => .ite (fun _ => .pure _) fun _ => ?_
  exact (spends_columnText h 1).bind fun name => .pure _

theorem spendsSome_readTableInfo (fuel : ℕ) (table : CStr) :
    SpendsSome A (readTableInfo d.audited fuel table) A := by
  refine spendsSome_prepare_ite (fun _ => .some _) fun stmt => ?_
  refine spendsSome_collectCols (fun _ => ?_) _ _ _
  have h := A.has_take stmt
  refine (spends_columnInt32 h 0).bind fun _ => (spends_columnText h 1).bind fun _ => ?_
  refine (spends_columnText h 2).bind fun _ => (spends_columnInt32 h 3).bind fun _ => ?_
  exact (spends_columnInt32 h 5).bind fun _ => .pure _

theorem spendsSome_applyIndexes (fuel : ℕ) (idxs : List CStr) (cols : List DbCol) :
    SpendsSome A (applyIndexes d.audited fuel idxs cols) A := by
  induction idxs generalizing cols with
  | nil => exact .some _
  | cons idx idxs ih =>
    refine spendsSome_prepare_ite (fun _ => .some _) fun stmt => ?_
    refine .seq
      (spendsSome_collectNames (spends_pickText (A.has_take stmt) 2) _ _ _ _) rfl fun res => ?_
    exact .ite (fun _ => .some _) fun _ => ih _

theorem spendsSome_applyUniqueFlags (fuel : ℕ) (table : CStr) (cols : List DbCol) :
    SpendsSome A (applyUniqueFlags d.audited fuel table cols) A := by
  refine spendsSome_prepare_ite (fun _ => .some _) fun stmt => ?_
  refine .seq
    (spendsSome_collectNames (spends_pickIndexName (A.has_take stmt)) _ _ _ _) rfl fun res => ?_
  exact .ite (fun _ => .some _) fun _ => spendsSome_applyIndexes _ _ _

theorem spendsSome_checkStrict (table : CStr) : SpendsSome A (checkStrict d.audited table) A := by
  refine spendsSome_prepare_ite (fun _ => .some _) fun stmt => ?_
  refine .bind (spends_step (A.has_take stmt)) fun res => ?_
  refine .ite (fun _ => spendsSome_finalize _) fun _ => ?_
  refine .bind (spends_columnText (A.has_take stmt) 0) ?_
  rintro ⟨_, p⟩
  cases p with
  | none => exact spendsSome_finalize _
  | some p =>
    dsimp only
    split
    · exact .none
    · exact spendsSome_finalize _

theorem spendsSome_bindName {k : SqlRDBResult → Api (Audited σ) (Option α)} {table : CStr}
    (hk : ∀ r, SpendsSome (A.take stmt) (k r) A) :
    SpendsSome (A.take stmt) (drv (d.audited.bind stmt 1 (.text table)) >>= k) A :=
  .bind (spends_drv (ctxSpends_bind (A.has_take stmt) _ _)) hk

theorem spendsSome_pgCollectNames (fuel : ℕ) (sql table : CStr) (max : ℕ) :
    SpendsSome A (pgCollectNames d.audited fuel sql table max) A := by
  refine spendsSome_prepare_ite (fun _ => .some _) fun stmt => spendsSome_bindName fun r => ?_
  refine .ite (fun _ => spendsSome_finalize _) fun _ => ?_
  exact spendsSome_collectNames (spends_pickText (A.has_take stmt) 0) _ _ _ _

theorem spendsSome_readTableInfoPg (fuel : ℕ) (table : CStr) :
    SpendsSome A (readTableInfoPg d.audited fuel table) A := by
  refine spendsSome_prepare_ite (fun _ => .some _) fun stmt => spendsSome_bindName fun r => ?_
  refine .ite (fun _ => spendsSome_finalize _) fun _ => ?_
  refine .seq (spendsSome_collectCols (fun _ => ?_) _ _ _) rfl fun res => ?_
  · have h := A.has_take stmt
    refine (spends_columnText h 0).bind fun _ => (spends_columnText h 1).bind fun _ => ?_
    exact (spends_columnText h 2).bind fun _ => .pure _
  refine .ite (fun _ => .some _) fun _ => ?_
  refine .seq (spendsSome_pgCollectNames _ _ _ _) rfl fun res => .ite (fun _ => .some _) fun _ => ?_
  refine .seq (spendsSome_pgCollectNames _ _ _ _) rfl fun res => ?_
  exact .ite (fun _ => .some _) fun _ => .some _

theorem spendsSome_readExisting (fuel : ℕ) (table : CStr) :
    SpendsSome A (readExisting d.audited fuel table) A := by
  rw [readExisting]
  split
  · exact spendsSome_readTableInfoPg fuel table
  · refine .seq (spendsSome_readTableInfo fuel table) rfl fun res => ?_
    refine .ite (fun _ => .some _) fun _ => ?_
    exact .seq (spendsSome_applyUniqueFlags _ _ _) rfl fun res => .some _

theorem spends_alterAdd (schema : SqlRDBSchema) (cols : List SqlRDBColumnDef) :
    Spends A (alterAdd d.audited schema cols) fun _ => A := by
  induction cols with
  | nil => exact .pure _
  | cons col cols ih =>
    refine (Quiet.qbBuild _).spends.bind fun res => ?_
    split
    · exact .pure _
    · refine (spends_call _).bind fun r => .ite (fun _ => ?_) fun _ => ih
      exact (Quiet.errSet _ _).spends.bind fun _ => .pure _

/-- A refusal that is recorded in the error context. -/
theorem spendsSome_errSet {code : SqlRDBResult} {message : CStr} {a : α} :
    SpendsSome A (do errSet code message; pure (some a) : Api (Audited σ) (Option α)) A :=
  .bind (Quiet.errSet _ _).spends fun _ => .some _

theorem spendsSome_revalidate (fuel : ℕ) (schema : SqlRDBSchema) :
    SpendsSome A (revalidate d.audited fuel schema) A := by
  refine .seq (spendsSome_readExisting fuel _) rfl fun res => .ite (fun _ => .some _) fun _ => ?_
  refine .ite (fun _ => spendsSome_errSet) fun _ => ?_
  split
  · exact spendsSome_errSet
  · exact .some _

theorem spendsSome_syncColumns (fuel : ℕ) (schema : SqlRDBSchema) (dbCols : List DbCol) :
    SpendsSome A (syncColumns d.audited fuel schema dbCols) A := by
  rw [syncColumns]
  split
  · exact spendsSome_errSet
  refine .ite (fun _ => spendsSome_errSet) fun _ => .ite (fun _ => ?_) fun _ => .some _
  refine .bind Quiet.get.spends fun h => .ite (fun _ => spendsSome_errSet) fun _ => ?_
  refine .bind (spends_alterAdd _ _) fun r => .ite (fun _ => .some _) fun _ => ?_
  exact spendsSome_revalidate fuel schema

theorem spendsSome_internalMigrateTable (fuel : ℕ) (schema : SqlRDBSchema) :
    SpendsSome A (internalMigrateTable d.audited fuel schema) A := by
  refine .bind (Quiet.qbBuild _).spends fun res => ?_
  split
  · exact .some _
  refine .bind (spends_call _) fun r => .ite (fun _ => spendsSome_errSet) fun _ => ?_
  refine .seq (spendsSome_readExisting fuel _) rfl fun res => .ite (fun _ => .some _) fun _ => ?_
  refine .ite (fun _ => .some _) fun _ => ?_
  dsimp only
  -- the two dialects differ in how they find out whether the table is STRICT
  split
  all_goals
    refine .seq (by first | exact .some _ | exact spendsSome_checkStrict _) rfl fun isStrict => ?_
    refine .bind Quiet.get.spends fun h => .ite (fun _ => spendsSome_errSet) fun _ => ?_
    refine .ite (fun _ => ?_) fun _ => spendsSome_syncColumns _ _ _
    exact .bind (Quiet.internalLog _ _).spends fun _ => spendsSome_syncColumns _ _ _

end Migration

end C2Sql
