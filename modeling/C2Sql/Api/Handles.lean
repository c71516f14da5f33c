import C2Sql.Api.Cursors

/-!
# Handles and transactions

The public functions of `c2sql.c` that control transactions, and that open, configure and close a
handle.
-/

namespace C2Sql

variable {σ : Type}

/-! ## Transactions -/

/-- `C2SQL_MAX_TX_DEPTH`. -/
def maxTxDepth : ℕ := 16

/-- `snprintf(name, C2SQL_SP_NAME_LEN, "sp_%d", depth)` with a 32-byte buffer. -/
def spName (depth : ℕ) : CStr := (lit "sp_" ++ decimal depth).take 31

/-- The driver call of `SqlRDBBeginTx`; the name of a savepoint is stored before it is used. -/
def beginCall (d : SqlRDBDriver σ) : Api σ SqlRDBResult := do
  let h ← get
  if h.txn.depth = 0 then drv d.begin
  else
    let newDepth := h.txn.depth + 1
    set { h with txn := { h.txn with
      spNames := Function.update h.txn.spNames (newDepth - 1) (spName newDepth) } }
    drv (d.savepoint (spName newDepth))

/-- `SqlRDBBeginTx`. -/
def sqlRDBBeginTx (d : SqlRDBDriver σ) : Api σ SqlRDBResult := do
  let h ← get
  if !h.valid then pure .errInvalidHandle
  else
    mutexLock
    if h.txn.depth ≥ maxTxDepth then
      errSet .errNestedTx (lit "BeginTx: nesting depth limit " ++ decimal maxTxDepth ++
        lit " reached")
      mutexUnlock
      pure .errNestedTx
    else
      let r ← beginCall d
      if r ≠ .ok then
        errSet r (lit "BeginTx: driver call failed")
        mutexUnlock
        pure r
      else
        modify fun h => { h with txn := { h.txn with depth := h.txn.depth + 1 } }
        mutexUnlock
        pure .ok

/-- The driver call of `SqlRDBCommitTx`. -/
def commitCall (d : SqlRDBDriver σ) : Api σ SqlRDBResult := do
  let h ← get
  if h.txn.depth = 1 then drv d.commit
  else drv (d.releaseSp (h.txn.spNames (h.txn.depth - 1)))

/-- The driver calls of `SqlRDBRollbackTx`. -/
def rollbackCall (d : SqlRDBDriver σ) : Api σ SqlRDBResult := do
  let h ← get
  if h.txn.depth = 1 then drv d.rollback
  else
    let name := h.txn.spNames (h.txn.depth - 1)
    let r ← drv (d.rollbackSp name)
    if r = .ok then drv (d.releaseSp name) else pure r

/-- The body that `SqlRDBCommitTx` and `SqlRDBRollbackTx` share around their driver calls. -/
def endTx (who : CStr) (call : Api σ SqlRDBResult) : Api σ SqlRDBResult := do
  let h ← get
  if !h.valid then pure .errInvalidHandle
  else
    mutexLock
    if h.txn.depth = 0 then
      mutexUnlock
      pure .errNoActiveTx
    else
      let r ← call
      if r ≠ .ok then
        errSet r (who ++ lit ": driver call failed")
        mutexUnlock
        pure r
      else
        modify fun h => { h with txn := { h.txn with depth := h.txn.depth - 1 } }
        mutexUnlock
        pure .ok

/-- `SqlRDBCommitTx`. -/
def sqlRDBCommitTx (d : SqlRDBDriver σ) : Api σ SqlRDBResult :=
  endTx (lit "CommitTx") (commitCall d)

/-- `SqlRDBRollbackTx`. -/
def sqlRDBRollbackTx (d : SqlRDBDriver σ) : Api σ SqlRDBResult :=
  endTx (lit "RollbackTx") (rollbackCall d)

/-! ## Configuration -/

/-- `c2sql_internal_cache_rebuild` on a handle's cache, with the finalize calls it makes. -/
def cacheRebuild (d : SqlRDBDriver σ) (newCapacity : ℕ) : Api σ (Option SqlRDBResult) := do
  let callocOk ← malloc
  let h ← get
  match h.cache.rebuild newCapacity callocOk with
  | none => pure none
  | some (r, cache, dropped) =>
    set { h with cache := cache }
    finalizeAll d dropped
    pure (some r)

/-- `SqlRDBSetConfig`; `none` where `bucket_count_for` does not return. -/
def sqlRDBSetConfig (d : SqlRDBDriver σ) (cfg : Option SqlRDBConfig) :
    Api σ (Option SqlRDBResult) := do
  let h ← get
  if !h.valid then pure (some .errInvalidHandle)
  else match cfg with
    | none => pure (some .errInvalidArg)
    | some cfg =>
      mutexLock
      let r ← if cfg.stmtCacheSize ≠ h.config.stmtCacheSize then cacheRebuild d cfg.stmtCacheSize
        else pure (some .ok)
      match r with
      | none => pure none
      | some r =>
        if r = .ok then
          modify fun h =>
            { h with config := cfg,
                     mutex := if cfg.threadsafe ≠ h.config.threadsafe
                       then { h.mutex with threadsafe := cfg.threadsafe } else h.mutex }
        mutexUnlock
        pure (some r)

/-- `SqlRDBSetLogger`. -/
def sqlRDBSetLogger (logger : SqlRDBLoggerCtx) : Api σ SqlRDBResult := do
  let h ← get
  if !h.valid then pure .errInvalidHandle
  else
    mutexLock
    modify fun h => { h with logger := logger }
    mutexUnlock
    pure .ok

/-! ## Opening and closing -/

/-- The handle of a successful `SqlRDBInit` on a driver context: the default configuration, an empty
registry and cache, no transaction. -/
def freshHandle (ctx : σ) (heap : Heap) : SqlRDBHandle σ where
  magic := handleMagic
  config := defaultConfig
  ctx := ctx
  registry := ⟨0, [], 0⟩
  cache := { SqlRDBStmtCache.zero with
    capacity := defaultConfig.stmtCacheSize,
    bucketCount := (bucketCountFor defaultConfig.stmtCacheSize).getD 0 }
  txn := ⟨0, fun _ => []⟩
  error := ⟨.ok, []⟩
  logger := ⟨0, 0⟩
  logged := []
  mutex := ⟨defaultConfig.threadsafe, 0, 0⟩
  heap := heap

/-- `SqlRDBClose` rolls back a transaction that is still open. -/
def rollbackOpenTx (d : SqlRDBDriver σ) : Api σ Unit := do
  let h ← get
  if h.txn.depth > 0 ∧ h.connected then
    let _ ← drv d.rollback
    modify fun h => { h with txn := { h.txn with depth := 0 } }

/-- `SqlRDBClose` releases the cache, the registry and the driver. -/
def releaseAll (d : SqlRDBDriver σ) : Api σ Unit := do
  let h ← get
  let (cache, dropped) := h.cache.destroy
  set { h with cache := cache }
  finalizeAll d dropped
  modify fun h => { h with registry := ⟨0, [], 0⟩ }
  let h ← get
  if h.connected then
    let _ ← drv d.close
    modify fun h => { h with connected := false }

/-- What `SqlRDBClose` does once the magic number is overwritten, up to `free`. -/
def teardown (d : SqlRDBDriver σ) : Api σ Unit := do
  rollbackOpenTx d
  releaseAll d

/-- `SqlRDBClose` on a handle in the live registry. -/
def sqlRDBClose (d : SqlRDBDriver σ) : Api σ SqlRDBResult := do
  let h ← get
  if !h.valid then pure .errInvalidHandle
  else
    set { h with magic := handleDead }
    teardown d
    pure .ok

end C2Sql
