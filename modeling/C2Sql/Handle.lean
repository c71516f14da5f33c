import C2Sql.StmtCache
import C2Sql.QueryBuilder

/-!
# The driver interface and the handle

`db_driver.h`, `handle_internal.h`, `mutex.c`, `error_ctx.c`, and the helpers of `c2sql.c` that
every operation uses.

A driver is a record of functions over its own context `σ` (`SqlRDBDriver σ`), and a library
function that talks to it is a state transformer of the handle, in which the context lives. What
the environment decides, namely which allocations fail and where `realloc` moves a block, is a
field of the handle too (`Heap`), and is arbitrary.
-/

namespace C2Sql

/-! ## Drivers -/

/-- `SqlRDBDriver` over a context `σ`. The six functions `bind_int64`, .., `bind_null` are one
function on the value they bind. A text or blob that a driver returns is `none` for a NULL
pointer. -/
structure SqlRDBDriver (σ : Type) where
  dialect : C2SqlDialect
  close : StateM σ SqlRDBResult
  exec : CStr → StateM σ SqlRDBResult
  prepare : CStr → StateM σ (SqlRDBResult × StmtId)
  bind : StmtId → ℤ → SqlValue → StateM σ SqlRDBResult
  step : StmtId → StateM σ (SqlRDBResult × Bool)
  columnInt64 : StmtId → ℕ → StateM σ (SqlRDBResult × BitVec 64)
  columnInt32 : StmtId → ℕ → StateM σ (SqlRDBResult × BitVec 32)
  columnReal : StmtId → ℕ → StateM σ (SqlRDBResult × BitVec 64)
  columnText : StmtId → ℕ → StateM σ (SqlRDBResult × Option (List UInt8))
  columnBlob : StmtId → ℕ → StateM σ (SqlRDBResult × Option (List UInt8))
  columnIsnull : StmtId → ℕ → StateM σ (SqlRDBResult × Bool)
  reset : StmtId → StateM σ SqlRDBResult
  finalize : StmtId → StateM σ SqlRDBResult
  begin : StateM σ SqlRDBResult
  commit : StateM σ SqlRDBResult
  rollback : StateM σ SqlRDBResult
  savepoint : CStr → StateM σ SqlRDBResult
  releaseSp : CStr → StateM σ SqlRDBResult
  rollbackSp : CStr → StateM σ SqlRDBResult
  changes : StateM σ ℤ

/-! ## The parts of a handle -/

/-- What the allocator does: which requests fail, and which calls of `realloc` move the block.
`garbage` is what a read through a pointer into a freed block finds, and `corrupt` says that a
store past the end of a block has happened. -/
structure Heap where
  fails : ℕ → Bool
  moves : ℕ → Bool
  tick : ℕ
  nextBlock : ℕ
  garbage : SqlRDBSchema
  corrupt : Bool

/-- `SqlRDBSchemaRegistry`: the block that holds the entries, the entries, and how many fit. -/
structure SqlRDBSchemaRegistry where
  block : ℕ
  entries : List SqlRDBSchema
  capacity : ℕ

/-- `SqlRDBTxnState`. -/
structure SqlRDBTxnState where
  depth : ℕ
  spNames : ℕ → CStr

/-- `SqlRDBErrorCtx`. -/
structure SqlRDBErrorCtx where
  code : SqlRDBResult
  message : CStr
  deriving DecidableEq

/-- `SqlRDBMutex`, with the numbers of real acquisitions and releases. -/
structure SqlRDBMutex where
  threadsafe : Bool
  acquired : ℕ
  released : ℕ
  deriving DecidableEq

/-- `SqlRDBLoggerCtx`: the addresses of the function and of its argument. -/
structure SqlRDBLoggerCtx where
  fn : ℕ
  user : ℕ
  deriving DecidableEq

/-- `SqlRDBHandle`; `connected` says that `driver_ctx` is not NULL, and `logged` collects what the
logger is called with. -/
structure SqlRDBHandle (σ : Type) where
  magic : ℕ
  config : SqlRDBConfig
  ctx : σ
  registry : SqlRDBSchemaRegistry
  cache : SqlRDBStmtCache
  txn : SqlRDBTxnState
  error : SqlRDBErrorCtx
  logger : SqlRDBLoggerCtx
  logged : List (SqlRDBResult × CStr)
  mutex : SqlRDBMutex
  heap : Heap
  connected : Bool := true

/-- `SQL_RDB_HANDLE_MAGIC`. -/
def handleMagic : ℕ := 0xC2DB1234

/-- `SQL_RDB_HANDLE_DEAD`. -/
def handleDead : ℕ := 0xDEADBEEF

variable {σ : Type}

/-- `c2sql_handle_valid`. -/
def SqlRDBHandle.valid (h : SqlRDBHandle σ) : Bool := h.magic == handleMagic

/-- State transformers of a handle. -/
abbrev Api (σ : Type) := StateM (SqlRDBHandle σ)

/-- A driver call. -/
def drv {α : Type} (c : StateM σ α) : Api σ α := fun h =>
  let (a, ctx) := c h.ctx
  (a, { h with ctx := ctx })

/-- An allocation: whether it succeeds. -/
def malloc : Api σ Bool := fun h =>
  (!h.heap.fails h.heap.tick, { h with heap := { h.heap with tick := h.heap.tick + 1 } })

/-- `n` allocations, up to the first that fails. -/
def mallocs : ℕ → Api σ Bool
  | 0 => pure true
  | n + 1 => do
    let ok ← malloc
    if ok then mallocs n else pure false

/-- `c2sql_internal_mutex_lock`. -/
def mutexLock : Api σ Unit := fun h =>
  ((), if h.mutex.threadsafe then
    { h with mutex := { h.mutex with acquired := h.mutex.acquired + 1 } } else h)

/-- `c2sql_internal_mutex_unlock`. -/
def mutexUnlock : Api σ Unit := fun h =>
  ((), if h.mutex.threadsafe then
    { h with mutex := { h.mutex with released := h.mutex.released + 1 } } else h)

/-- `c2sql_internal_err_set`: the message is cut to its 256-byte buffer. -/
def errSet (code : SqlRDBResult) (message : CStr) : Api σ Unit := fun h =>
  ((), { h with error := ⟨code, message.take 255⟩ })

/-- `c2sql_internal_log`: nothing happens without a logger. -/
def internalLog (code : SqlRDBResult) (message : CStr) : Api σ Unit := fun h =>
  ((), if h.logger.fn = 0 then h else { h with logged := h.logged ++ [(code, message)] })

/-- `c2sql_internal_qb_build` with its allocations: one of them fails, or the text is built. -/
def qbBuild (spec : SqlRDBQuerySpec) : Api σ (Except SqlRDBResult (CStr × ℕ)) := do
  let ok ← malloc
  pure (if ok then internalQbBuild spec else .error .errNoMemory)

/-! ## Statements -/

/-- `drv->finalize` on each statement. -/
def finalizeAll (d : SqlRDBDriver σ) : List StmtId → Api σ Unit
  | [] => pure ()
  | s :: ss => do
    let _ ← drv (d.finalize s)
    finalizeAll d ss

/-- `c2sql_internal_cache_get` on the cache of a handle: the statement, where it is found. -/
def cacheGet (sql : CStr) : Api σ (Option StmtId) := do
  let h ← get
  match h.cache.get sql with
  | (.ok, some stmt, cache) =>
    set { h with cache := cache }
    pure (some stmt)
  | _ => pure none

/-- `c2sql_internal_cache_put` on the cache of a handle, with the finalize calls it makes. -/
def cachePut (d : SqlRDBDriver σ) (sql : CStr) (stmt : StmtId) : Api σ SqlRDBResult := do
  let allocOk ← mallocs 2
  let h ← get
  let (r, cache, dropped) := h.cache.put sql stmt allocOk
  set { h with cache := cache }
  finalizeAll d dropped
  pure r

/-- `get_or_prepare`: the statement and whether the caller owns it. -/
def getOrPrepare (d : SqlRDBDriver σ) (sql : CStr) :
    Api σ (Except SqlRDBResult (StmtId × Bool)) := do
  let hit ← cacheGet sql
  match hit with
  | some stmt => pure (.ok (stmt, false))
  | none =>
    let (r, stmt) ← drv (d.prepare sql)
    if r ≠ .ok then pure (.error r)
    else
      let h ← get
      if h.cache.capacity = 0 then pure (.ok (stmt, true))
      else
        let r ← cachePut d sql stmt
        if r ≠ .ok then pure (.error r)
        else
          let hit ← cacheGet sql
          match hit with
          | some stmt => pure (.ok (stmt, false))
          | none => pure (.error .errInternal)

/-- `release_cached_stmt`. -/
def releaseCachedStmt (d : SqlRDBDriver σ) (stmt : StmtId) (owned : Bool) : Api σ Unit := do
  if owned then
    let _ ← drv (d.finalize stmt)
  else
    let _ ← drv (d.reset stmt)

/-- `bind_cond_values`: the result code and the new value of `*idx`. The driver's bind functions on
the statement are one function `bind`. -/
def bindCondValues (bind : ℤ → SqlValue → StateM σ SqlRDBResult) :
    SqlRDBCondition → ℤ → StateM σ (SqlRDBResult × ℤ)
  | .all, idx => pure (.ok, idx)
  | .leaf _ _ v, idx => do
    let r ← bind idx v.toSql
    pure (r, cInt (idx + 1))
  | .and left right, idx | .or left right, idx => do
    let (r, idx) ← bindCondValues bind left idx
    if r ≠ .ok then pure (r, idx) else bindCondValues bind right idx

/-- The guarded call `if (cond && cond->kind != COND_ALL) { int idx = start; .. }`. -/
def bindCond (bind : ℤ → SqlValue → StateM σ SqlRDBResult) (cond : Option SqlRDBCondition)
    (start : ℤ) : StateM σ SqlRDBResult :=
  match cond with
  | none => pure .ok
  | some .all => pure .ok
  | some c => do
    let (r, _) ← bindCondValues bind c start
    pure r

end C2Sql
