import C2Sql.Migration
import C2Sql.TypeMapping

/-!
# Registration and row operations

The public functions of `c2sql.c` that register a struct and that write, read, count and delete
rows. A pointer argument that the function checks against NULL is an option; what a function
stores through its output pointers is returned with the result code. Every exit of the source that
unlocks the mutex does so here.
-/

namespace C2Sql

variable {σ : Type}

/-! ## Registration -/

/-- `SqlRDBRegisterStruct`. -/
def sqlRDBRegisterStruct (d : SqlRDBDriver σ) (fuel : ℕ) (structName : Option CStr)
    (cols : Option (List (Option SqlRDBColumnDef))) : Api σ (Option SqlRDBResult) := do
  let h ← get
  if !h.valid then pure (some .errInvalidHandle)
  else match structName, cols with
    | some name, some (c :: cs) =>
      mutexLock
      let r ← internalSchemaRegister (some name) (some (c :: cs))
      if r ≠ .ok then
        mutexUnlock
        pure (some r)
      else
        let h ← get
        match h.lookup name with
        | none =>
          mutexUnlock
          pure (some .errInternal)
        | some schema =>
          let r ← internalMigrateTable d fuel schema
          match r with
          | none => pure none
          | some r =>
            if r ≠ .ok then
              let _ ← internalSchemaUnregister name
            mutexUnlock
            pure (some r)
    | _, _ =>
      errSet .errInvalidArg (lit "RegisterStruct: struct_name, cols, col_count required")
      pure (some .errInvalidArg)

/-! ## The common opening -/

/-- What the operations on a cached statement do first: look up the schema, build the text, get the
statement. A failed exit unlocks the mutex. -/
def openStmt (d : SqlRDBDriver σ) (who : CStr) (structName : CStr)
    (spec : SqlRDBSchema → SqlRDBQuerySpec) :
    Api σ (Except SqlRDBResult (SqlRDBSchema × StmtId × Bool)) := do
  let h ← get
  match h.lookup structName with
  | none =>
    errSet .errUnknownStruct (who ++ lit ": unknown struct '" ++ structName ++ lit "'")
    mutexUnlock
    pure (.error .errUnknownStruct)
  | some schema =>
    let res ← qbBuild (spec schema)
    match res with
    | .error r =>
      mutexUnlock
      pure (.error r)
    | .ok (sql, _) =>
      let res ← getOrPrepare d sql
      match res with
      | .error r =>
        mutexUnlock
        pure (.error r)
      | .ok (stmt, owned) => pure (.ok (schema, stmt, owned))

/-! ## Writing -/

/-- The statement of `SqlRDBWrite` and `SqlRDBWriteMany`. -/
def writeSpec (dialect : C2SqlDialect) (schema : SqlRDBSchema) : SqlRDBQuerySpec :=
  { op := if schema.pkIndex.isSome then .upsert else .insert, schema := schema,
    dialect := dialect }

/-- `SqlRDBWrite`. -/
def sqlRDBWrite (d : SqlRDBDriver σ) (structName : Option CStr) (row : Option Mem)
    (nullMap : Option Mem) : Api σ SqlRDBResult := do
  let h ← get
  if !h.valid then pure .errInvalidHandle
  else match structName, row with
    | some name, some row =>
      mutexLock
      let res ← openStmt d (lit "Write") name (writeSpec d.dialect)
      match res with
      | .error r => pure r
      | .ok (schema, stmt, owned) =>
        let r ← drv (internalTmBindRow d stmt schema row nullMap)
        if r ≠ .ok then
          releaseCachedStmt d stmt owned
          mutexUnlock
          pure r
        else
          let (r, _) ← drv (d.step stmt)
          releaseCachedStmt d stmt owned
          if r ≠ .ok then errSet r (lit "Write: step failed")
          mutexUnlock
          pure r
    | _, _ => pure .errInvalidArg

/-- The `i`-th row of an array with the given stride. -/
def Mem.at (m : Mem) (off : ℕ) : Mem := fun i => m (off + i)

/-- The loop of `SqlRDBWriteMany`: `k` rows from the `i`-th on. -/
def writeRows (d : SqlRDBDriver σ) (stmt : StmtId) (schema : SqlRDBSchema) (rows : Mem)
    (stride : ℕ) (nullMaps : Option Mem) : ℕ → ℕ → StateM σ SqlRDBResult
  | 0, _ => pure .ok
  | k + 1, i => do
    let row := rows.at (i * stride)
    let nm := nullMaps.map fun m => m.at (i * nullBitmapBytes schema.cols.length)
    let r ← internalTmBindRow d stmt schema row nm
    if r ≠ .ok then pure r
    else
      let (r, _) ← d.step stmt
      let _ ← d.reset stmt
      if r ≠ .ok then pure r else writeRows d stmt schema rows stride nullMaps k (i + 1)

/-- `SqlRDBWriteMany`. -/
def sqlRDBWriteMany (d : SqlRDBDriver σ) (structName : Option CStr) (rows : Option Mem)
    (count stride : ℕ) (nullMaps : Option Mem) : Api σ SqlRDBResult := do
  let h ← get
  if !h.valid then pure .errInvalidHandle
  else match structName, rows with
    | some name, some rows =>
      if count = 0 ∨ stride = 0 then pure .errInvalidArg
      else
        mutexLock
        let res ← openStmt d (lit "WriteMany") name (writeSpec d.dialect)
        match res with
        | .error r => pure r
        | .ok (schema, stmt, owned) =>
          let h ← get
          let implicitTx := h.txn.depth = 0
          let br ← if implicitTx then drv d.begin else pure .ok
          if br ≠ .ok then
            releaseCachedStmt d stmt owned
            mutexUnlock
            pure br
          else
            let r ← drv (writeRows d stmt schema rows stride nullMaps count 0)
            if implicitTx then
              if r = .ok then
                -- the result of the commit is not looked at
                let _ ← drv d.commit
              else
                let _ ← drv d.rollback
            releaseCachedStmt d stmt owned
            mutexUnlock
            pure r
    | _, _ => pure .errInvalidArg

/-! ## Deleting and counting -/

/-- The statement of an operation that takes a condition. -/
def condSpec (op : C2SqlQBOp) (cond : Option SqlRDBCondition) (dialect : C2SqlDialect)
    (schema : SqlRDBSchema) : SqlRDBQuerySpec :=
  { op := op, schema := schema, cond := cond, dialect := dialect }

/-- `SqlRDBDelete`, with the old and new content of `*out_deleted`. -/
def sqlRDBDelete (d : SqlRDBDriver σ) (structName : Option CStr) (cond : Option SqlRDBCondition)
    (outDeleted : Option ℕ) : Api σ (SqlRDBResult × Option ℕ) := do
  let h ← get
  if !h.valid then pure (.errInvalidHandle, outDeleted)
  else match structName, cond with
    | some name, some cond =>
      mutexLock
      let res ← openStmt d (lit "Delete") name (condSpec .delete (some cond) d.dialect)
      match res with
      | .error r => pure (r, outDeleted)
      | .ok (_, stmt, owned) =>
        let r ← drv (bindCond (d.bind stmt) (some cond) 1)
        if r ≠ .ok then
          releaseCachedStmt d stmt owned
          mutexUnlock
          pure (r, outDeleted)
        else
          let (r, _) ← drv (d.step stmt)
          releaseCachedStmt d stmt owned
          if r = .ok ∧ outDeleted.isSome then
            let n ← drv d.changes
            mutexUnlock
            pure (r, some n.toNat)
          else
            mutexUnlock
            pure (r, outDeleted)
    | _, _ => pure (.errInvalidArg, outDeleted)

/-- The row of a COUNT statement, stored over `old`. -/
def readCount (d : SqlRDBDriver σ) (stmt : StmtId) (r : SqlRDBResult) (hasRow : Bool) (old : ℕ) :
    StateM σ (SqlRDBResult × ℕ) :=
  if r = .ok ∧ hasRow = true then do
    let (r, n) ← d.columnInt64 stmt 0
    pure (r, if r = .ok then n.toInt.toNat else old)
  else pure (r, old)

/-- `SqlRDBCount`, with the old and new content of `*out_count`. -/
def sqlRDBCount (d : SqlRDBDriver σ) (structName : Option CStr) (cond : Option SqlRDBCondition)
    (outCount : Option ℕ) : Api σ (SqlRDBResult × Option ℕ) := do
  let h ← get
  if !h.valid then pure (.errInvalidHandle, outCount)
  else match structName, outCount with
    | some name, some old =>
      mutexLock
      let res ← openStmt d (lit "Count") name (condSpec .count cond d.dialect)
      match res with
      | .error r => pure (r, some old)
      | .ok (_, stmt, owned) =>
        let r ← drv (bindCond (d.bind stmt) cond 1)
        if r ≠ .ok then
          releaseCachedStmt d stmt owned
          mutexUnlock
          pure (r, some old)
        else
          let (r, hasRow) ← drv (d.step stmt)
          let (r, new) ← drv (readCount d stmt r hasRow old)
          releaseCachedStmt d stmt owned
          mutexUnlock
          pure (r, some new)
    | _, _ => pure (.errInvalidArg, outCount)

/-! ## Reading one row -/

/-- The caller's buffers of a read. -/
structure ReadOut where
  row : Option Buffer
  nullMap : Option Mem

/-- `buf_size`: the greatest end of a member, in `size_t` arithmetic. -/
def bufSize (cols : List SqlRDBColumnDef) : ℕ :=
  cols.foldl (fun m c => max m (sizeT (c.offset + c.size))) 0

/-- `out_null_map[i] |= tmp_null[i]` for `i < n`. -/
def orBytes (n : ℕ) (out tmp : Mem) : Mem := fun i => if i < n then out i ||| tmp i else out i

/-- A store past the end of a heap block is recorded. -/
def noteOverrun (b : Buffer) : Api σ Unit := fun h =>
  ((), { h with heap := { h.heap with corrupt := h.heap.corrupt || b.overrun } })

/-- `out_null_map ? calloc(1, ..) : NULL`. -/
def callocNullMap (outNullMap : Option Mem) : Api σ (Option Mem) :=
  match outNullMap with
  | none => pure none
  | some _ => do
    let ok ← malloc
    pure (if ok then some (fun _ => 0) else none)

/-- The part of `SqlRDBRead` that goes through a temporary row. -/
def readBuffered (d : SqlRDBDriver σ) (stmt : StmtId) (owned : Bool) (schema : SqlRDBSchema)
    (out : Buffer) (outNullMap : Option Mem) : Api σ (SqlRDBResult × Buffer × Option Mem) := do
  let size := bufSize schema.cols
  let rowOk ← malloc
  if !rowOk then
    releaseCachedStmt d stmt owned
    mutexUnlock
    pure (.errNoMemory, out, outNullMap)
  else
    let tmpRow : Buffer := ⟨size, fun _ => 0, false⟩
    let nmBytes := nullBitmapBytes schema.cols.length
    let tmpNull ← callocNullMap outNullMap
    let (readRc, tmpRow, tmpNull) ← drv (internalTmReadRow d stmt schema tmpRow tmpNull)
    noteOverrun tmpRow
    if readRc ≠ .ok ∧ readRc ≠ .warnTruncated then
      releaseCachedStmt d stmt owned
      mutexUnlock
      pure (readRc, out, outNullMap)
    else
      let (r, hasRow2) ← drv (d.step stmt)
      releaseCachedStmt d stmt owned
      if r ≠ .ok ∨ hasRow2 = true then
        mutexUnlock
        pure (if hasRow2 then .errMultipleRows else r, out, outNullMap)
      else
        let out := out.write 0 (tmpRow.data.read 0 size)
        let outNullMap := match outNullMap, tmpNull with
          | some m, some t => some (orBytes nmBytes m t)
          | m, _ => m
        mutexUnlock
        pure (readRc, out, outNullMap)

/-- `SqlRDBRead`. -/
def sqlRDBRead (d : SqlRDBDriver σ) (structName : Option CStr) (cond : Option SqlRDBCondition)
    (out : ReadOut) (opts : Option SqlRDBReadOpts) : Api σ (SqlRDBResult × ReadOut) := do
  let h ← get
  if !h.valid then pure (.errInvalidHandle, out)
  else match structName, out.row with
    | some name, some outRow =>
      mutexLock
      let res ← openStmt d (lit "Read") name (condSpec .select cond d.dialect)
      match res with
      | .error r => pure (r, out)
      | .ok (schema, stmt, owned) =>
        let h ← get
        let allowMulti := (opts.map fun o => o.allowMulti).getD false ||
          h.config.multirowDefault == 1
        let r ← drv (bindCond (d.bind stmt) cond 1)
        if r ≠ .ok then
          releaseCachedStmt d stmt owned
          mutexUnlock
          pure (r, out)
        else
          let (r, hasRow) ← drv (d.step stmt)
          if r ≠ .ok then
            releaseCachedStmt d stmt owned
            mutexUnlock
            pure (r, out)
          else if !hasRow then
            releaseCachedStmt d stmt owned
            mutexUnlock
            pure (.errNotFound, out)
          else if allowMulti then
            let (r, row, nm) ← drv (internalTmReadRow d stmt schema outRow out.nullMap)
            releaseCachedStmt d stmt owned
            mutexUnlock
            pure (r, ⟨some row, nm⟩)
          else
            let (r, row, nm) ← readBuffered d stmt owned schema outRow out.nullMap
            pure (r, ⟨some row, nm⟩)
    | _, _ => pure (.errInvalidArg, out)

end C2Sql
