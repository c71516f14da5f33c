import C2Sql.Api.Rows

/-!
# Iterators and BLOB fields

The public functions of `c2sql.c` that work on a statement of their own, outside the cache: the
multi-row iterator, and the access to one BLOB cell.
-/

namespace C2Sql

variable {σ : Type}

/-! ## Iterators -/

/-- `SqlRDBStmt`, without its back reference to the handle. -/
structure SqlRDBStmt where
  rawStmt : StmtId
  schema : SchemaPtr
  deriving DecidableEq

/-- `SqlRDBReadMany`. `hasOut` says that `out_stmt` is not NULL; the iterator is what the function
stores there. -/
def sqlRDBReadMany (d : SqlRDBDriver σ) (structName : Option CStr)
    (cond : Option SqlRDBCondition) (hasOut : Bool) :
    Api σ (SqlRDBResult × Option SqlRDBStmt) := do
  let h ← get
  if !h.valid then pure (.errInvalidHandle, none)
  else match structName, hasOut with
    | some name, true =>
      mutexLock
      let h ← get
      match h.lookupPtr name with
      | none =>
        errSet .errUnknownStruct (lit "ReadMany: unknown struct '" ++ name ++ lit "'")
        mutexUnlock
        pure (.errUnknownStruct, none)
      | some ptr =>
        let res ← qbBuild (condSpec .select cond d.dialect (h.deref ptr))
        match res with
        | .error r =>
          mutexUnlock
          pure (r, none)
        | .ok (sql, _) =>
          let (r, raw) ← drv (d.prepare sql)
          if r ≠ .ok then
            mutexUnlock
            pure (r, none)
          else
            let r ← drv (bindCond (d.bind raw) cond 1)
            if r ≠ .ok then
              let _ ← drv (d.finalize raw)
              mutexUnlock
              pure (r, none)
            else
              let ok ← malloc
              if !ok then
                let _ ← drv (d.finalize raw)
                mutexUnlock
                pure (.errNoMemory, none)
              else
                mutexUnlock
                pure (.ok, some ⟨raw, ptr⟩)
    | _, _ => pure (.errInvalidArg, none)

/-- `SqlRDBStmtNext`. -/
def sqlRDBStmtNext (d : SqlRDBDriver σ) (stmt : Option SqlRDBStmt) (out : ReadOut) :
    Api σ (SqlRDBResult × ReadOut) := do
  match stmt, out.row with
  | some stmt, some outRow =>
    mutexLock
    let (r, hasRow) ← drv (d.step stmt.rawStmt)
    if r ≠ .ok then
      mutexUnlock
      pure (r, out)
    else if !hasRow then
      mutexUnlock
      pure (.errNotFound, out)
    else
      let h ← get
      let (r, row, nm) ← drv (internalTmReadRow d stmt.rawStmt (h.deref stmt.schema) outRow
        out.nullMap)
      mutexUnlock
      pure (r, ⟨some row, nm⟩)
  | _, _ => pure (.errInvalidArg, out)

/-- `SqlRDBStmtFree`. -/
def sqlRDBStmtFree (d : SqlRDBDriver σ) (stmt : Option SqlRDBStmt) : Api σ SqlRDBResult := do
  match stmt with
  | some stmt =>
    mutexLock
    let _ ← drv (d.finalize stmt.rawStmt)
    mutexUnlock
    pure .ok
  | none => pure .errInvalidArg

/-! ## BLOB fields -/

/-- The statement of an operation on one column. -/
def fieldSpec (op : C2SqlQBOp) (cond : SqlRDBCondition) (col : CStr) (dialect : C2SqlDialect)
    (schema : SqlRDBSchema) : SqlRDBQuerySpec :=
  { op := op, schema := schema, cond := some cond, targetCol := some col, dialect := dialect }

/-- `find_col_index`, as the column. -/
def findCol (schema : SqlRDBSchema) (col : CStr) : Option SqlRDBColumnDef :=
  schema.cols.find? fun c => c.name == col

/-- The steps of `count_matching_rows` on a bound statement, and the `finalize` after them. -/
def countRows (d : SqlRDBDriver σ) (stmt : StmtId) : Api σ (SqlRDBResult × ℕ) := do
  let (r, hasRow) ← drv (d.step stmt)
  if r ≠ .ok then
    let _ ← drv (d.finalize stmt)
    pure (r, 0)
  else if hasRow then
    let (r, hasRow2) ← drv (d.step stmt)
    let _ ← drv (d.finalize stmt)
    if r ≠ .ok then pure (r, 1) else pure (.ok, if hasRow2 then 2 else 1)
  else
    let _ ← drv (d.finalize stmt)
    pure (.ok, 0)

/-- `count_matching_rows`. -/
def countMatchingRows (d : SqlRDBDriver σ) (schema : SqlRDBSchema) (col : CStr)
    (cond : SqlRDBCondition) : Api σ (SqlRDBResult × ℕ) := do
  let res ← qbBuild (fieldSpec .selectField cond col d.dialect schema)
  match res with
  | .error r => pure (r, 0)
  | .ok (sql, _) =>
    let (r, stmt) ← drv (d.prepare sql)
    if r ≠ .ok then pure (r, 0)
    else
      let r ← drv (bindCond (d.bind stmt) (some cond) 1)
      if r ≠ .ok then
        let _ ← drv (d.finalize stmt)
        pure (r, 0)
      else countRows d stmt

/-- The UPDATE of `SqlRDBWriteBlobField`, up to its unlock. -/
def updateField (d : SqlRDBDriver σ) (schema : SqlRDBSchema) (key : SqlRDBCondition) (col : CStr)
    (bytes : List UInt8) : Api σ SqlRDBResult := do
  let res ← qbBuild (fieldSpec .updateField key col d.dialect schema)
  match res with
  | .error r =>
    mutexUnlock
    pure r
  | .ok (sql, _) =>
    let res ← getOrPrepare d sql
    match res with
    | .error r =>
      mutexUnlock
      pure r
    | .ok (stmt, owned) =>
      let r ← drv (d.bind stmt 1 (.blob bytes))
      if r ≠ .ok then
        releaseCachedStmt d stmt owned
        mutexUnlock
        pure r
      else
        let r ← drv (bindCond (d.bind stmt) (some key) 2)
        if r ≠ .ok then
          releaseCachedStmt d stmt owned
          mutexUnlock
          pure r
        else
          let (r, _) ← drv (d.step stmt)
          releaseCachedStmt d stmt owned
          if r ≠ .ok then errSet r (lit "WriteBlobField: step failed")
          mutexUnlock
          pure r

/-- `SqlRDBWriteBlobField`; `len` is the length of `bytes`. -/
def sqlRDBWriteBlobField (d : SqlRDBDriver σ) (structName : Option CStr)
    (key : Option SqlRDBCondition) (colName : Option CStr) (bytes : Option (List UInt8)) :
    Api σ SqlRDBResult := do
  let h ← get
  if !h.valid then pure .errInvalidHandle
  else match structName, key, colName, bytes with
    | some name, some key, some col, some bytes =>
      mutexLock
      let h ← get
      match h.lookup name with
      | none =>
        errSet .errUnknownStruct (lit "WriteBlobField: unknown struct '" ++ name ++ lit "'")
        mutexUnlock
        pure .errUnknownStruct
      | some schema =>
        match findCol schema col with
        | none =>
          mutexUnlock
          pure .errUnknownColumn
        | some c =>
          if c.type ≠ .blob then
            errSet .errInvalidArg (lit "WriteBlobField: column '" ++ col ++ lit "' is not BLOB")
            mutexUnlock
            pure .errInvalidArg
          else
            let (r, n) ← countMatchingRows d schema col key
            if r ≠ .ok then
              mutexUnlock
              pure r
            else if n = 0 then
              mutexUnlock
              pure .errNotFound
            else if n ≥ 2 then
              mutexUnlock
              pure .errMultipleRows
            else updateField d schema key col bytes
    | _, _, _, _ => pure .errInvalidArg

/-- The part of `SqlRDBReadBlobField` after the first row has been found. -/
def readBlobRow (d : SqlRDBDriver σ) (stmt : StmtId) (old : Option (List UInt8)) :
    Api σ (SqlRDBResult × Option (List UInt8)) := do
  let (r, raw) ← drv (d.columnBlob stmt 0)
  if r ≠ .ok then
    let _ ← drv (d.finalize stmt)
    mutexUnlock
    pure (r, old)
  else
    let ok ← malloc
    if !ok then
      let _ ← drv (d.finalize stmt)
      mutexUnlock
      pure (.errNoMemory, old)
    else
      let (r, hasRow2) ← drv (d.step stmt)
      let _ ← drv (d.finalize stmt)
      if r ≠ .ok then
        mutexUnlock
        pure (r, old)
      else if hasRow2 then
        mutexUnlock
        pure (.errMultipleRows, old)
      else
        mutexUnlock
        pure (.ok, some (raw.getD []))

/-- `SqlRDBReadBlobField`. `out` is what the two output pointers refer to before the call, an inner
`none` for a NULL `*out_bytes`; the outer option says that neither of them is NULL. -/
def sqlRDBReadBlobField (d : SqlRDBDriver σ) (structName : Option CStr)
    (key : Option SqlRDBCondition) (colName : Option CStr) (out : Option (Option (List UInt8))) :
    Api σ (SqlRDBResult × Option (Option (List UInt8))) := do
  let h ← get
  if !h.valid then pure (.errInvalidHandle, out)
  else match structName, key, colName, out with
    | some name, some key, some col, some old =>
      mutexLock
      let h ← get
      match h.lookup name with
      | none =>
        errSet .errUnknownStruct (lit "ReadBlobField: unknown struct '" ++ name ++ lit "'")
        mutexUnlock
        pure (.errUnknownStruct, out)
      | some schema =>
        match findCol schema col with
        | none =>
          mutexUnlock
          pure (.errUnknownColumn, out)
        | some c =>
          if c.type ≠ .blob then
            errSet .errInvalidArg (lit "ReadBlobField: column '" ++ col ++ lit "' is not BLOB")
            mutexUnlock
            pure (.errInvalidArg, out)
          else
            let res ← qbBuild (fieldSpec .selectField key col d.dialect schema)
            match res with
            | .error r =>
              mutexUnlock
              pure (r, out)
            | .ok (sql, _) =>
              let (r, stmt) ← drv (d.prepare sql)
              if r ≠ .ok then
                mutexUnlock
                pure (r, out)
              else
                let r ← drv (bindCond (d.bind stmt) (some key) 1)
                if r ≠ .ok then
                  let _ ← drv (d.finalize stmt)
                  mutexUnlock
                  pure (r, out)
                else
                  let (r, hasRow) ← drv (d.step stmt)
                  if r ≠ .ok then
                    let _ ← drv (d.finalize stmt)
                    mutexUnlock
                    pure (r, out)
                  else if !hasRow then
                    let _ ← drv (d.finalize stmt)
                    mutexUnlock
                    pure (.errNotFound, out)
                  else
                    let (r, new) ← readBlobRow d stmt old
                    pure (r, some new)
    | _, _, _, _ => pure (.errInvalidArg, out)

end C2Sql
