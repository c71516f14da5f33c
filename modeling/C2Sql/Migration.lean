import C2Sql.SchemaRegistry

/-!
# Table synchronisation

`migration.c`: reading the existing layout of a table from the catalog of either backend, comparing
it with a schema, and adding the missing trailing columns.

The loops over a statement's rows run as long as the driver reports a row. They take the number of
rows that they look at (`fuel`), and a function that is still in such a loop after that many
returns `none`; so does `check_strict` where its scan stops advancing.
-/

namespace C2Sql

/-- `MIG_MAX_NAME`. -/
def migMaxName : ℕ := 128

/-- `DbCol`. -/
structure DbCol where
  cid : ℤ
  name : CStr
  typeClass : SqlRDBType
  notnull : Bool
  pk : Bool
  isUnique : Bool
  deriving DecidableEq, Repr

/-- `strstr(s, t) != NULL`. -/
def strstr (s t : CStr) : Bool :=
  match s with
  | [] => t.isEmpty
  | c :: cs => t.isPrefixOf (c :: cs) || strstr cs t

/-- `schema_type_class`. -/
def schemaTypeClass (t : SqlRDBType) : SqlRDBType :=
  if t = .int32 ∨ t = .int64 then .int64 else t

/-- `type_class_from_str`: the upper case of at most 31 bytes is searched. -/
def typeClassFromStr (s : CStr) : SqlRDBType :=
  let up := (s.take 31).map toupper
  if strstr up (lit "INT") then .int64
  else if strstr up (lit "REAL") || strstr up (lit "FLOA") || strstr up (lit "DOUB") then .real
  else if strstr up (lit "BLOB") then .blob
  else .text

/-- `type_class_from_pg`. -/
def typeClassFromPg (s : CStr) : SqlRDBType :=
  if strstr s (lit "int") then .int64
  else if strstr s (lit "double") || strstr s (lit "real") || strstr s (lit "numeric") ||
      strstr s (lit "float") then .real
  else if strstr s (lit "bytea") then .blob
  else .text

/-- The string that bytes stand for when a NUL follows them. -/
def cstr (s : List UInt8) : CStr := s.takeWhile fun c => c ≠ 0

/-- A copy into a zeroed buffer of `n` bytes: dropped when it does not fit. -/
def copyFit (n : ℕ) (p : Option (List UInt8)) : CStr :=
  match p with
  | none => []
  | some s => if s.length < n then cstr s else []

/-- `snprintf(sql, sizeof(sql), ..)` with a 256-byte buffer. -/
def sql256 (s : CStr) : CStr := s.take 255

variable {σ : Type}

/-! ## PRAGMA queries -/

/-- The body of the loop of `read_table_info`: the columns of one row. -/
def readTableInfoRow (d : SqlRDBDriver σ) (stmt : StmtId) : Api σ DbCol := do
  let (_, cid) ← drv (d.columnInt32 stmt 0)
  let (_, name) ← drv (d.columnText stmt 1)
  let (_, type) ← drv (d.columnText stmt 2)
  let (_, nn) ← drv (d.columnInt32 stmt 3)
  let (_, pk) ← drv (d.columnInt32 stmt 5)
  pure ⟨cid.toInt, copyFit migMaxName name, typeClassFromStr (copyFit 32 type), nn != 0, pk != 0,
    false⟩

/-- Grow an array of `cap` elements when it is full: whether that succeeds, and the new `cap`. -/
def growCols (n cap : ℕ) : Api σ (Bool × ℕ) :=
  if n = cap then do
    let ok ← malloc
    pure (ok, if cap = 0 then 8 else cap * 2)
  else pure (true, cap)

/-- The loop of `read_table_info` and `read_table_info_pg` over the rows, and the `finalize` that
follows it. -/
def collectCols (d : SqlRDBDriver σ) (stmt : StmtId) (readRow : ℕ → Api σ DbCol) :
    ℕ → ℕ → List DbCol → Api σ (Option (SqlRDBResult × List DbCol))
  | 0, _, _ => pure none
  | fuel + 1, cap, cols => do
    let (r, hasRow) ← drv (d.step stmt)
    if r ≠ .ok ∨ hasRow = false then
      let _ ← drv (d.finalize stmt)
      pure (some (r, if r ≠ .ok then [] else cols))
    else
      let (ok, cap) ← growCols cols.length cap
      if !ok then
        let _ ← drv (d.finalize stmt)
        pure (some (.errNoMemory, []))
      else
        let col ← readRow cols.length
        collectCols d stmt readRow fuel cap (cols ++ [col])

/-- `read_table_info`. -/
def readTableInfo (d : SqlRDBDriver σ) (fuel : ℕ) (table : CStr) :
    Api σ (Option (SqlRDBResult × List DbCol)) := do
  let (r, stmt) ← drv (d.prepare (sql256 (lit "PRAGMA table_info(\"" ++ table ++ lit "\")")))
  if r ≠ .ok then pure (some (r, []))
  else collectCols d stmt (fun _ => readTableInfoRow d stmt) fuel 0 []

/-- The loops that collect names from the rows of a statement, and the `finalize` that follows:
`pick` reads the name of a row, or skips the row; at most `max` names shorter than `len` are
kept. -/
def collectNames (d : SqlRDBDriver σ) (stmt : StmtId) (pick : Api σ (Option (List UInt8)))
    (max len : ℕ) : ℕ → List CStr → Api σ (Option (SqlRDBResult × List CStr))
  | 0, _ => pure none
  | fuel + 1, names => do
    let (r, hasRow) ← drv (d.step stmt)
    if r ≠ .ok ∨ hasRow = false then
      let _ ← drv (d.finalize stmt)
      pure (some (r, names))
    else
      let name ← pick
      let names := match name with
        | some s => if names.length < max ∧ s.length < len then names ++ [cstr s] else names
        | none => names
      collectNames d stmt pick max len fuel names

/-- The name of a unique constraint index in a row of `PRAGMA index_list`. -/
def pickIndexName (d : SqlRDBDriver σ) (stmt : StmtId) : Api σ (Option (List UInt8)) := do
  let (_, uniq) ← drv (d.columnInt32 stmt 2)
  if uniq = 0 then pure none
  else
    let (_, origin) ← drv (d.columnText stmt 3)
    if origin ≠ some (lit "u") then pure none
    else
      let (_, name) ← drv (d.columnText stmt 1)
      pure name

/-- A text column of the current row. -/
def pickText (d : SqlRDBDriver σ) (stmt : StmtId) (i : ℕ) : Api σ (Option (List UInt8)) := do
  let (_, name) ← drv (d.columnText stmt i)
  pure name

/-- `cols[k].is_unique = true` for the first column of that name. -/
def markUnique (name : CStr) : List DbCol → List DbCol
  | [] => []
  | c :: cs => if c.name = name then { c with isUnique := true } :: cs else c :: markUnique name cs

/-- The second loop of `apply_unique_flags`: the columns of each index. -/
def applyIndexes (d : SqlRDBDriver σ) (fuel : ℕ) :
    List CStr → List DbCol → Api σ (Option (SqlRDBResult × List DbCol))
  | [], cols => pure (some (.ok, cols))
  | idx :: idxs, cols => do
    let (r, stmt) ← drv (d.prepare (sql256 (lit "PRAGMA index_info(\"" ++ idx ++ lit "\")")))
    if r ≠ .ok then pure (some (r, cols))
    else
      let res ← collectNames d stmt (pickText d stmt 2) 8 migMaxName fuel []
      match res with
      | none => pure none
      | some (r, refCols) =>
        if r ≠ .ok then pure (some (r, cols))
        else applyIndexes d fuel idxs (match refCols with
          | [name] => markUnique name cols
          | _ => cols)

/-- `apply_unique_flags`. -/
def applyUniqueFlags (d : SqlRDBDriver σ) (fuel : ℕ) (table : CStr) (cols : List DbCol) :
    Api σ (Option (SqlRDBResult × List DbCol)) := do
  let (r, stmt) ← drv (d.prepare (sql256 (lit "PRAGMA index_list(\"" ++ table ++ lit "\")")))
  if r ≠ .ok then pure (some (r, cols))
  else
    let res ← collectNames d stmt (pickIndexName d stmt) 64 96 fuel []
    match res with
    | none => pure none
    | some (r, idxNames) =>
      if r ≠ .ok then pure (some (r, cols)) else applyIndexes d fuel idxNames cols

/-! ## The STRICT option -/

/-- The bytes that the scan of `check_strict` skips between words. -/
def strictSep (c : UInt8) : Bool := c == 32 || c == 9 || c == 44 || c == 10

/-- The loop of `check_strict` over the text after the last parenthesis. A round that does not
advance is repeated forever. -/
def scanStrict : ℕ → CStr → Option Bool
  | 0, _ => none
  | k + 1, q =>
    if q = [] then some false
    else
      let q₁ := q.dropWhile strictSep
      if q₁.length < 6 then some false
      else if (q₁.take 6).map toupper = lit "STRICT" ∧
          ((q₁.drop 6).head?.map isalnum).getD false = false then some true
      else
        let q₂ := q₁.dropWhile fun c => isalnum c || c == 95
        if q₂.length = q.length then none else scanStrict k q₂

/-- The text after the last `)`, if there is one. -/
def afterLastParen (p : CStr) : Option CStr :=
  if p.contains 41 then some (p.reverse.takeWhile fun c => c ≠ 41).reverse else none

/-- What `check_strict` finds in the text of a CREATE TABLE statement. -/
def strictOfText (p : CStr) : Option Bool :=
  match afterLastParen p with
  | none => some false
  | some tail => scanStrict (tail.length + 1) tail

/-- `check_strict`: `*out_strict`. Its result code is not used by its caller. -/
def checkStrict (d : SqlRDBDriver σ) (table : CStr) : Api σ (Option Bool) := do
  let (r, stmt) ← drv (d.prepare (sql256
    (lit "SELECT sql FROM sqlite_schema WHERE type='table' AND name='" ++ table ++ lit "'")))
  if r ≠ .ok then pure (some false)
  else
    let (r, hasRow) ← drv (d.step stmt)
    if r ≠ .ok ∨ hasRow = false then
      let _ ← drv (d.finalize stmt)
      pure (some false)
    else
      let (_, p) ← drv (d.columnText stmt 0)
      match p with
      | none =>
        let _ ← drv (d.finalize stmt)
        pure (some false)
      | some p =>
        match strictOfText p with
        | none => pure none
        | some strict =>
          let _ ← drv (d.finalize stmt)
          pure (some strict)

/-! ## PostgreSQL catalogs -/

/-- `pg_collect_names`. -/
def pgCollectNames (d : SqlRDBDriver σ) (fuel : ℕ) (sql table : CStr) (max : ℕ) :
    Api σ (Option (SqlRDBResult × List CStr)) := do
  let (r, stmt) ← drv (d.prepare sql)
  if r ≠ .ok then pure (some (r, []))
  else
    let r ← drv (d.bind stmt 1 (.text table))
    if r ≠ .ok then
      let _ ← drv (d.finalize stmt)
      pure (some (r, []))
    else collectNames d stmt (pickText d stmt 0) max migMaxName fuel []

/-- The body of the loop of `read_table_info_pg`. -/
def readTableInfoPgRow (d : SqlRDBDriver σ) (stmt : StmtId) (n : ℕ) : Api σ DbCol := do
  let (_, name) ← drv (d.columnText stmt 0)
  let (_, type) ← drv (d.columnText stmt 1)
  let (_, nn) ← drv (d.columnText stmt 2)
  let nn := nn.getD []
  let notnull := 2 ≤ nn.length && (nn.head? == some 78 || nn.head? == some 110)
  pure ⟨n, copyFit migMaxName name, typeClassFromPg (copyFit 40 type), notnull, false, false⟩

/-- The query of `read_table_info_pg` for the columns. -/
def pgColumnsSql : CStr := lit ("SELECT column_name, data_type, is_nullable " ++
  "FROM information_schema.columns " ++
  "WHERE table_name = $1 AND table_schema = current_schema() " ++ "ORDER BY ordinal_position")

/-- The query for the primary key columns. -/
def pgPkSql : CStr := lit ("SELECT a.attname FROM pg_index i " ++
  "JOIN pg_attribute a ON a.attrelid = i.indrelid AND a.attnum = ANY(i.indkey) " ++
  "WHERE i.indrelid = $1::regclass AND i.indisprimary")

/-- The query for the columns with a unique constraint of their own. -/
def pgUniqueSql : CStr := lit ("SELECT a.attname FROM pg_index i " ++
  "JOIN pg_attribute a ON a.attrelid = i.indrelid AND a.attnum = ANY(i.indkey) " ++
  "WHERE i.indrelid = $1::regclass AND i.indisunique AND NOT i.indisprimary " ++
  "AND array_length(i.indkey, 1) = 1")

/-- `read_table_info_pg`. -/
def readTableInfoPg (d : SqlRDBDriver σ) (fuel : ℕ) (table : CStr) :
    Api σ (Option (SqlRDBResult × List DbCol)) := do
  let (r, stmt) ← drv (d.prepare pgColumnsSql)
  if r ≠ .ok then pure (some (r, []))
  else
    let r ← drv (d.bind stmt 1 (.text table))
    if r ≠ .ok then
      let _ ← drv (d.finalize stmt)
      pure (some (r, []))
    else
      let res ← collectCols d stmt (fun n => readTableInfoPgRow d stmt n) fuel 0 []
      match res with
      | none => pure none
      | some (r, cols) =>
        if r ≠ .ok then pure (some (r, []))
        else
          let res ← pgCollectNames d fuel pgPkSql table 64
          match res with
          | none => pure none
          | some (r, pkNames) =>
            if r ≠ .ok then pure (some (r, []))
            else
              let cols := cols.map fun c => { c with pk := c.pk || pkNames.contains c.name }
              let res ← pgCollectNames d fuel pgUniqueSql table 64
              match res with
              | none => pure none
              | some (r, uqNames) =>
                if r ≠ .ok then pure (some (r, []))
                else pure (some (.ok, cols.map fun c =>
                  { c with isUnique := c.isUnique || uqNames.contains c.name }))

/-- `read_existing`. -/
def readExisting (d : SqlRDBDriver σ) (fuel : ℕ) (table : CStr) :
    Api σ (Option (SqlRDBResult × List DbCol)) :=
  match d.dialect with
  | .postgres => readTableInfoPg d fuel table
  | .sqlite => do
    let res ← readTableInfo d fuel table
    match res with
    | none => pure none
    | some (r, cols) =>
      if r ≠ .ok then pure (some (r, []))
      else
        let res ← applyUniqueFlags d fuel table cols
        match res with
        | none => pure none
        | some (r, cols) => pure (some (r, if r ≠ .ok then [] else cols))

/-! ## Comparison -/

/-- `compare_columns`: zero, or the first aspect that differs. -/
def compareColumns (sc : SqlRDBColumnDef) (dc : DbCol) : ℕ :=
  if sc.name ≠ dc.name then 1
  else if schemaTypeClass sc.type ≠ dc.typeClass then 2
  else if (!sc.nullable) ≠ dc.notnull then 3
  else if sc.pk ≠ dc.pk then 4
  else if (sc.unique && !sc.pk) && !dc.isUnique then 5
  else 0

/-- The comparison loops: the position and kind of the first mismatch. -/
def firstDiff : ℕ → List SqlRDBColumnDef → List DbCol → Option (ℕ × ℕ)
  | i, sc :: scs, dc :: dcs =>
    if compareColumns sc dc ≠ 0 then some (i, compareColumns sc dc) else firstDiff (i + 1) scs dcs
  | _, _, _ => none

/-! ## Migration -/

/-- The ALTER TABLE loop of `c2sql_internal_migrate_table`. -/
def alterAdd (d : SqlRDBDriver σ) (schema : SqlRDBSchema) :
    List SqlRDBColumnDef → Api σ SqlRDBResult
  | [] => pure .ok
  | col :: cols => do
    let res ← qbBuild { op := .alterAdd, schema := schema, newCol := some col,
                        dialect := d.dialect }
    match res with
    | .error r => pure r
    | .ok (alterSql, _) =>
      let r ← drv (d.exec alterSql)
      if r ≠ .ok then
        errSet r (lit "Migrate: ALTER TABLE ADD COLUMN '" ++ col.name ++ lit "' failed")
        pure r
      else alterAdd d schema cols

/-- The part of `c2sql_internal_migrate_table` after the ALTER TABLE loop. -/
def revalidate (d : SqlRDBDriver σ) (fuel : ℕ) (schema : SqlRDBSchema) :
    Api σ (Option SqlRDBResult) := do
  let res ← readExisting d fuel schema.name
  match res with
  | none => pure none
  | some (r, dbCols) =>
    if r ≠ .ok then pure (some r)
    else if dbCols.length ≠ schema.cols.length then
      errSet .errSchemaMismatch (lit "Migrate: post-migration column count mismatch (" ++
        decimal dbCols.length ++ lit " vs " ++ decimal schema.cols.length ++ lit ")")
      pure (some .errSchemaMismatch)
    else match firstDiff 0 schema.cols dbCols with
      | some (i, diff) =>
        errSet .errSchemaMismatch (lit "Migrate: post-migration column " ++ decimal i ++
          lit " mismatch (kind=" ++ decimal diff ++ lit ")")
        pure (some .errSchemaMismatch)
      | none => pure (some .ok)

/-- The comparison of the existing columns with the schema, and the migration that it calls for. -/
def syncColumns (d : SqlRDBDriver σ) (fuel : ℕ) (schema : SqlRDBSchema) (dbCols : List DbCol) :
    Api σ (Option SqlRDBResult) := do
  match firstDiff 0 schema.cols dbCols with
  | some (i, diff) =>
    errSet .errSchemaMismatch (lit "Migrate: column " ++ decimal i ++ lit " of '" ++ schema.name ++
      lit "' mismatch (kind=" ++ decimal diff ++ lit ")")
    pure (some .errSchemaMismatch)
  | none =>
    if dbCols.length > schema.cols.length then
      errSet .errSchemaMismatch (lit "Migrate: '" ++ schema.name ++ lit "' has " ++
        decimal dbCols.length ++ lit " columns, schema has " ++ decimal schema.cols.length)
      pure (some .errSchemaMismatch)
    else if dbCols.length < schema.cols.length then
      let h ← get
      if !h.config.autoMigrate then
        errSet .errSchemaMismatch (lit "Migrate: '" ++ schema.name ++ lit "' missing " ++
          decimal (schema.cols.length - dbCols.length) ++
          lit " trailing column(s); set auto_migrate=true")
        pure (some .errSchemaMismatch)
      else
        let r ← alterAdd d schema (schema.cols.drop dbCols.length)
        if r ≠ .ok then pure (some r) else revalidate d fuel schema
    else pure (some .ok)

/-- `c2sql_internal_migrate_table`. -/
def internalMigrateTable (d : SqlRDBDriver σ) (fuel : ℕ) (schema : SqlRDBSchema) :
    Api σ (Option SqlRDBResult) := do
  let res ← qbBuild { op := .create, schema := schema, dialect := d.dialect }
  match res with
  | .error r => pure (some r)
  | .ok (createSql, _) =>
    let r ← drv (d.exec createSql)
    if r ≠ .ok then
      errSet r (lit "Migrate: CREATE TABLE failed for '" ++ schema.name ++ lit "'")
      pure (some r)
    else
      let res ← readExisting d fuel schema.name
      match res with
      | none => pure none
      | some (r, dbCols) =>
        if r ≠ .ok then pure (some r)
        else if dbCols.length = 0 then pure (some .errInternal)
        else
          let strict ← match d.dialect with
            | .postgres => pure (some true)
            | .sqlite => checkStrict d schema.name
          match strict with
          | none => pure none
          | some isStrict =>
            let h ← get
            if !isStrict && h.config.requireStrict then
              errSet .errSchemaMismatch (lit "Migrate: '" ++ schema.name ++
                lit "' is non-STRICT but require_strict=true")
              pure (some .errSchemaMismatch)
            else
              if !isStrict then internalLog .ok (lit "Migrate: table is non-STRICT (allowed)")
              syncColumns d fuel schema dbCols

end C2Sql
