import C2Sql.Condition

/-!
# The query builder

`query_builder.c`: from a schema and an optional condition, the text of a statement and the number
of its placeholders. A function of the source that appends to the buffer is here the text it
appends; `bind_count` is passed through. Allocation is taken to succeed, and is accounted for by
the callers.
-/

namespace C2Sql

/-- `C2SqlQBOp`. -/
inductive C2SqlQBOp
  | create
  | insert
  | upsert
  | select
  | count
  | delete
  | alterAdd
  | updateField
  | selectField
  deriving DecidableEq, Repr

/-- `SqlRDBQuerySpec`; the pointers that may be NULL are options. -/
structure SqlRDBQuerySpec where
  op : C2SqlQBOp
  schema : SqlRDBSchema
  cond : Option SqlRDBCondition := none
  newCol : Option SqlRDBColumnDef := none
  targetCol : Option CStr := none
  dialect : C2SqlDialect

/-! ## Type, operator and placeholder text -/

/-- `type_to_sql_str`. -/
def typeToSqlStr : SqlRDBType → C2SqlDialect → CStr
  | .int32, .postgres => lit "INTEGER"
  | .int64, .postgres => lit "BIGINT"
  | .real, .postgres => lit "DOUBLE PRECISION"
  | .text, .postgres => lit "TEXT"
  | .blob, .postgres => lit "BYTEA"
  | .other _, .postgres => lit "TEXT"
  | .int32, .sqlite => lit "INTEGER"
  | .int64, .sqlite => lit "INTEGER"
  | .real, .sqlite => lit "REAL"
  | .text, .sqlite => lit "TEXT"
  | .blob, .sqlite => lit "BLOB"
  | .other _, .sqlite => lit "ANY"

/-- The text of `append_placeholder` for the already incremented count `n`: `?`, or `$n` as far as
the 16-byte buffer of its `snprintf` goes. -/
def placeholder : C2SqlDialect → ℕ → CStr
  | .postgres, n => (lit "$" ++ decimal n).take 15
  | .sqlite, _ => lit "?"

/-- `append_placeholder`. -/
def appendPlaceholder (d : C2SqlDialect) (bindCount : ℕ) : CStr × ℕ :=
  (placeholder d (bindCount + 1), bindCount + 1)

/-- `op_to_sql_str`. -/
def opToSqlStr : SqlRDBOp → CStr
  | .eq => lit "="
  | .ne => lit "!="
  | .lt => lit "<"
  | .le => lit "<="
  | .gt => lit ">"
  | .ge => lit ">="
  | .other _ => lit "="

/-- `append_col_constraints`. -/
def appendColConstraints (col : SqlRDBColumnDef) : CStr :=
  (if !col.nullable then lit " NOT NULL" else []) ++
  (if col.pk then lit " PRIMARY KEY" else []) ++
  (if col.unique && !col.pk then lit " UNIQUE" else [])

/-! ## Conditions -/

/-- `schema_has_column`. -/
def schemaHasColumn (s : SqlRDBSchema) (col : CStr) : Bool := s.cols.any fun c => c.name == col

/-- `validate_cond_columns`. -/
def validateCondColumns (s : SqlRDBSchema) : SqlRDBCondition → SqlRDBResult
  | .all => .ok
  | .leaf col _ _ => if schemaHasColumn s col then .ok else .errUnknownColumn
  | .and l r | .or l r =>
    let res := validateCondColumns s l
    if res ≠ .ok then res else validateCondColumns s r

/-- `append_cond`. -/
def appendCond (d : C2SqlDialect) : SqlRDBCondition → ℕ → CStr × ℕ
  | .all, n => ([], n)
  | .leaf col op _, n =>
    let (p, n) := appendPlaceholder d n
    (lit "\"" ++ col ++ lit "\" " ++ opToSqlStr op ++ lit " " ++ p, n)
  | .and l r, n =>
    let (a, n) := appendCond d l n
    let (b, n) := appendCond d r n
    (lit "(" ++ a ++ lit " AND " ++ b ++ lit ")", n)
  | .or l r, n =>
    let (a, n) := appendCond d l n
    let (b, n) := appendCond d r n
    (lit "(" ++ a ++ lit " OR " ++ b ++ lit ")", n)

/-- `cond_needs_where`. -/
def condNeedsWhere : Option SqlRDBCondition → Bool
  | none => false
  | some .all => false
  | some _ => true

/-- The tail that the five condition-taking builders share: validate the columns, then append
` WHERE ` and the condition. -/
def appendWhere (s : SqlRDBSchema) (d : C2SqlDialect) (cond : Option SqlRDBCondition)
    (text : CStr) (n : ℕ) : Except SqlRDBResult (CStr × ℕ) :=
  match cond with
  | none => .ok (text, n)
  | some c =>
    if condNeedsWhere (some c) then
      match validateCondColumns s c with
      | .ok =>
        let (w, n) := appendCond d c n
        .ok (text ++ lit " WHERE " ++ w, n)
      | r => .error r
    else .ok (text, n)

/-! ## Builders -/

/-- The loops that append a `,` before every element but the first. -/
def commaSep : List CStr → CStr
  | [] => []
  | [x] => x
  | x :: xs => x ++ lit "," ++ commaSep xs

/-- A name between double quotes. -/
def quoted (name : CStr) : CStr := lit "\"" ++ name ++ lit "\""

/-- `build_create`. -/
def buildCreate (s : SqlRDBSchema) (d : C2SqlDialect) : CStr :=
  lit "CREATE TABLE IF NOT EXISTS \"" ++ s.name ++ lit "\" (" ++
  commaSep (s.cols.map fun c =>
    lit "\"" ++ c.name ++ lit "\" " ++ typeToSqlStr c.type d ++ appendColConstraints c) ++
  match d with
  | .postgres => lit ")"
  | .sqlite => lit ") STRICT"

/-- `build_alter_add`. -/
def buildAlterAdd (s : SqlRDBSchema) (d : C2SqlDialect) (col : SqlRDBColumnDef) : CStr :=
  lit "ALTER TABLE \"" ++ s.name ++ lit "\" ADD COLUMN \"" ++ col.name ++ lit "\" " ++
  typeToSqlStr col.type d ++ appendColConstraints col

/-- The `k` placeholders of a VALUES list, from the count `n`. -/
def appendPlaceholders (d : C2SqlDialect) : ℕ → ℕ → List CStr × ℕ
  | 0, n => ([], n)
  | k + 1, n =>
    let (p, n) := appendPlaceholder d n
    let (ps, n) := appendPlaceholders d k n
    (p :: ps, n)

/-- `build_insert`. -/
def buildInsert (s : SqlRDBSchema) (d : C2SqlDialect) (n : ℕ) : CStr × ℕ :=
  let (ps, n) := appendPlaceholders d s.cols.length n
  (lit "INSERT INTO \"" ++ s.name ++ lit "\" (" ++ commaSep (s.cols.map fun c => quoted c.name) ++
    lit ") VALUES (" ++ commaSep ps ++ lit ")", n)

/-- The columns of the `DO UPDATE SET` list: all but the one at `pk_index`. -/
def nonPkCols (s : SqlRDBSchema) : List SqlRDBColumnDef :=
  (s.cols.zipIdx.filter fun p => some p.2 ≠ s.pkIndex).map Prod.fst

/-- The name at `pk_index`; its callers make sure that there is one. -/
def pkName (s : SqlRDBSchema) : CStr :=
  ((s.pkIndex.bind fun i => s.cols[i]?).map fun c => c.name).getD []

/-- `build_upsert`. -/
def buildUpsert (s : SqlRDBSchema) (d : C2SqlDialect) (n : ℕ) : CStr × ℕ :=
  let (text, n) := buildInsert s d n
  (text ++ lit " ON CONFLICT(\"" ++ pkName s ++ lit "\") DO UPDATE SET " ++
    commaSep ((nonPkCols s).map fun c =>
      lit "\"" ++ c.name ++ lit "\"=excluded.\"" ++ c.name ++ lit "\""), n)

/-- `build_select`. -/
def buildSelect (s : SqlRDBSchema) (d : C2SqlDialect) (cond : Option SqlRDBCondition) (n : ℕ) :
    Except SqlRDBResult (CStr × ℕ) :=
  appendWhere s d cond (lit "SELECT " ++ commaSep (s.cols.map fun c => quoted c.name) ++
    lit " FROM \"" ++ s.name ++ lit "\"") n

/-- `build_count`. -/
def buildCount (s : SqlRDBSchema) (d : C2SqlDialect) (cond : Option SqlRDBCondition) (n : ℕ) :
    Except SqlRDBResult (CStr × ℕ) :=
  appendWhere s d cond (lit "SELECT COUNT(*) FROM \"" ++ s.name ++ lit "\"") n

/-- `build_update_field`. -/
def buildUpdateField (s : SqlRDBSchema) (d : C2SqlDialect) (cond : Option SqlRDBCondition)
    (col : CStr) (n : ℕ) : Except SqlRDBResult (CStr × ℕ) :=
  if !schemaHasColumn s col then .error .errUnknownColumn
  else
    let (p, n) := appendPlaceholder d n
    appendWhere s d cond
      (lit "UPDATE \"" ++ s.name ++ lit "\" SET \"" ++ col ++ lit "\"=" ++ p) n

/-- `build_select_field`. -/
def buildSelectField (s : SqlRDBSchema) (d : C2SqlDialect) (cond : Option SqlRDBCondition)
    (col : CStr) (n : ℕ) : Except SqlRDBResult (CStr × ℕ) :=
  if !schemaHasColumn s col then .error .errUnknownColumn
  else
    appendWhere s d cond (lit "SELECT \"" ++ col ++ lit "\" FROM \"" ++ s.name ++ lit "\"") n

/-- `build_delete`. -/
def buildDelete (s : SqlRDBSchema) (d : C2SqlDialect) (cond : Option SqlRDBCondition) (n : ℕ) :
    Except SqlRDBResult (CStr × ℕ) :=
  appendWhere s d cond (lit "DELETE FROM \"" ++ s.name ++ lit "\"") n

/-- `c2sql_internal_qb_build`: the text and `*out_bind_count`, or the error code. -/
def internalQbBuild (spec : SqlRDBQuerySpec) : Except SqlRDBResult (CStr × ℕ) :=
  match spec.op with
  | .create => .ok (buildCreate spec.schema spec.dialect, 0)
  | .alterAdd =>
    match spec.newCol with
    | none => .error .errInvalidArg
    | some col => .ok (buildAlterAdd spec.schema spec.dialect col, 0)
  | .insert => .ok (buildInsert spec.schema spec.dialect 0)
  | .upsert => .ok (buildUpsert spec.schema spec.dialect 0)
  | .select => buildSelect spec.schema spec.dialect spec.cond 0
  | .count => buildCount spec.schema spec.dialect spec.cond 0
  | .delete => buildDelete spec.schema spec.dialect spec.cond 0
  | .updateField =>
    match spec.targetCol with
    | none => .error .errInvalidArg
    | some col => buildUpdateField spec.schema spec.dialect spec.cond col 0
  | .selectField =>
    match spec.targetCol with
    | none => .error .errInvalidArg
    | some col => buildSelectField spec.schema spec.dialect spec.cond col 0

end C2Sql
