import C2Sql.SchemaRegistry

/-!
# The specification tool

`tools/c2sql_spec.py`: the validation of a schema specification, and the columns that are derived
from it. A specification is a value that `json.load` returns (`Json`), and a string of the tool is
the list of its code points (`PyStr`).

The messages of the tool are values of `Issue`, each with the location that it names and the value
that it shows.
-/

namespace C2Sql

/-! ## Values -/

/-- A string: its code points. -/
abbrev PyStr := List ℕ

/-- The code points of a literal. -/
def py (s : String) : PyStr := s.toList.map Char.toNat

/-- What `json.load` returns; a floating-point number is its bits. -/
inductive Json
  | null
  | bool (b : Bool)
  | int (n : ℤ)
  | float (bits : BitVec 64)
  | str (s : PyStr)
  | arr (items : List Json)
  | obj (members : List (PyStr × Json))

namespace Json

/-- `bool(value)`. -/
def truthy : Json → Bool
  | null => false
  | bool b => b
  | int n => n != 0
  | float bits => bits <<< 1 != 0
  | str s => !s.isEmpty
  | arr items => !items.isEmpty
  | obj members => !members.isEmpty

/-- Whether a value can be looked up in a set. -/
def hashable : Json → Bool
  | arr _ => false
  | obj _ => false
  | _ => true

/-- `isinstance(value, int) and not isinstance(value, bool) and value >= 1`. -/
def positive : Json → Bool
  | int n => 1 ≤ n
  | _ => false

/-- `value in words`, for a hashable value. -/
def isOneOf (words : List PyStr) : Json → Bool
  | str s => words.contains s
  | _ => false

end Json

/-- `members.get(key)` for a key that is there. -/
def member (members : List (PyStr × Json)) (key : String) : Option Json :=
  (members.find? fun m => m.1 == py key).map Prod.snd

/-- `members.get(key)`. -/
def getKey (members : List (PyStr × Json)) (key : String) : Json :=
  (member members key).getD .null

/-! ## Constants -/

/-- `MAX_IDENT_LEN` of the tool. -/
def toolMaxIdentLen : ℕ := 128

/-- `MAX_COLUMNS`. -/
def toolMaxColumns : ℕ := 64

/-- `RESERVED_WORDS` of the tool. -/
def toolReservedWords : List PyStr := [
  "select", "insert", "update", "delete", "from", "where", "table",
  "index", "key", "primary", "unique", "rows", "row", "order", "group",
  "by", "join", "into", "values", "create", "drop", "alter", "and", "or",
  "not", "null", "default", "check", "foreign", "references", "begin",
  "commit", "rollback", "savepoint", "transaction"].map py

/-- `VAR_SIZED_TYPES`. -/
def varSizedTypes : List PyStr := ["text", "blob"].map py

/-- `SCALAR_TYPES`. -/
def scalarTypes : List PyStr := ["int32", "int64", "real"].map py

/-- `VALID_TYPES`. -/
def validTypes : List PyStr := ["int32", "int64", "real", "text", "blob"].map py

/-- `SUPPORTED_BACKENDS`. -/
def supportedBackends : List PyStr := ["sqlite3"].map py

/-- `TOP_LEVEL_KEYS`. -/
def topLevelKeys : List PyStr := [
  "schema_version", "struct_name", "c_struct", "backend",
  "max_records", "enforce_max_records", "fields"].map py

/-- `FIELD_KEYS`. -/
def fieldKeys : List PyStr := ["name", "type", "size", "primary_key", "nullable", "unique"].map py

/-! ## Identifiers -/

/-- `[A-Za-z_]`. -/
def headPoint (c : ℕ) : Bool := (65 ≤ c && c ≤ 90) || (97 ≤ c && c ≤ 122) || c == 95

/-- `[A-Za-z0-9_]`. -/
def wordPoint (c : ℕ) : Bool := headPoint c || (48 ≤ c && c ≤ 57)

/-- `[A-Za-z0-9_]*$`; a `$` also matches before a newline that ends the string. -/
def identTail : PyStr → Bool
  | [] => true
  | c :: cs => (c == 10 && cs.isEmpty) || (wordPoint c && identTail cs)

/-- `IDENT_RE.match`. -/
def identRe : PyStr → Bool
  | [] => false
  | c :: cs => headPoint c && identTail cs

/-- `str.lower` on ASCII. -/
def lower (s : PyStr) : PyStr := s.map fun c => if 65 ≤ c && c ≤ 90 then c + 32 else c

/-! ## Validation -/

/-- The messages. -/
inductive Issue
  | notObject
  | unknownKeys (keys : List PyStr)
  | schemaVersion
  | enforceNotBool
  | notIdent (label : PyStr) (value : Json)
  | tooLong (label : PyStr) (value : PyStr)
  | reserved (label : PyStr) (value : PyStr)
  | backend (value : Json)
  | maxRecords (value : Json)
  | noFields
  | tooManyColumns (n : ℕ)
  | fieldNotObject (loc : PyStr)
  | unknownFieldKeys (loc : PyStr) (keys : List PyStr)
  | duplicateName (loc : PyStr) (name : PyStr)
  | badType (loc : PyStr) (value : Json)
  | sizeRequired (loc : PyStr) (type : PyStr) (value : Json)
  | sizeForbidden (loc : PyStr) (type : PyStr)
  | nullableKey (loc : PyStr)
  | blobKey (loc : PyStr)
  | manyKeys (n : ℕ)

/-- What `validate` raises: `SpecError`, or `TypeError` for a value that no set can hold. -/
inductive Raised
  | specError (errors : List Issue)
  | typeError

/-- The message `issue`, if `bad` holds. -/
def check (bad : Bool) (issue : Issue) : List Issue := if bad then [issue] else []

/-- `_check_ident`. -/
def checkIdent (value : Json) (label : PyStr) : List Issue :=
  match value with
  | .str s =>
    if identRe s then
      check (s.length > toolMaxIdentLen) (.tooLong label s) ++
      check (toolReservedWords.contains (lower s)) (.reserved label s)
    else [.notIdent label value]
  | _ => [.notIdent label value]

/-- `set(members) - keys`. -/
def unknownMembers (members : List (PyStr × Json)) (keys : List PyStr) : List PyStr :=
  (members.map Prod.fst).filter fun k => !keys.contains k

/-- `fields[i]`. -/
def fieldLoc (i : ℕ) : PyStr := py "fields[" ++ (decimal i).map UInt8.toNat ++ py "]"

/-- The check of a field's `name` against the names before it. -/
def checkName (loc : PyStr) (seen : List PyStr) (name : Json) : List Issue × List PyStr :=
  match name with
  | .str s => (check (seen.contains s) (.duplicateName (loc ++ py ".name") s), s :: seen)
  | _ => ([], seen)

/-- The check of a field's `type`, and of the `size` that it calls for. -/
def checkType (loc : PyStr) (f : List (PyStr × Json)) : List Issue :=
  match getKey f "type" with
  | .str t =>
    if !validTypes.contains t then [.badType (loc ++ py ".type") (.str t)]
    else if varSizedTypes.contains t then
      check (!(getKey f "size").positive) (.sizeRequired loc t (getKey f "size"))
    else check (scalarTypes.contains t && (member f "size").isSome) (.sizeForbidden loc t)
  | v => [.badType (loc ++ py ".type") v]

/-- The checks of a primary key column. -/
def checkKey (enforce : Bool) (loc : PyStr) (f : List (PyStr × Json)) : List Issue :=
  if (getKey f "primary_key").truthy then
    check (getKey f "nullable").truthy (.nullableKey loc) ++
    check (enforce && (getKey f "type").isOneOf [py "blob"]) (.blobKey loc)
  else []

/-- One round of the loop over the fields: the messages, the names seen so far, and whether the
field is a primary key. -/
def checkField (enforce : Bool) (i : ℕ) (seen : List PyStr) (field : Json) :
    Except Raised (List Issue × List PyStr × Bool) :=
  match field with
  | .obj f =>
    let loc := fieldLoc i
    let unknown := unknownMembers f fieldKeys
    let (dup, seen) := checkName loc seen (getKey f "name")
    if !(getKey f "type").hashable then .error .typeError
    else .ok (check (!unknown.isEmpty) (.unknownFieldKeys loc unknown) ++
      checkIdent (getKey f "name") (loc ++ py ".name") ++ dup ++ checkType loc f ++
      checkKey enforce loc f, seen, (getKey f "primary_key").truthy)
  | _ => .ok ([.fieldNotObject (fieldLoc i)], seen, false)

/-- The loop over the fields, from the `i`-th on: the messages and `pk_count`. -/
def checkFields (enforce : Bool) : ℕ → List PyStr → List Json → Except Raised (List Issue × ℕ)
  | _, _, [] => .ok ([], 0)
  | i, seen, field :: fields => do
    let (errors, seen, isKey) ← checkField enforce i seen field
    let (rest, n) ← checkFields enforce (i + 1) seen fields
    pure (errors ++ rest, (if isKey then 1 else 0) + n)

/-- The checks of `validate` before the loop. -/
def checkHead (spec : List (PyStr × Json)) : List Issue :=
  let unknown := unknownMembers spec topLevelKeys
  check (!unknown.isEmpty) (.unknownKeys unknown) ++
  check (!(getKey spec "schema_version").isOneOf [py "1.0"]) .schemaVersion ++
  (match member spec "enforce_max_records" with
    | none => []
    | some (.bool _) => []
    | some _ => [.enforceNotBool]) ++
  checkIdent (getKey spec "struct_name") (py "struct_name") ++
  (if (member spec "c_struct").isSome then checkIdent (getKey spec "c_struct") (py "c_struct")
    else []) ++
  check (!(getKey spec "backend").isOneOf supportedBackends) (.backend (getKey spec "backend")) ++
  check (!(getKey spec "max_records").positive) (.maxRecords (getKey spec "max_records"))

/-- `validate`. -/
def validate (spec : Json) : Except Raised Unit :=
  match spec with
  | .obj spec =>
    if !(getKey spec "backend").hashable then .error .typeError
    else match getKey spec "fields" with
      | .arr (field :: fields) => do
        let n := (field :: fields).length
        let enforce := (getKey spec "enforce_max_records").truthy
        let (errors, keys) ← checkFields enforce 0 [] (field :: fields)
        let errors := checkHead spec ++ check (n > toolMaxColumns) (.tooManyColumns n) ++ errors ++
          check (keys > 1) (.manyKeys keys)
        if errors.isEmpty then pure () else .error (.specError errors)
      | _ => .error (.specError (checkHead spec ++ [.noFields]))
  | _ => .error (.specError [.notObject])

/-! ## Derivation -/

/-- The UTF-8 bytes of a code point. -/
def utf8 (c : ℕ) : List UInt8 :=
  (if c < 0x80 then [c]
    else if c < 0x800 then [0xC0 + c / 64, 0x80 + c % 64]
    else if c < 0x10000 then [0xE0 + c / 4096, 0x80 + c / 64 % 64, 0x80 + c % 64]
    else [0xF0 + c / 262144, 0x80 + c / 4096 % 64, 0x80 + c / 64 % 64, 0x80 + c % 64]).map
    UInt8.ofNat

/-- A string in the generated C text. -/
def encode (s : PyStr) : CStr := s.flatMap utf8

/-- The `sql_type` of `TYPE_INFO`. -/
def sqlType (t : PyStr) : Option SqlRDBType :=
  if t = py "int32" then some .int32
  else if t = py "int64" then some .int64
  else if t = py "real" then some .real
  else if t = py "text" then some .text
  else if t = py "blob" then some .blob
  else none

/-- The size of the member that is generated for a column. -/
def memberSize (type : SqlRDBType) (size : Json) : ℕ :=
  match type, size with
  | .int32, _ => 4
  | .int64, _ => 8
  | .real, _ => 8
  | _, .int n => n.toNat
  | _, _ => 0

/-- The flags of a column. -/
def fieldFlags (f : List (PyStr × Json)) : UInt32 :=
  (if (getKey f "primary_key").truthy then flagPrimaryKey else 0) |||
  (if (getKey f "nullable").truthy then flagNullable else 0) |||
  (if (getKey f "unique").truthy then flagUnique else 0)

/-- The column that `derive` makes of a field, with its offset in the generated struct; `none` for a
`KeyError`. -/
def deriveColumn (offset : ℕ) (field : Json) : Option SqlRDBColumnDef :=
  match field with
  | .obj f => do
    let .str t ← member f "type" | none
    let type ← sqlType t
    let .str name ← member f "name" | none
    some ⟨encode name, type, offset, memberSize type (getKey f "size"), fieldFlags f⟩
  | _ => none

/-- The struct name and the columns that `derive` makes of a specification, with the offsets that
the C compiler gives to the members. -/
def derive (offset : ℕ → ℕ) (spec : Json) : Option (CStr × List SqlRDBColumnDef) :=
  match spec with
  | .obj spec => do
    let .str name ← member spec "struct_name" | none
    let .arr fields ← member spec "fields" | none
    let cols ← fields.zipIdx.mapM fun p => deriveColumn (offset p.2) p.1
    some (encode name, cols)
  | _ => none

end C2Sql
