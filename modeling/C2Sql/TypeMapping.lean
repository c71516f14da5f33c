import C2Sql.Handle

/-!
# Struct members and statement columns

`type_mapping.c` and the NULL bitmap of `type_mapping.h`. A struct that is read from is a map from
byte offsets (`Mem`); one that is written to is a `Buffer`, which also has a size and remembers
whether a store went past it. Integers are stored with their least significant byte first.
-/

namespace C2Sql

/-! ## Memory -/

/-- Bytes at offsets from a pointer. -/
abbrev Mem := ℕ → UInt8

/-- `n` bytes from offset `off` on. -/
def Mem.read (m : Mem) (off n : ℕ) : List UInt8 := (List.range n).map fun i => m (off + i)

/-- Memory that is written to. -/
structure Buffer where
  size : ℕ
  data : Mem
  /-- Some store had an offset at or above `size`. -/
  overrun : Bool

/-- `memcpy(base + off, bytes, n)`. -/
def Buffer.write (b : Buffer) (off : ℕ) (bytes : List UInt8) : Buffer where
  size := b.size
  data := fun i => if off ≤ i then (bytes[i - off]?).getD (b.data i) else b.data i
  overrun := b.overrun || (bytes ≠ [] && b.size < off + bytes.length)

/-- The bytes of a word. -/
def bytesOf {w : ℕ} (v : BitVec w) (n : ℕ) : List UInt8 :=
  (List.range n).map fun i => UInt8.ofBitVec ((v >>> (8 * i)).setWidth 8)

/-- The word that bytes stand for. -/
def ofBytes (w : ℕ) (bytes : List UInt8) : BitVec w :=
  bytes.foldr (fun b v => (v <<< 8) ||| b.toBitVec.setWidth w) 0

/-! ## The NULL bitmap -/

/-- `c2sql_internal_null_bit_get`. -/
def nullBitGet (map : Option Mem) (i : ℕ) : Bool :=
  match map with
  | none => false
  | some m => (m (i / 8)).toNat.testBit (i % 8)

/-- `c2sql_internal_null_bit_set`. -/
def nullBitSet (map : Option Mem) (i : ℕ) : Option Mem :=
  map.map fun m => Function.update m (i / 8) (m (i / 8) ||| UInt8.ofNat (1 <<< (i % 8)))

/-- `SQL_RDB_NULL_BITMAP_BYTES`. -/
def nullBitmapBytes (colCount : ℕ) : ℕ := (colCount + 7) / 8

/-! ## Binding a row -/

/-- `INT_MAX`. -/
def intMax : ℕ := 2 ^ 31 - 1

/-- `bounded_strlen`. -/
def boundedStrlen (m : Mem) (off maxlen : ℕ) : ℕ :=
  ((m.read off maxlen).takeWhile fun c => c ≠ 0).length

/-- The value that `bind_one` binds for a column, or its error for a type outside the
enumeration. -/
def boundValue (col : SqlRDBColumnDef) (row : Mem) : Option SqlValue :=
  match col.type with
  | .int32 => some (.int ((ofBytes 32 (row.read col.offset 4)).signExtend 64))
  | .int64 => some (.int (ofBytes 64 (row.read col.offset 8)))
  | .real => some (.real (ofBytes 64 (row.read col.offset 8)))
  | .text => some (.text (row.read col.offset (min (boundedStrlen row col.offset col.size) intMax)))
  | .blob => some (.blob (row.read col.offset col.size))
  | .other _ => none

variable {σ : Type}

/-- `bind_one`. -/
def bindOne (d : SqlRDBDriver σ) (stmt : StmtId) (bindIdx : ℤ) (col : SqlRDBColumnDef)
    (row : Mem) : StateM σ SqlRDBResult :=
  match boundValue col row with
  | some v => d.bind stmt bindIdx v
  | none => pure .errInternal

/-- The loop of `c2sql_internal_tm_bind_row`, from the `i`-th column on. -/
def bindRowFrom (d : SqlRDBDriver σ) (stmt : StmtId) (row : Mem) (nullMap : Option Mem) :
    ℕ → List SqlRDBColumnDef → StateM σ SqlRDBResult
  | _, [] => pure .ok
  | i, col :: cols =>
    if nullBitGet nullMap i then
      if !col.nullable then pure .errNotNullViolation
      else do
        let r ← d.bind stmt (i + 1 : ℕ) .null
        if r ≠ .ok then pure r else bindRowFrom d stmt row nullMap (i + 1) cols
    else do
      let r ← bindOne d stmt (i + 1 : ℕ) col row
      if r ≠ .ok then pure r else bindRowFrom d stmt row nullMap (i + 1) cols

/-- `c2sql_internal_tm_bind_row`. -/
def internalTmBindRow (d : SqlRDBDriver σ) (stmt : StmtId) (schema : SqlRDBSchema) (row : Mem)
    (nullMap : Option Mem) : StateM σ SqlRDBResult :=
  bindRowFrom d stmt row nullMap 0 schema.cols

/-! ## Reading a row -/

/-- `read_one`. -/
def readOne (d : SqlRDBDriver σ) (stmt : StmtId) (i : ℕ) (col : SqlRDBColumnDef) (row : Buffer) :
    StateM σ (SqlRDBResult × Buffer) :=
  match col.type with
  | .int32 => do
    let (r, v) ← d.columnInt64 stmt i
    if r ≠ .ok then pure (r, row)
    else
      let truncated := v.toInt < -2 ^ 31 ∨ v.toInt > 2 ^ 31 - 1
      pure (if truncated then .warnTruncated else .ok,
        row.write col.offset (bytesOf (v.setWidth 32) 4))
  | .int64 => do
    let (r, v) ← d.columnInt64 stmt i
    if r ≠ .ok then pure (r, row) else pure (.ok, row.write col.offset (bytesOf v 8))
  | .real => do
    let (r, v) ← d.columnReal stmt i
    if r ≠ .ok then pure (r, row) else pure (.ok, row.write col.offset (bytesOf v 8))
  | .text => do
    let (r, p) ← d.columnText stmt i
    if r ≠ .ok then pure (r, row)
    else if col.size = 0 then pure (.warnTruncated, row)
    else
      let bytes := p.getD []
      let maxlen := col.size - 1
      let toCopy := min bytes.length maxlen
      let row := (row.write col.offset (bytes.take toCopy)).write (col.offset + toCopy) [0]
      pure (if bytes.length > maxlen then .warnTruncated else .ok, row)
  | .blob => do
    let (r, p) ← d.columnBlob stmt i
    if r ≠ .ok then pure (r, row)
    else
      let bytes := p.getD []
      let toCopy := min bytes.length col.size
      pure (if bytes.length > col.size then .warnTruncated else .ok,
        row.write col.offset (bytes.take toCopy))
  | .other _ => pure (.errInternal, row)

/-- The loop of `c2sql_internal_tm_read_row`, from the `i`-th column on. -/
def readRowFrom (d : SqlRDBDriver σ) (stmt : StmtId) :
    ℕ → List SqlRDBColumnDef → Bool → Buffer → Option Mem →
      StateM σ (SqlRDBResult × Buffer × Option Mem)
  | _, [], anyTruncated, row, nullMap =>
    pure (if anyTruncated then .warnTruncated else .ok, row, nullMap)
  | i, col :: cols, anyTruncated, row, nullMap => do
    let (r, isNull) ← d.columnIsnull stmt i
    if r ≠ .ok then pure (r, row, nullMap)
    else if isNull then
      readRowFrom d stmt (i + 1) cols anyTruncated row (nullBitSet nullMap i)
    else
      let (r, row) ← readOne d stmt i col row
      if r = .warnTruncated then readRowFrom d stmt (i + 1) cols true row nullMap
      else if r ≠ .ok then pure (r, row, nullMap)
      else readRowFrom d stmt (i + 1) cols anyTruncated row nullMap

/-- `c2sql_internal_tm_read_row`: the result code, `out_row` and `out_null_map`. -/
def internalTmReadRow (d : SqlRDBDriver σ) (stmt : StmtId) (schema : SqlRDBSchema)
    (outRow : Buffer) (outNullMap : Option Mem) :
    StateM σ (SqlRDBResult × Buffer × Option Mem) :=
  readRowFrom d stmt 0 schema.cols false outRow outNullMap

end C2Sql
