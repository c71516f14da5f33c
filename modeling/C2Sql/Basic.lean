import C2Sql.Lib.SqlLexer

/-!
# The public data model

The types of `c2sql.h`: result codes, column types and flags, comparison operators, column
definitions, configuration; the values a driver binds and returns; and byte strings.

A C string is the list of its bytes before the terminating NUL (`CStr`). A C enumeration that the
library never range-checks keeps a constructor `other` for the values outside it, since the code
has a branch for those.
-/

namespace C2Sql

/-! ## Byte strings -/

/-- A NUL-terminated string: the bytes before the NUL. -/
abbrev CStr := List UInt8

/-- The bytes of an ASCII literal. -/
def lit (s : String) : CStr := s.toList.map fun c => UInt8.ofNat c.toNat

/-- `snprintf` of `%zu` and `%d` on a natural number. -/
abbrev decimal (n : ℕ) : CStr := SqlText.decimalBytes n

/-! ## Result codes -/

/-- `SqlRDBResult`. -/
inductive SqlRDBResult
  | ok
  | warnTruncated
  | errInvalidArg
  | errInvalidHandle
  | errInvalidName
  | errDbOpen
  | errNoMemory
  | errDuplicateSchema
  | errDuplicateColumn
  | errTooManyColumns
  | errUnknownStruct
  | errUnknownColumn
  | errSchemaMismatch
  | errNotFound
  | errMultipleRows
  | errNotNullViolation
  | errCapacityExceeded
  | errNoActiveTx
  | errNestedTx
  | errDriver
  | errInternal
  deriving DecidableEq, Repr

/-- The value of a result code in the enumeration. -/
def SqlRDBResult.code : SqlRDBResult → ℤ
  | ok => 0
  | warnTruncated => 1
  | errInvalidArg => -1
  | errInvalidHandle => -2
  | errInvalidName => -3
  | errDbOpen => -10
  | errNoMemory => -11
  | errDuplicateSchema => -20
  | errDuplicateColumn => -21
  | errTooManyColumns => -22
  | errUnknownStruct => -23
  | errUnknownColumn => -24
  | errSchemaMismatch => -25
  | errNotFound => -30
  | errMultipleRows => -31
  | errNotNullViolation => -32
  | errCapacityExceeded => -33
  | errNoActiveTx => -40
  | errNestedTx => -41
  | errDriver => -50
  | errInternal => -99

/-! ## Columns, operators, configuration -/

/-- `SqlRDBType`; `other` is a value outside the enumeration, which registration accepts. -/
inductive SqlRDBType
  | int32
  | int64
  | real
  | text
  | blob
  | other (v : ℤ)
  deriving DecidableEq, Repr

/-- `SqlRDBOp`; the constructors of conditions cast any `int` to it. -/
inductive SqlRDBOp
  | eq
  | ne
  | lt
  | le
  | gt
  | ge
  | other (v : ℤ)
  deriving DecidableEq, Repr

/-- `SQL_COL_FLAG_PRIMARY_KEY`. -/
def flagPrimaryKey : UInt32 := 1

/-- `SQL_COL_FLAG_NULLABLE`. -/
def flagNullable : UInt32 := 2

/-- `SQL_COL_FLAG_UNIQUE`. -/
def flagUnique : UInt32 := 4

/-- `SqlRDBColumnDef`. -/
structure SqlRDBColumnDef where
  name : CStr
  type : SqlRDBType
  offset : ℕ
  size : ℕ
  flags : UInt32
  deriving DecidableEq, Repr

namespace SqlRDBColumnDef

/-- `flags & SQL_COL_FLAG_NULLABLE`. -/
def nullable (c : SqlRDBColumnDef) : Bool := c.flags &&& flagNullable != 0

/-- `flags & SQL_COL_FLAG_PRIMARY_KEY`. -/
def pk (c : SqlRDBColumnDef) : Bool := c.flags &&& flagPrimaryKey != 0

/-- `flags & SQL_COL_FLAG_UNIQUE`. -/
def unique (c : SqlRDBColumnDef) : Bool := c.flags &&& flagUnique != 0

end SqlRDBColumnDef

/-- `SqlRDBSchema`; `pkIndex` is `none` where the source has `-1`. -/
structure SqlRDBSchema where
  name : CStr
  cols : List SqlRDBColumnDef
  pkIndex : Option ℕ
  deriving DecidableEq, Repr

/-- `SqlRDBConfig`. -/
structure SqlRDBConfig where
  threadsafe : Bool
  stmtCacheSize : ℕ
  autoMigrate : Bool
  multirowDefault : ℤ
  requireStrict : Bool
  deriving DecidableEq, Repr

/-- `DEFAULT_CONFIG`. -/
def defaultConfig : SqlRDBConfig where
  threadsafe := true
  stmtCacheSize := 64
  autoMigrate := false
  multirowDefault := 0
  requireStrict := false

/-- `SqlRDBReadOpts`. The library never reads `max_text_len`. -/
structure SqlRDBReadOpts where
  allowMulti : Bool
  deriving DecidableEq, Repr

/-- `C2SqlDialect`. -/
inductive C2SqlDialect
  | sqlite
  | postgres
  deriving DecidableEq, Repr

/-! ## Values -/

/-- The values that cross the driver interface. Integers are 64-bit words, reals their bits. -/
inductive SqlValue
  | null
  | int (v : BitVec 64)
  | real (bits : BitVec 64)
  | text (s : List UInt8)
  | blob (b : List UInt8)
  deriving DecidableEq, Repr

/-! ## Real numbers -/

/-- The bits without the sign. -/
def magnitude (x : BitVec 64) : BitVec 64 := x &&& 0x7FFFFFFFFFFFFFFF#64

/-- The bits of a NaN. -/
def isNaN (x : BitVec 64) : Bool := decide (0x7FF0000000000000#64 < magnitude x)

/-- The bits of a zero, with either sign. -/
def isZero (x : BitVec 64) : Bool := magnitude x == 0

/-- The same number: a zero with either sign, and any NaN, is one value. -/
def SameReal (x y : BitVec 64) : Prop :=
  x = y ∨ (isZero x = true ∧ isZero y = true) ∨ (isNaN x = true ∧ isNaN y = true)

instance (x y : BitVec 64) : Decidable (SameReal x y) := by
  unfold SameReal
  infer_instance

theorem isNaN_of_isZero {x : BitVec 64} (h : isZero x = true) : isNaN x = false := by
  rw [isZero, beq_iff_eq] at h
  rw [isNaN, h]
  rfl

namespace SameReal

variable {x y z : BitVec 64}

theorem refl (x : BitVec 64) : SameReal x x := .inl rfl

theorem symm (h : SameReal x y) : SameReal y x := by
  obtain rfl | ⟨hx, hy⟩ | ⟨hx, hy⟩ := h
  · exact refl x
  · exact .inr (.inl ⟨hy, hx⟩)
  · exact .inr (.inr ⟨hy, hx⟩)

theorem trans (h : SameReal x y) (h' : SameReal y z) : SameReal x z := by
  obtain rfl | ⟨hx, hy⟩ | ⟨hx, hy⟩ := h
  · exact h'
  · obtain rfl | ⟨-, hz⟩ | ⟨hy', -⟩ := h'
    · exact .inr (.inl ⟨hx, hy⟩)
    · exact .inr (.inl ⟨hx, hz⟩)
    · rw [isNaN_of_isZero hy] at hy'
      cases hy'
  · obtain rfl | ⟨hy', -⟩ | ⟨-, hz⟩ := h'
    · exact .inr (.inr ⟨hx, hy⟩)
    · rw [isNaN_of_isZero hy'] at hy
      cases hy
    · exact .inr (.inr ⟨hx, hz⟩)

theorem isNaN_eq (h : SameReal x y) : isNaN x = isNaN y := by
  obtain rfl | ⟨hx, hy⟩ | ⟨hx, hy⟩ := h
  · rfl
  · rw [isNaN_of_isZero hx, isNaN_of_isZero hy]
  · rw [hx, hy]

end SameReal

/-- The same value: reals are compared as numbers. -/
def SqlValue.Same : SqlValue → SqlValue → Prop
  | .real x, .real y => SameReal x y
  | u, v => u = v

theorem SqlValue.Same.refl (v : SqlValue) : v.Same v := by
  cases v with
  | real x => exact SameReal.refl x
  | null => rfl
  | int => rfl
  | text => rfl
  | blob => rfl

theorem SqlValue.same_iff {u v : SqlValue} :
    u.Same v ↔ u = v ∨ ∃ x y, u = .real x ∧ v = .real y ∧ SameReal x y := by
  constructor
  · intro h
    cases u with
    | real x =>
      cases v with
      | real y => exact .inr ⟨x, y, rfl, rfl, h⟩
      | _ => cases h
    | _ => exact .inl h
  · rintro (rfl | ⟨x, y, rfl, rfl, h⟩)
    · exact SqlValue.Same.refl u
    · exact h

theorem SqlValue.same_real_iff {u : SqlValue} {y : BitVec 64} :
    u.Same (.real y) ↔ ∃ x, u = .real x ∧ SameReal x y := by
  rw [SqlValue.same_iff]
  constructor
  · rintro (rfl | ⟨x, y', rfl, ⟨⟩, h⟩)
    · exact ⟨y, rfl, SameReal.refl y⟩
    · exact ⟨x, rfl, h⟩
  · rintro ⟨x, rfl, h⟩
    exact .inr ⟨x, y, rfl, rfl, h⟩

theorem SqlValue.Same.trans {u v w : SqlValue} (h : u.Same v) (h' : v.Same w) : u.Same w := by
  obtain rfl | ⟨x, y, rfl, rfl, hxy⟩ := SqlValue.same_iff.1 h
  · exact h'
  · obtain rfl | ⟨y', z, hy, rfl, hyz⟩ := SqlValue.same_iff.1 h'
    · exact h
    · cases hy
      exact SameReal.trans hxy hyz

/-- The types of values. -/
inductive ValueType
  | null
  | int
  | real
  | text
  | blob
  deriving DecidableEq, Repr

/-- The type of a value. -/
def SqlValue.type : SqlValue → ValueType
  | .null => .null
  | .int _ => .int
  | .real _ => .real
  | .text _ => .text
  | .blob _ => .blob

/-- A value that a database can hold as it is: no BLOB has `2 ^ 31` bytes or more, and not every
database has a NaN. -/
def SqlValue.Holdable (nan : Bool) : SqlValue → Prop
  | .real x => isNaN x = true → nan = true
  | .blob b => b.length < 2 ^ 31
  | _ => True

theorem SqlValue.Holdable.of_same {nan : Bool} {u v : SqlValue} (h : u.Holdable nan)
    (hs : u.Same v) : v.Holdable nan := by
  obtain rfl | ⟨x, y, rfl, rfl, hxy⟩ := SqlValue.same_iff.1 hs
  · exact h
  · rw [SqlValue.Holdable, hxy.isNaN_eq] at h
    exact h

/-! ## Machine words -/

/-- Arithmetic of `size_t` wraps at `2 ^ 64`. -/
def sizeT (n : ℕ) : ℕ := n % 2 ^ 64

/-- Conversion to `int`: the value modulo `2 ^ 32` in the signed range. -/
def cInt (n : ℤ) : ℤ := n.bmod (2 ^ 32)

theorem cInt_of_lt {n : ℤ} (h₀ : 0 ≤ n) (h : n < 2 ^ 31) : cInt n = n := by
  rw [cInt, Int.bmod_eq_of_le (by omega) (by omega)]

end C2Sql
