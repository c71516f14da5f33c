import C2Sql.Basic
import C2Sql.Lib.SqlExpr

/-!
# Search conditions

The condition tree of `condition_ast.h`. The tagged union of a leaf's value is the type
`CondValue`: the public constructors build exactly these four tags, and `bind_cond_values` treats
an `INT32` tag as `INT64`.

`SqlRDBCondition.eval` is what a condition is meant to say about a row, in the three-valued logic
of SQL; the comparison of two values belongs to the database and is a parameter.
-/

namespace C2Sql

/-- The value of a leaf, with its `value_type`. -/
inductive CondValue
  | int (v : BitVec 64)
  | real (bits : BitVec 64)
  | text (s : CStr)
  | blob (b : List UInt8)
  deriving DecidableEq, Repr

/-- The value the driver is handed for a leaf. -/
def CondValue.toSql : CondValue → SqlValue
  | int v => .int v
  | real b => .real b
  | text s => .text s
  | blob b => .blob b

/-- `SqlRDBCondition`. -/
inductive SqlRDBCondition
  | leaf (col : CStr) (op : SqlRDBOp) (v : CondValue)
  | and (left right : SqlRDBCondition)
  | or (left right : SqlRDBCondition)
  | all
  deriving DecidableEq, Repr

namespace SqlRDBCondition

/-- The meaning of a condition on a row, given the database's comparison. -/
def eval (cmp : SqlRDBOp → SqlValue → SqlValue → Option Bool) (row : CStr → SqlValue) :
    SqlRDBCondition → Option Bool
  | leaf col op v => cmp op (row col) v.toSql
  | and l r => SqlText.and3 (l.eval cmp row) (r.eval cmp row)
  | or l r => SqlText.or3 (l.eval cmp row) (r.eval cmp row)
  | all => some true

/-- The number of leaves. -/
def leafCount : SqlRDBCondition → ℕ
  | leaf .. => 1
  | and l r => l.leafCount + r.leafCount
  | or l r => l.leafCount + r.leafCount
  | all => 0

/-- The values of the leaves, from left to right. -/
def leafValues : SqlRDBCondition → List SqlValue
  | leaf _ _ v => [v.toSql]
  | and l r => l.leafValues ++ r.leafValues
  | or l r => l.leafValues ++ r.leafValues
  | all => []

/-- The columns the leaves name. -/
def leafCols : SqlRDBCondition → List CStr
  | leaf col _ _ => [col]
  | and l r => l.leafCols ++ r.leafCols
  | or l r => l.leafCols ++ r.leafCols
  | all => []

/-- A tree of leaves, conjunctions and disjunctions: no match-all node in it. -/
def NoAll : SqlRDBCondition → Prop
  | leaf .. => True
  | and l r => l.NoAll ∧ r.NoAll
  | or l r => l.NoAll ∧ r.NoAll
  | all => False

/-- Every leaf compares with one of the six operators of `SqlRDBOp`. -/
def OpsKnown : SqlRDBCondition → Prop
  | leaf _ op _ => ∀ v, op ≠ .other v
  | and l r => l.OpsKnown ∧ r.OpsKnown
  | or l r => l.OpsKnown ∧ r.OpsKnown
  | all => True

/-- The tree with its leaf values forgotten. -/
def eraseValues : SqlRDBCondition → SqlRDBCondition
  | leaf col op _ => leaf col op (.int 0)
  | and l r => and l.eraseValues r.eraseValues
  | or l r => or l.eraseValues r.eraseValues
  | all => all

@[simp]
theorem length_leafValues (c : SqlRDBCondition) : c.leafValues.length = c.leafCount := by
  induction c with
  | leaf => rfl
  | and l r ihl ihr => simp [leafValues, leafCount, ihl, ihr]
  | or l r ihl ihr => simp [leafValues, leafCount, ihl, ihr]
  | all => rfl

/-- The columns of the leaves do not depend on their values. -/
theorem leafCols_eraseValues (c : SqlRDBCondition) : c.eraseValues.leafCols = c.leafCols := by
  induction c with
  | leaf => rfl
  | and l r ihl ihr => simp [eraseValues, leafCols, ihl, ihr]
  | or l r ihl ihr => simp [eraseValues, leafCols, ihl, ihr]
  | all => rfl

theorem leafCount_eraseValues (c : SqlRDBCondition) : c.eraseValues.leafCount = c.leafCount := by
  induction c with
  | leaf => rfl
  | and l r ihl ihr => simp [eraseValues, leafCount, ihl, ihr]
  | or l r ihl ihr => simp [eraseValues, leafCount, ihl, ihr]
  | all => rfl

end SqlRDBCondition

end C2Sql
