import C2Sql.Execution

/-!
# Reading the rows of a statement

What `c2sql_internal_tm_read_row` makes of the values of the current row, without a statement.

* `readCell`, `readCells`: the columns as functions of the values;
* `internalTmReadRow_eq`: a statement is read through the values of its current row, and reading
  changes nothing;
* `Cursor.left`, `Stmt.step_eq`: a step moves to the first of the rows that are left.
-/

namespace C2Sql

open StateLogic

variable {Db : Type}

/-- What `read_one` stores for a value. -/
def readCell (dialect : C2SqlDialect) (e : Engine Db) (col : SqlRDBColumnDef) (v : SqlValue)
    (row : Buffer) : SqlRDBResult × Buffer :=
  match col.type with
  | .int32 =>
    let n := e.toInt64 v
    (if n.toInt < -2 ^ 31 ∨ n.toInt > 2 ^ 31 - 1 then .warnTruncated else .ok,
      row.write col.offset (bytesOf (n.setWidth 32) 4))
  | .int64 => (.ok, row.write col.offset (bytesOf (e.toInt64 v) 8))
  | .real => (.ok, row.write col.offset (bytesOf (e.toReal v) 8))
  | .text =>
    if col.size = 0 then (.warnTruncated, row)
    else
      let bytes := (columnText dialect e v).getD []
      let toCopy := min bytes.length (col.size - 1)
      (if bytes.length > col.size - 1 then .warnTruncated else .ok,
        (row.write col.offset (bytes.take toCopy)).write (col.offset + toCopy) [0])
  | .blob =>
    let bytes := (columnBlob e v).getD []
    (if bytes.length > col.size then .warnTruncated else .ok,
      row.write col.offset (bytes.take (min bytes.length col.size)))
  | .other _ => (.errInternal, row)

/-- What `c2sql_internal_tm_read_row` stores for the values of a row, from the `i`-th column on. -/
def readCells (dialect : C2SqlDialect) (e : Engine Db) (vals : ℕ → SqlValue) :
    ℕ → List SqlRDBColumnDef → Bool → Buffer → Option Mem → SqlRDBResult × Buffer × Option Mem
  | _, [], anyTruncated, row, nullMap =>
    (if anyTruncated then .warnTruncated else .ok, row, nullMap)
  | i, col :: cols, anyTruncated, row, nullMap =>
    if vals i = .null then
      readCells dialect e vals (i + 1) cols anyTruncated row (nullBitSet nullMap i)
    else
      let (r, row) := readCell dialect e col (vals i) row
      if r = .warnTruncated then readCells dialect e vals (i + 1) cols true row nullMap
      else if r ≠ .ok then (r, row, nullMap)
      else readCells dialect e vals (i + 1) cols anyTruncated row nullMap

section Statements

variable {dialect : C2SqlDialect} {e : Engine Db} {s : Session Db} {id : StmtId} {st : Stmt}

/-- A column of a statement that is there. -/
theorem onColumn_eq {α : Type} (hst : s.stmts id = some st) (i : ℕ) (dead : α)
    (f : SqlValue → α) : onColumn id i dead f s = ((.ok, f (st.column i)), s) := by
  rw [onColumn, withStmt_eq hst, Session.put_self id hst]

theorem readOne_eq (hst : s.stmts id = some st) (i : ℕ) (col : SqlRDBColumnDef) (row : Buffer) :
    readOne (driver dialect e) id i col row s = (readCell dialect e col (st.column i) row, s) := by
  unfold readOne readCell
  cases col.type with
  | int32 => simp [driver, bind, StateT.bind, onColumn_eq hst, pure_run]
  | int64 => simp [driver, bind, StateT.bind, onColumn_eq hst, pure_run]
  | real => simp [driver, bind, StateT.bind, onColumn_eq hst, pure_run]
  | text =>
    simp only [driver, bind, StateT.bind, onColumn_eq hst, ne_eq, not_true_eq_false, if_false]
    split_ifs <;> rfl
  | blob => simp [driver, bind, StateT.bind, onColumn_eq hst, pure_run]
  | other n => rfl

theorem readRowFrom_eq (hst : s.stmts id = some st) (i : ℕ) (cols : List SqlRDBColumnDef)
    (anyTruncated : Bool) (row : Buffer) (nullMap : Option Mem) :
    readRowFrom (driver dialect e) id i cols anyTruncated row nullMap s =
      (readCells dialect e st.column i cols anyTruncated row nullMap, s) := by
  induction cols generalizing i anyTruncated row nullMap with
  | nil => rfl
  | cons col cols ih =>
    have hnull : (driver dialect e).columnIsnull id i s = ((.ok, st.column i == .null), s) :=
      onColumn_eq hst i false fun v => v == .null
    rw [readRowFrom, bind_of_run hnull, readCells]
    simp only [ne_eq, not_true_eq_false, if_false, beq_iff_eq]
    by_cases hv : st.column i = .null
    · rw [if_pos hv, if_pos hv]
      exact ih ..
    · rw [if_neg hv, if_neg hv, bind_of_run (readOne_eq hst i col row)]
      generalize readCell dialect e col (st.column i) row = cell
      split_ifs
      · exact ih ..
      · exact ih ..
      · rfl

/-- **A statement is read through the values of its current row.** -/
theorem internalTmReadRow_eq (hst : s.stmts id = some st) (schema : SqlRDBSchema) (row : Buffer)
    (nullMap : Option Mem) :
    internalTmReadRow (driver dialect e) id schema row nullMap s =
      (readCells dialect e st.column 0 schema.cols false row nullMap, s) :=
  readRowFrom_eq hst ..

/-! ## What is left of a result -/

/-- The rows that the next calls deliver, for a statement with the result `rows`. -/
def Cursor.left (dialect : C2SqlDialect) (rows : List (List SqlValue)) :
    Cursor → List (List SqlValue)
  | .ready => rows
  | .row _ rest => rest
  | .done => if dialect = .sqlite then rows else []

/-- The engine answers a statement with the rows and changes nothing. -/
def Stmt.Selects (e : Engine Db) (st : Stmt) (db : Db) (rows : List (List SqlValue)) : Prop :=
  e.run st.sql st.values db = some ⟨rows, db, none⟩

/-- **A step on a selecting statement** moves its cursor to the first of the rows that are left. -/
theorem Stmt.step_eq {c : Conn Db} {rows : List (List SqlValue)}
    (hsel : st.Selects e c.store.contents rows) (hf : c.faults .step c.tick = none) :
    st.step dialect e c =
      (.ok, { st with cursor := .at (st.cursor.left dialect rows) },
        { c with tick := c.tick + 1 }) := by
  have hstart : ∀ k, st.start dialect e { c with tick := k } =
      (.ok, { st with cursor := .at rows }, { c with tick := k }) := by
    intro k
    rw [Stmt.start, Conn.execute, show e.run st.sql st.values c.store.contents = _ from hsel]
    rfl
  rw [Stmt.step, Conn.fault, hf]
  dsimp only
  unfold Stmt.advance
  cases hc : st.cursor with
  | ready => exact hstart _
  | row current rest => rfl
  | done =>
    cases dialect with
    | sqlite => exact hstart _
    | postgres =>
      have hst : st = { st with cursor := .done } := by rw [← hc]
      dsimp only
      nth_rewrite 1 [hst]
      rfl

end Statements

end C2Sql
