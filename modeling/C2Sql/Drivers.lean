import C2Sql.Handle
import C2Sql.Lib.SnapshotStack

/-!
# The two drivers

`sqlite_driver.c` and `postgres_driver.c` over a database engine. What the drivers do themselves is
modelled as they do it: the life of a statement (text, parameters, cursor), the checks on an index,
the conversion of lengths to `int`, the counting of placeholders, the transaction commands. What
the engine does with a statement is a parameter (`Engine`).

Any call that reaches the engine may also fail on its own, without effect: `faults` says which calls
do. Preparations are counted apart from the other calls, since a cache saves them and no others.
-/

namespace C2Sql

open SnapshotStack

/-! ## Counting placeholders -/

/-- `isdigit` in the C locale. -/
def isdigit (c : UInt8) : Bool := 48 ≤ c && c ≤ 57

/-- `while (isdigit(*p)) { v = v * 10 + (*p - '0'); p++; }`, in `int` arithmetic. -/
def pgDigits : ℤ → CStr → ℤ × CStr
  | v, [] => (v, [])
  | v, c :: cs =>
    if isdigit c then pgDigits (cInt (v * 10 + (c.toNat - 48 : ℕ))) cs else (v, c :: cs)

/-- The loop of `pg_count_params`; every round moves on by one byte at least. -/
def pgCountFrom : ℕ → ℤ → CStr → ℤ
  | 0, max, _ => max
  | _ + 1, max, [] => max
  | k + 1, max, c :: cs =>
    if c = 36 ∧ (cs.head?.map isdigit).getD false = true then
      let (v, rest) := pgDigits 0 cs
      pgCountFrom k (if v > max then v else max) rest
    else pgCountFrom k max cs

/-- `pg_count_params`. -/
def pgCountParams (sql : CStr) : ℤ := pgCountFrom sql.length 0 sql

/-! ## Engines and sessions -/

/-- What the execution of a statement yields. -/
structure Outcome (Db : Type) where
  rows : List (List SqlValue)
  db : Db
  /-- The affected-row count, where the statement sets it. -/
  changes : Option ℤ

/-- A database engine: the statements that SQLite can prepare, the effect of a statement with the
values of its parameters (`none` for an error, without effect), and the conversions of column
values. -/
structure Engine (Db : Type) where
  compiles : CStr → Bool
  run : CStr → List SqlValue → Db → Option (Outcome Db)
  toInt64 : SqlValue → BitVec 64
  toReal : SqlValue → BitVec 64
  toText : SqlValue → List UInt8
  toBlob : SqlValue → List UInt8

/-- Where a statement is in its result. -/
inductive Cursor
  | ready
  | row (current : List SqlValue) (rest : List (List SqlValue))
  | done
  deriving DecidableEq

/-- A prepared statement; the parameters count from one, and are NULL until they are bound. -/
structure Stmt where
  sql : CStr
  nparams : ℕ
  params : ℕ → SqlValue
  cursor : Cursor

/-- The values that the engine is given. -/
def Stmt.values (s : Stmt) : List SqlValue := (List.range s.nparams).map fun i => s.params (i + 1)

/-- The errors of a call that fails on its own. -/
inductive Fault
  | driver
  | noMemory
  deriving DecidableEq

/-- The result code of a fault. -/
def Fault.code : Fault → SqlRDBResult
  | driver => .errDriver
  | noMemory => .errNoMemory

/-- The calls that can fail on their own. -/
inductive DriverCall
  | exec
  | prepare
  | bind
  | step
  | begin
  | commit
  | rollback
  | savepoint
  | releaseSp
  | rollbackSp
  deriving DecidableEq

/-- A connection: the database with its open transaction frames, the affected-row count, and the
calls that are going to fail. -/
structure Conn (Db : Type) where
  store : Store CStr Db
  changes : ℤ
  faults : DriverCall → ℕ → Option Fault
  tick : ℕ

/-- A driver's context: the connection, and the statements prepared on it. -/
structure Session (Db : Type) where
  conn : Conn Db
  stmts : StmtId → Option Stmt
  next : StmtId
  prepareTick : ℕ

variable {Db : Type}

/-- The next call: whether it fails. -/
def Conn.fault (c : Conn Db) (call : DriverCall) : Option Fault × Conn Db :=
  (c.faults call c.tick, { c with tick := c.tick + 1 })

/-- The next preparation: whether it fails. -/
def Session.prepareFault (s : Session Db) : Option Fault × Session Db :=
  (s.conn.faults .prepare s.prepareTick, { s with prepareTick := s.prepareTick + 1 })

/-- A call that may fail on its own, and does what `act` says if it does not. -/
def Conn.call (c : Conn Db) (call : DriverCall) (act : Conn Db → SqlRDBResult × Conn Db) :
    SqlRDBResult × Conn Db :=
  match c.fault call with
  | (some f, c) => (f.code, c)
  | (none, c) => act c

/-! ## Transactions -/

/-- A transaction command: an error of the store leaves it as it is, except that PostgreSQL only
warns about a `BEGIN` inside a transaction and a `COMMIT` or `ROLLBACK` outside one. -/
def Conn.txn (c : Conn Db) (warns : Bool) (res : Option (Store CStr Db)) :
    SqlRDBResult × Conn Db :=
  match res with
  | some store => (.ok, { c with store := store })
  | none => (if warns then .ok else .errDriver, c)

/-- The text of `SAVEPOINT`; PostgreSQL has savepoints inside a transaction only. -/
def Conn.savepoint (dialect : C2SqlDialect) (c : Conn Db) (name : CStr) :
    SqlRDBResult × Conn Db :=
  c.txn false (if dialect = .postgres ∧ c.store.frames = [] then none
    else some (c.store.savepoint name))

/-! ## Execution -/

/-- The engine runs a statement on the current contents. -/
def Conn.execute (e : Engine Db) (c : Conn Db) (sql : CStr) (values : List SqlValue) :
    Option (List (List SqlValue) × Conn Db) :=
  (e.run sql values c.store.contents).map fun o =>
    (o.rows, { c with store := { c.store with contents := o.db },
                      changes := o.changes.getD c.changes })

/-- The cursor at the first of the rows that are left, if there is one. -/
def Cursor.at : List (List SqlValue) → Cursor
  | [] => .done
  | r :: rs => .row r rs

/-- Whether the cursor is on a row. -/
def Cursor.hasRow : Cursor → Bool
  | .row .. => true
  | _ => false

/-- The execution of a statement by a step. After an error SQLite has halted the statement, and
PostgreSQL has not executed it. -/
def Stmt.start (dialect : C2SqlDialect) (e : Engine Db) (s : Stmt) (c : Conn Db) :
    SqlRDBResult × Stmt × Conn Db :=
  match c.execute e s.sql s.values with
  | some (rows, c) => (.ok, { s with cursor := .at rows }, c)
  | none => (.errDriver, { s with cursor := if dialect = .sqlite then .done else .ready }, c)

/-- `sqlite_step` and `pg_step` on a call that does not fail by itself. A statement at its end is
executed again by SQLite, and stays there with PostgreSQL. -/
def Stmt.advance (dialect : C2SqlDialect) (e : Engine Db) (s : Stmt) (c : Conn Db) :
    SqlRDBResult × Stmt × Conn Db :=
  match s.cursor, dialect with
  | .ready, _ => s.start dialect e c
  | .row _ rest, _ => (.ok, { s with cursor := .at rest }, c)
  | .done, .sqlite => s.start dialect e c
  | .done, .postgres => (.ok, s, c)

/-- `sqlite_step` and `pg_step`. -/
def Stmt.step (dialect : C2SqlDialect) (e : Engine Db) (s : Stmt) (c : Conn Db) :
    SqlRDBResult × Stmt × Conn Db :=
  match c.fault .step with
  | (some f, c) => (f.code, { s with cursor := if dialect = .sqlite then .done else s.cursor }, c)
  | (none, c) => s.advance dialect e c

/-! ## Parameters and columns -/

/-- The code for an index out of range. -/
def rangeCode : C2SqlDialect → SqlRDBResult
  | .sqlite => .errDriver
  | .postgres => .errInvalidArg

/-- The value that a bind call hands to the engine: the length of a BLOB goes through an `int`. A
negative length is undefined behaviour of both drivers; the engine is then given the whole BLOB,
longer than any that it can hold, and may make anything of it. -/
def storedValue : SqlValue → SqlValue
  | .blob b => .blob (if 0 ≤ cInt b.length then b.take (cInt b.length).toNat else b)
  | v => v

/-- `sqlite_bind_*` and `pg_bind_*` on a call that does not fail by itself. SQLite refuses to bind a
statement that has been stepped and not reset. -/
def Stmt.bind (dialect : C2SqlDialect) (s : Stmt) (index : ℤ) (v : SqlValue) :
    SqlRDBResult × Stmt :=
  if dialect = .sqlite ∧ s.cursor ≠ .ready then (.errDriver, s)
  else if index < 1 ∨ s.nparams < index then (rangeCode dialect, s)
  else (.ok, { s with params := Function.update s.params index.toNat (storedValue v) })

/-- `sqlite_reset` keeps the parameters, `pg_reset` clears them. -/
def Stmt.reset (dialect : C2SqlDialect) (s : Stmt) : Stmt :=
  match dialect with
  | .sqlite => { s with cursor := .ready }
  | .postgres => { s with cursor := .ready, params := fun _ => .null }

/-- The value of a column of the current row. -/
def Stmt.column (s : Stmt) (i : ℕ) : SqlValue :=
  match s.cursor with
  | .row current _ => (current[i]?).getD .null
  | _ => .null

/-- The text of a column: NULL is a NULL pointer for SQLite, and an empty string for
PostgreSQL. -/
def columnText (dialect : C2SqlDialect) (e : Engine Db) : SqlValue → Option (List UInt8)
  | .null => if dialect = .sqlite then none else some []
  | v => some (e.toText v)

/-- The bytes of a column. -/
def columnBlob (e : Engine Db) : SqlValue → Option (List UInt8)
  | .null => none
  | v => some (e.toBlob v)

/-- The number of parameters of a text. -/
def countParams : C2SqlDialect → CStr → ℕ
  | .sqlite, sql => (SqlText.params (SqlText.lex sql)).length
  | .postgres, sql => (pgCountParams sql).toNat

/-! ## The driver -/

/-- A statement call; a statement that does not exist is a misuse of the interface. -/
def withStmt {α : Type} (id : StmtId) (dead : α) (act : Stmt → Conn Db → α × Stmt × Conn Db) :
    StateM (Session Db) α := fun s =>
  match s.stmts id with
  | none => (dead, s)
  | some st =>
    let (a, st, conn) := act st s.conn
    (a, { s with conn := conn, stmts := Function.update s.stmts id (some st) })

/-- A call on the connection. -/
def onConn {α : Type} (act : Conn Db → α × Conn Db) : StateM (Session Db) α := fun s =>
  let (a, conn) := act s.conn
  (a, { s with conn := conn })

/-- A column call. -/
def onColumn {α : Type} (id : StmtId) (i : ℕ) (dead : α) (f : SqlValue → α) :
    StateM (Session Db) (SqlRDBResult × α) :=
  withStmt id (.errDriver, dead) fun st conn => ((.ok, f (st.column i)), st, conn)

/-- `sqlite_prepare` and `pg_prepare`. -/
def prepareStmt (dialect : C2SqlDialect) (e : Engine Db) (sql : CStr) :
    StateM (Session Db) (SqlRDBResult × StmtId) := fun s =>
  match s.prepareFault with
  | (some f, s) => ((f.code, 0), s)
  | (none, s) =>
    if dialect = .sqlite ∧ e.compiles sql = false then ((.errDriver, 0), s)
    else ((.ok, s.next),
      { s with
        stmts := Function.update s.stmts s.next
          (some ⟨sql, countParams dialect sql, fun _ => .null, .ready⟩),
        next := s.next + 1 })

/-- `g_sqlite3_driver` and `g_postgres_driver` over an engine. -/
def driver (dialect : C2SqlDialect) (e : Engine Db) : SqlRDBDriver (Session Db) where
  dialect := dialect
  close := pure .ok
  exec := fun sql => onConn fun c => c.call .exec fun c =>
    match c.execute e sql [] with
    | some (_, c) => (.ok, c)
    | none => (.errDriver, c)
  prepare := prepareStmt dialect e
  bind := fun id index v => withStmt id .errDriver fun st conn =>
    match conn.fault .bind with
    | (some f, conn) => (f.code, st, conn)
    | (none, conn) =>
      let (r, st) := st.bind dialect index v
      (r, st, conn)
  step := fun id => withStmt id (.errDriver, false) fun st conn =>
    let (r, st, conn) := st.step dialect e conn
    ((r, r == .ok && st.cursor.hasRow), st, conn)
  columnInt64 := fun id i => onColumn id i 0 e.toInt64
  columnInt32 := fun id i => onColumn id i 0 fun v => (e.toInt64 v).setWidth 32
  columnReal := fun id i => onColumn id i 0 e.toReal
  columnText := fun id i => onColumn id i none (columnText dialect e)
  columnBlob := fun id i => onColumn id i none (columnBlob e)
  columnIsnull := fun id i => onColumn id i false fun v => v == .null
  reset := fun id => withStmt id .errDriver fun st conn => (.ok, st.reset dialect, conn)
  finalize := fun id s => (.ok, { s with stmts := Function.update s.stmts id none })
  begin := onConn fun c => c.call .begin fun c => c.txn (dialect == .postgres) c.store.begin
  commit := onConn fun c => c.call .commit fun c => c.txn (dialect == .postgres) c.store.commit
  rollback := onConn fun c => c.call .rollback fun c =>
    c.txn (dialect == .postgres) c.store.rollback
  savepoint := fun name => onConn fun c => c.call .savepoint fun c => c.savepoint dialect name
  releaseSp := fun name => onConn fun c => c.call .releaseSp fun c =>
    c.txn false (c.store.release name)
  rollbackSp := fun name => onConn fun c => c.call .rollbackSp fun c =>
    c.txn false (c.store.rollbackTo name)
  changes := fun s => (s.conn.changes, s)

end C2Sql
