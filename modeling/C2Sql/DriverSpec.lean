import C2Sql.Drivers
import C2Sql.Logic

/-!
# What driver calls do

The effect of each call of the two drivers on the database, its frames and the statements.

* `reaches_txn`, `reaches_savepoint`: a transaction command has its effect or none;
* `step_store`: a statement runs inside the open frames, and changes nothing when it fails;
* `keeps_prepare`, `keeps_bind`, `keeps_reset`, `keeps_finalize`: the other calls do not touch the
  database.
-/

namespace C2Sql

open SnapshotStack StateLogic

variable {Db : Type}

theorem Fault.code_ne_ok (f : Fault) : f.code ≠ .ok := by
  cases f <;> decide

/-! ## Transaction commands -/

section Driver

variable {s : Session Db}

/-- A call for the store `t` succeeds with it, or fails without effect. -/
def Reaches (s : Session Db) (t : Store CStr Db) (r : SqlRDBResult) (s' : Session Db) : Prop :=
  (r = .ok ∧ s'.conn.store = t) ∨ (r ≠ .ok ∧ s'.conn.store = s.conn.store)

theorem reaches_call {call : DriverCall} {act : Conn Db → SqlRDBResult × Conn Db}
    {t : Store CStr Db}
    (h : ∀ c : Conn Db, c.store = s.conn.store → act c = (.ok, { c with store := t })) :
    wp (onConn fun c => c.call call act) (Reaches s t) s := by
  rw [wp, onConn, Conn.call, Conn.fault]
  cases hf : s.conn.faults call s.conn.tick with
  | some f => exact .inr ⟨f.code_ne_ok, rfl⟩
  | none =>
    simp only
    rw [h { s.conn with tick := s.conn.tick + 1 } rfl]
    exact .inl ⟨rfl, rfl⟩

/-- A transaction command that the store accepts. -/
theorem reaches_txn {call : DriverCall} {w : Bool} {f : Store CStr Db → Option (Store CStr Db)}
    {t : Store CStr Db}
    (hf : f s.conn.store = some t) :
    wp (onConn fun c => c.call call fun c => c.txn w (f c.store)) (Reaches s t) s := by
  refine reaches_call fun c hc => ?_
  rw [hc, hf]
  rfl

theorem reaches_savepoint (dialect : C2SqlDialect) (name : CStr) (hs : s.conn.store.frames ≠ []) :
    wp (onConn fun c => c.call .savepoint fun c => c.savepoint dialect name)
      (Reaches s (s.conn.store.savepoint name)) s := by
  refine reaches_call fun c hc => ?_
  rw [Conn.savepoint, hc, if_neg (fun h => hs h.2)]
  rfl

theorem keeps_withStmt {α γ : Type} {f : Conn Db → γ} (id : StmtId) (dead : α)
    {act : Stmt → Conn Db → α × Stmt × Conn Db} (h : ∀ st c, f (act st c).2.2 = f c) :
    Keeps (fun s : Session Db => f s.conn) (withStmt id dead act) := by
  intro s
  rw [withStmt]
  cases s.stmts id with
  | none => rfl
  | some st => exact h st s.conn

section Keeps

variable (dialect : C2SqlDialect) (e : Engine Db)

theorem keeps_prepare (sql : CStr) :
    Keeps (fun s : Session Db => s.conn.store) ((driver dialect e).prepare sql) := by
  intro s
  simp only [driver, prepareStmt, Session.prepareFault]
  cases s.conn.faults .prepare s.prepareTick with
  | some f => rfl
  | none =>
    simp only
    split_ifs <;> rfl

theorem keeps_bind (id : StmtId) (index : ℤ) (v : SqlValue) :
    Keeps (fun s : Session Db => s.conn.store) ((driver dialect e).bind id index v) := by
  refine keeps_withStmt id _ fun st c => ?_
  simp only [Conn.fault]
  cases c.faults .bind c.tick <;> rfl

theorem keeps_reset (id : StmtId) :
    Keeps (fun s : Session Db => s.conn.store) ((driver dialect e).reset id) :=
  keeps_withStmt id _ fun _ _ => rfl

theorem keeps_finalize (id : StmtId) :
    Keeps (fun s : Session Db => s.conn.store) ((driver dialect e).finalize id) :=
  fun _ => rfl

/-- A statement runs inside the open frames, and changes nothing when it fails. -/
theorem step_store (id : StmtId) (s : Session Db) :
    wp ((driver dialect e).step id) (fun r s' =>
      s'.conn.store.frames = s.conn.store.frames ∧
        (r.1 ≠ .ok → s'.conn.store = s.conn.store)) s := by
  have hstart : ∀ (st : Stmt) (c : Conn Db),
      (st.start dialect e c).2.2.store.frames = c.store.frames ∧
        ((st.start dialect e c).1 ≠ .ok → (st.start dialect e c).2.2.store = c.store) := by
    intro st c
    rw [Stmt.start, Conn.execute]
    cases e.run st.sql st.values c.store.contents with
    | none => exact ⟨rfl, fun _ => rfl⟩
    | some o => exact ⟨rfl, fun h => absurd rfl h⟩
  have hadvance : ∀ (st : Stmt) (c : Conn Db),
      (st.advance dialect e c).2.2.store.frames = c.store.frames ∧
        ((st.advance dialect e c).1 ≠ .ok → (st.advance dialect e c).2.2.store = c.store) := by
    intro st c
    unfold Stmt.advance
    split
    · exact hstart st c
    · exact ⟨rfl, fun _ => rfl⟩
    · exact hstart st c
    · exact ⟨rfl, fun _ => rfl⟩
  simp only [wp, driver, withStmt]
  cases s.stmts id with
  | none => exact ⟨rfl, fun _ => rfl⟩
  | some st =>
    simp only [Stmt.step, Conn.fault]
    cases s.conn.faults .step s.conn.tick with
    | some f => exact ⟨rfl, fun _ => rfl⟩
    | none => exact hadvance st _

end Keeps

end Driver

end C2Sql
