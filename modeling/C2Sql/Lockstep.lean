import C2Sql.Reading

/-!
# Two statements side by side

The same driver calls on two statements of one text, in two sessions with the same connection. The
statements may have different old parameters; once every parameter has been bound, nothing that is
left of them can be seen.

* `Stmt.Agree k`: the statements differ at most in the parameters after the `k`-th;
* `Pair.Holds`: how far two sessions may be apart while one statement of each is in use;
* `Pair.agree_bindRow`, `Pair.agree_bindCond`: binding a row or a condition makes the statements
  agree further, or fails for both;
* `Pair.agree_step`, `Pair.agree_readRow`, `Pair.agree_writeRows`: statements that agree run alike.
-/

namespace C2Sql

open SnapshotStack StateLogic

variable {Db : Type}

/-- Two statements of one text that differ at most in the parameters after the `k`-th. -/
def Stmt.Agree (dialect : C2SqlDialect) (sql : CStr) (k : ℕ) (st₁ st₂ : Stmt) : Prop :=
  ∃ ps₁ ps₂ cur, st₁ = ⟨sql, countParams dialect sql, ps₁, cur⟩ ∧
    st₂ = ⟨sql, countParams dialect sql, ps₂, cur⟩ ∧ ∀ i, 1 ≤ i → i ≤ k → ps₁ i = ps₂ i

namespace Stmt.Agree

variable {dialect : C2SqlDialect} {e : Engine Db} {sql : CStr} {k : ℕ} {st₁ st₂ : Stmt}

theorem mono (h : Agree dialect sql k st₁ st₂) {j : ℕ} (hj : j ≤ k) :
    Agree dialect sql j st₁ st₂ := by
  obtain ⟨ps₁, ps₂, cur, h₁, h₂, hps⟩ := h
  exact ⟨ps₁, ps₂, cur, h₁, h₂, fun i h₁ h₂ => hps i h₁ (h₂.trans hj)⟩

/-- Statements that have just been prepared or reset. -/
theorem of_fresh (h₁ : st₁.Fresh dialect sql) (h₂ : st₂.Fresh dialect sql) :
    Agree dialect sql 0 st₁ st₂ := by
  have heq : ∀ {st : Stmt}, st.Fresh dialect sql →
      st = ⟨sql, countParams dialect sql, st.params, .ready⟩ := by
    intro st h
    rw [← h.nparams_eq, ← h.sql_eq, ← h.cursor_eq]
  exact ⟨st₁.params, st₂.params, .ready, heq h₁, heq h₂, fun i _ _ => by omega⟩

theorem column_eq (h : Agree dialect sql k st₁ st₂) : st₁.column = st₂.column := by
  obtain ⟨ps₁, ps₂, cur, rfl, rfl, -⟩ := h
  rfl

/-- A value is bound to both, or to none of them. -/
theorem bind (h : Agree dialect sql k st₁ st₂) (i : ℤ) (v : SqlValue) :
    (st₁.bind dialect i v).1 = (st₂.bind dialect i v).1 ∧
      Agree dialect sql k (st₁.bind dialect i v).2 (st₂.bind dialect i v).2 ∧
      ((st₁.bind dialect i v).1 = .ok → 1 ≤ i ∧ (i = k + 1 →
        Agree dialect sql (k + 1) (st₁.bind dialect i v).2 (st₂.bind dialect i v).2)) := by
  have hst := h
  obtain ⟨ps₁, ps₂, cur, rfl, rfl, hps⟩ := h
  simp only [Stmt.bind]
  split_ifs with hcur hrange
  · exact ⟨rfl, hst, (by rintro ⟨⟩)⟩
  · refine ⟨rfl, hst, fun hr => ?_⟩
    cases dialect <;> cases hr
  · -- the parameters agree where they did, and at the index
    have hupdate : ∀ j, 1 ≤ j → j ≤ k ∨ j = i.toNat →
        Function.update ps₁ i.toNat (storedValue v) j =
          Function.update ps₂ i.toNat (storedValue v) j := by
      intro j h₁ h₂
      simp only [Function.update_apply]
      split_ifs with hj
      · rfl
      · exact hps j h₁ (h₂.resolve_right hj)
    refine ⟨rfl, ⟨_, _, _, rfl, rfl, fun j h₁ h₂ => hupdate j h₁ (.inl h₂)⟩,
      fun _ => ⟨by omega, fun hi => ⟨_, _, _, rfl, rfl, fun j h₁ h₂ => hupdate j h₁ ?_⟩⟩⟩
    omega

/-- Both are rewound. -/
theorem reset (h : Agree dialect sql k st₁ st₂) :
    Agree dialect sql k (st₁.reset dialect) (st₂.reset dialect) := by
  obtain ⟨ps₁, ps₂, cur, rfl, rfl, hps⟩ := h
  cases dialect with
  | sqlite => exact ⟨ps₁, ps₂, .ready, rfl, rfl, hps⟩
  | postgres => exact ⟨_, _, .ready, rfl, rfl, fun _ _ _ => rfl⟩

/-- Statements that agree on all their parameters are executed alike. -/
theorem start (h : Agree dialect sql k st₁ st₂) (hk : countParams dialect sql ≤ k) (c : Conn Db) :
    (st₁.start dialect e c).1 = (st₂.start dialect e c).1 ∧
      (st₁.start dialect e c).2.2 = (st₂.start dialect e c).2.2 ∧
      (st₁.start dialect e c).2.2.faults = c.faults ∧
      Agree dialect sql k (st₁.start dialect e c).2.1 (st₂.start dialect e c).2.1 := by
  obtain ⟨ps₁, ps₂, cur, rfl, rfl, hps⟩ := h
  have hvalues : (⟨sql, countParams dialect sql, ps₁, cur⟩ : Stmt).values =
      (⟨sql, countParams dialect sql, ps₂, cur⟩ : Stmt).values := by
    refine List.map_congr_left fun i hi => hps _ (by omega) ?_
    exact (List.mem_range.1 hi).trans_le hk
  simp only [Stmt.start, hvalues, Conn.execute]
  cases e.run sql _ c.store.contents with
  | none => exact ⟨rfl, rfl, rfl, ps₁, ps₂, _, rfl, rfl, hps⟩
  | some o => exact ⟨rfl, rfl, rfl, ps₁, ps₂, _, rfl, rfl, hps⟩

/-- Statements that agree on all their parameters step alike. -/
theorem step (h : Agree dialect sql k st₁ st₂) (hk : countParams dialect sql ≤ k) (c : Conn Db) :
    (st₁.step dialect e c).1 = (st₂.step dialect e c).1 ∧
      (st₁.step dialect e c).2.2 = (st₂.step dialect e c).2.2 ∧
      (st₁.step dialect e c).2.2.faults = c.faults ∧
      Agree dialect sql k (st₁.step dialect e c).2.1 (st₂.step dialect e c).2.1 := by
  have hstart := fun c => h.start (e := e) hk c
  obtain ⟨ps₁, ps₂, cur, rfl, rfl, hps⟩ := h
  simp only [Stmt.step, Conn.fault]
  cases c.faults .step c.tick with
  | some f => exact ⟨rfl, rfl, rfl, ps₁, ps₂, _, rfl, rfl, hps⟩
  | none =>
    simp only [Stmt.advance]
    cases cur with
    | ready => exact hstart _
    | row r rest => exact ⟨rfl, rfl, rfl, ps₁, ps₂, _, rfl, rfl, hps⟩
    | done =>
      cases dialect with
      | sqlite => exact hstart _
      | postgres => exact ⟨rfl, rfl, rfl, ps₁, ps₂, _, rfl, rfl, hps⟩

end Stmt.Agree

/-! ## Two sessions -/

/-- Two sessions, each with a statement in use, as they were when the statements were opened. -/
structure Pair (Db : Type) where
  dialect : C2SqlDialect
  engine : Engine Db
  sql : CStr
  id₁ : StmtId
  id₂ : StmtId
  base₁ : Session Db
  base₂ : Session Db

namespace Pair

variable (P : Pair Db) {s₁ s₂ : Session Db} {k : ℕ}

/-- The sessions have changed in the two statements and in the connection only. They have the same
connection, and the statements are related by `R`. -/
def Holds (R : Stmt → Stmt → Prop) (s₁ s₂ : Session Db) : Prop :=
  ∃ st₁ st₂ c, s₁ = P.base₁.put P.id₁ st₁ c ∧ s₂ = P.base₂.put P.id₂ st₂ c ∧
    c.faults = P.base₁.conn.faults ∧ R st₁ st₂

/-- The statements agree up to the `k`-th parameter. -/
abbrev Agree (k : ℕ) : Session Db → Session Db → Prop := P.Holds (Stmt.Agree P.dialect P.sql k)

/-- The driver of both. -/
abbrev drv : SqlRDBDriver (Session Db) := driver P.dialect P.engine

variable {P}

theorem Holds.mono {R R' : Stmt → Stmt → Prop} (h : P.Holds R s₁ s₂)
    (hR : ∀ st₁ st₂, R st₁ st₂ → R' st₁ st₂) : P.Holds R' s₁ s₂ := by
  obtain ⟨st₁, st₂, c, h₁, h₂, hf, h⟩ := h
  exact ⟨st₁, st₂, c, h₁, h₂, hf, hR st₁ st₂ h⟩

theorem agree_mono (h : P.Agree k s₁ s₂) {j : ℕ} (hj : j ≤ k) : P.Agree j s₁ s₂ :=
  h.mono fun _ _ h => h.mono hj

/-- A call on both statements. -/
theorem holds_withStmt {α : Type} {dead : α} {act : Stmt → Conn Db → α × Stmt × Conn Db}
    {R : Stmt → Stmt → Prop} (R' : α → Stmt → Stmt → Prop) (h : P.Holds R s₁ s₂)
    (hact : ∀ st₁ st₂ c, R st₁ st₂ →
      (act st₁ c).1 = (act st₂ c).1 ∧ (act st₁ c).2.2 = (act st₂ c).2.2 ∧
      (act st₁ c).2.2.faults = c.faults ∧
      R' (act st₁ c).1 (act st₁ c).2.1 (act st₂ c).2.1) :
    rwp (withStmt P.id₁ dead act) (withStmt P.id₂ dead act)
      (fun a s₁ b s₂ => a = b ∧ P.Holds (R' a) s₁ s₂) s₁ s₂ := by
  obtain ⟨st₁, st₂, c, rfl, rfl, hf, h⟩ := h
  obtain ⟨ha, hc, hfaults, hst⟩ := hact st₁ st₂ c h
  rw [rwp, withStmt_eq (Session.stmts_put ..), withStmt_eq (Session.stmts_put ..)]
  simp only [Session.conn_put, Session.put_put, ← hc]
  exact ⟨ha, _, _, _, rfl, rfl, hfaults.trans hf, hst⟩

/-- A call on the common connection. -/
theorem holds_onConn {α : Type} {act : Conn Db → α × Conn Db} {R : Stmt → Stmt → Prop}
    (h : P.Holds R s₁ s₂) (hact : ∀ c, (act c).2.faults = c.faults) :
    rwp (onConn act) (onConn act) (fun a s₁ b s₂ => a = b ∧ P.Holds R s₁ s₂) s₁ s₂ := by
  obtain ⟨st₁, st₂, c, rfl, rfl, hf, h⟩ := h
  exact ⟨rfl, st₁, st₂, _, rfl, rfl, (hact c).trans hf, h⟩

/-! ## Binding -/

/-- A value is bound to both statements, or to none of them. -/
theorem agree_bind (h : P.Agree k s₁ s₂) (i : ℤ) (v : SqlValue) :
    rwp (P.drv.bind P.id₁ i v) (P.drv.bind P.id₂ i v)
      (fun a s₁ b s₂ => a = b ∧ P.Agree k s₁ s₂ ∧
        (a = .ok → 1 ≤ i ∧ (i = k + 1 → P.Agree (k + 1) s₁ s₂))) s₁ s₂ := by
  simp only [drv, driver]
  refine rwp_mono (holds_withStmt (fun a st₁ st₂ => Stmt.Agree P.dialect P.sql k st₁ st₂ ∧
    (a = .ok → 1 ≤ i ∧ (i = k + 1 → Stmt.Agree P.dialect P.sql (k + 1) st₁ st₂))) h
    fun st₁ st₂ c hst => ?_) fun a s₁ b s₂ hab => ?_
  · simp only [Conn.fault]
    cases c.faults .bind c.tick with
    | some f => exact ⟨rfl, rfl, rfl, hst, fun h => absurd h f.code_ne_ok⟩
    | none => exact ⟨(hst.bind i v).1, rfl, rfl, (hst.bind i v).2⟩
  · obtain ⟨rfl, hst⟩ := hab
    refine ⟨rfl, hst.mono fun _ _ h => h.1, fun ha => ⟨?_, fun hi => hst.mono fun _ _ h => ?_⟩⟩
    · obtain ⟨_, _, _, -, -, -, -, hok⟩ := hst
      exact (hok ha).1
    · exact (h.2 ha).2 hi

theorem agree_bindCol {i : ℕ} (h : P.Agree i s₁ s₂) (row : Mem) (nullMap : Option Mem)
    (col : SqlRDBColumnDef) :
    rwp (bindCol P.drv P.id₁ row nullMap i col) (bindCol P.drv P.id₂ row nullMap i col)
      (fun a s₁ b s₂ => a = b ∧ P.Agree 0 s₁ s₂ ∧ (a = .ok → P.Agree (i + 1) s₁ s₂)) s₁ s₂ := by
  unfold bindCol
  cases hb : colBind row nullMap i col with
  | ok v =>
    refine rwp_mono (agree_bind h (i + 1 : ℕ) v) fun a s₁ b s₂ hab => ?_
    obtain ⟨rfl, hk, hok⟩ := hab
    exact ⟨rfl, agree_mono hk (Nat.zero_le _), fun ha => (hok ha).2 (by omega)⟩
  | error r =>
    refine ⟨rfl, agree_mono h (Nat.zero_le _), fun hr => ?_⟩
    obtain rfl : r = .ok := hr
    exact absurd (List.mem_singleton.2 hb.symm) (colBind_sound row nullMap i col)

/-- The columns of a row are bound from the `i`-th on. -/
theorem agree_bindRowFrom {i : ℕ} (h : P.Agree i s₁ s₂) (row : Mem) (nullMap : Option Mem)
    (cols : List SqlRDBColumnDef) :
    rwp (bindRowFrom P.drv P.id₁ row nullMap i cols) (bindRowFrom P.drv P.id₂ row nullMap i cols)
      (fun a s₁ b s₂ => a = b ∧ P.Agree 0 s₁ s₂ ∧
        (a = .ok → P.Agree (i + cols.length) s₁ s₂)) s₁ s₂ := by
  induction cols generalizing i s₁ s₂ with
  | nil => exact ⟨rfl, agree_mono h (Nat.zero_le _), fun _ => h⟩
  | cons col cols ih =>
    rw [bindRowFrom_cons, bindRowFrom_cons]
    refine rwp_seq (agree_bindCol h row nullMap col) fun a s₁ b s₂ hab => ?_
    obtain ⟨rfl, h₀, hok⟩ := hab
    refine rwp_ite (fun ha => ⟨rfl, h₀, fun h => absurd h ha⟩) fun ha => ?_
    rw [List.length_cons, Nat.add_comm cols.length, ← Nat.add_assoc]
    exact ih (hok (not_not.1 ha))

section Conditions

-- its value at a large number is never computed
attribute [local irreducible] cInt

/-- Both computations bind `n` values after the `k`-th, or fail. A success has not reached the end
of the `int`s. -/
def BindsAlike (P : Pair Db) (k n : ℕ)
    (act₁ act₂ : StateM (Session Db) (SqlRDBResult × ℤ)) : Prop :=
  ∀ s₁ s₂, P.Agree k s₁ s₂ → rwp act₁ act₂ (fun a s₁ b s₂ => a = b ∧ P.Agree 0 s₁ s₂ ∧
    (a.1 = .ok → P.Agree (k + n) s₁ s₂ ∧ k + n < 2 ^ 31 ∧ a.2 = cInt (k + n + 1 : ℕ))) s₁ s₂

/-- Two parts of a condition, the second only after a success. -/
theorem BindsAlike.seq {n m : ℕ} {A₁ A₂ : StateM (Session Db) (SqlRDBResult × ℤ)}
    {B₁ B₂ : ℤ → StateM (Session Db) (SqlRDBResult × ℤ)} (hA : P.BindsAlike k n A₁ A₂)
    (hB : k + n < 2 ^ 31 →
      P.BindsAlike (k + n) m (B₁ (cInt (k + n + 1 : ℕ))) (B₂ (cInt (k + n + 1 : ℕ)))) :
    P.BindsAlike k (n + m) (do
        let (r, idx) ← A₁
        if r ≠ .ok then pure (r, idx) else B₁ idx)
      (do
        let (r, idx) ← A₂
        if r ≠ .ok then pure (r, idx) else B₂ idx) := by
  intro s₁ s₂ h
  refine rwp_seq (hA s₁ s₂ h) fun a s₁ b s₂ hab => ?_
  obtain ⟨rfl, h₀, hok⟩ := hab
  obtain ⟨r, idx⟩ := a
  refine rwp_ite (fun hr => ⟨rfl, h₀, fun h => absurd h hr⟩) fun hr => ?_
  obtain ⟨hk, hlt, hidx⟩ := hok (not_not.1 hr)
  simp only at hidx
  subst hidx
  rw [← Nat.add_assoc]
  exact hB hlt s₁ s₂ hk

/-- The values of a condition are bound from the index after the `k`-th on. -/
theorem bindsAlike_bindCondValues (P : Pair Db) (hk : k < 2 ^ 31) (c : SqlRDBCondition) :
    P.BindsAlike k c.leafCount (bindCondValues (P.drv.bind P.id₁) c (cInt (k + 1 : ℕ)))
      (bindCondValues (P.drv.bind P.id₂) c (cInt (k + 1 : ℕ))) := by
  induction c generalizing k with
  | all =>
    intro s₁ s₂ h
    rw [bindCondValues, bindCondValues, rwp_pure, SqlRDBCondition.leafCount, Nat.add_zero]
    exact ⟨rfl, agree_mono h (Nat.zero_le _), fun _ => ⟨h, hk, rfl⟩⟩
  | leaf col op v =>
    intro s₁ s₂ h
    rw [bindCondValues, bindCondValues]
    refine rwp_seq (agree_bind h _ v.toSql) fun a s₁ b s₂ hab => ?_
    obtain ⟨rfl, hk', hok⟩ := hab
    refine ⟨rfl, agree_mono hk' (Nat.zero_le _), fun ha => ?_⟩
    obtain ⟨hpos, hnext⟩ := hok ha
    -- a negative index would have been refused
    have hlt : k + 1 < 2 ^ 31 := by
      by_contra hge
      rw [show ((k + 1 : ℕ) : ℤ) = 2 ^ 31 by omega, cInt_two_pow_31] at hpos
      omega
    have hidx : cInt (k + 1 : ℕ) = (k + 1 : ℕ) := cInt_of_lt (by omega) (by omega)
    refine ⟨hnext hidx, hlt, ?_⟩
    exact congrArg cInt (by rw [hidx]; rfl)
  | and l r ihl ihr => exact (ihl hk).seq fun h => ihr h
  | or l r ihl ihr => exact (ihl hk).seq fun h => ihr h

theorem agree_bindCond (h : P.Agree k s₁ s₂) (hk : k + 1 < 2 ^ 31)
    (cond : Option SqlRDBCondition) :
    rwp (bindCond (P.drv.bind P.id₁) cond (k + 1 : ℕ))
      (bindCond (P.drv.bind P.id₂) cond (k + 1 : ℕ))
      (fun a s₁ b s₂ => a = b ∧ P.Agree 0 s₁ s₂ ∧ (a = .ok →
        P.Agree (k + condLeaves cond) s₁ s₂ ∧ k + condLeaves cond < 2 ^ 31)) s₁ s₂ := by
  have h₀ : P.Agree 0 s₁ s₂ := agree_mono h (Nat.zero_le _)
  have hidx : cInt (k + 1 : ℕ) = (k + 1 : ℕ) := cInt_of_lt (by omega) (by omega)
  have htree : ∀ c : SqlRDBCondition,
      rwp (do let (r, _) ← bindCondValues (P.drv.bind P.id₁) c (k + 1 : ℕ); pure r)
        (do let (r, _) ← bindCondValues (P.drv.bind P.id₂) c (k + 1 : ℕ); pure r)
        (fun a s₁ b s₂ => a = b ∧ P.Agree 0 s₁ s₂ ∧ (a = .ok →
          P.Agree (k + c.leafCount) s₁ s₂ ∧ k + c.leafCount < 2 ^ 31)) s₁ s₂ := by
    intro c
    have hc := bindsAlike_bindCondValues P (k := k) (by omega) c s₁ s₂ h
    rw [hidx] at hc
    refine rwp_seq hc fun a s₁ b s₂ hab => ?_
    obtain ⟨rfl, h₀, hok⟩ := hab
    exact ⟨rfl, h₀, fun ha => ⟨(hok ha).1, (hok ha).2.1⟩⟩
  cases cond with
  | none => exact ⟨rfl, h₀, fun _ => ⟨h, Nat.lt_of_succ_lt hk⟩⟩
  | some c =>
    cases c with
    | all => exact ⟨rfl, h₀, fun _ => ⟨h, Nat.lt_of_succ_lt hk⟩⟩
    | leaf col op v => exact htree _
    | and l r => exact htree _
    | or l r => exact htree _

end Conditions

/-! ## Running -/

/-- Statements that agree on all their parameters step alike. -/
theorem agree_step (h : P.Agree k s₁ s₂) (hk : countParams P.dialect P.sql ≤ k) :
    rwp (P.drv.step P.id₁) (P.drv.step P.id₂)
      (fun a s₁ b s₂ => a = b ∧ P.Agree k s₁ s₂) s₁ s₂ := by
  simp only [drv, driver]
  refine holds_withStmt _ h fun st₁ st₂ c hst => ?_
  obtain ⟨hr, hc, hf, hst'⟩ := hst.step (e := P.engine) hk c
  refine ⟨?_, hc, hf, hst'⟩
  obtain ⟨_, _, _, h₁, h₂, -⟩ := hst'
  rw [hr, h₁, h₂]

theorem agree_reset (h : P.Agree k s₁ s₂) :
    rwp (P.drv.reset P.id₁) (P.drv.reset P.id₂)
      (fun a s₁ b s₂ => a = b ∧ P.Agree k s₁ s₂) s₁ s₂ := by
  simp only [drv, driver]
  exact holds_withStmt _ h fun st₁ st₂ c hst => ⟨rfl, rfl, rfl, hst.reset⟩

theorem agree_columnInt64 (h : P.Agree k s₁ s₂) (i : ℕ) :
    rwp (P.drv.columnInt64 P.id₁ i) (P.drv.columnInt64 P.id₂ i)
      (fun a s₁ b s₂ => a = b ∧ P.Agree k s₁ s₂) s₁ s₂ := by
  simp only [drv, driver, onColumn]
  exact holds_withStmt _ h fun st₁ st₂ c hst => ⟨by rw [hst.column_eq], rfl, rfl, hst⟩

theorem agree_readCount (h : P.Agree k s₁ s₂) (r : SqlRDBResult) (hasRow : Bool) (old : ℕ) :
    rwp (readCount P.drv P.id₁ r hasRow old) (readCount P.drv P.id₂ r hasRow old)
      (fun a s₁ b s₂ => a = b ∧ P.Agree k s₁ s₂) s₁ s₂ := by
  refine rwp_ite (fun _ => rwp_seq (agree_columnInt64 h 0) fun a s₁ b s₂ hab => ?_)
    fun _ => ⟨rfl, h⟩
  obtain ⟨rfl, h⟩ := hab
  exact ⟨rfl, h⟩

/-- Both current rows are read alike. -/
theorem agree_readRow (h : P.Agree k s₁ s₂) (schema : SqlRDBSchema) (row : Buffer)
    (nullMap : Option Mem) :
    rwp (internalTmReadRow P.drv P.id₁ schema row nullMap)
      (internalTmReadRow P.drv P.id₂ schema row nullMap)
      (fun a s₁ b s₂ => a = b ∧ P.Agree k s₁ s₂) s₁ s₂ := by
  have h' := h
  obtain ⟨st₁, st₂, c, rfl, rfl, -, hst⟩ := h
  rw [rwp, internalTmReadRow_eq (Session.stmts_put ..), internalTmReadRow_eq (Session.stmts_put ..),
    hst.column_eq]
  exact ⟨rfl, h'⟩

/-- A batch is written alike. -/
theorem agree_writeRows (h : P.Agree 0 s₁ s₂) {schema : SqlRDBSchema}
    (hn : countParams P.dialect P.sql = schema.cols.length) (rows : Mem) (stride : ℕ)
    (nullMaps : Option Mem) (n i : ℕ) :
    rwp (writeRows P.drv P.id₁ schema rows stride nullMaps n i)
      (writeRows P.drv P.id₂ schema rows stride nullMaps n i)
      (fun a s₁ b s₂ => a = b ∧ P.Agree 0 s₁ s₂) s₁ s₂ := by
  induction n generalizing i s₁ s₂ with
  | zero => exact ⟨rfl, h⟩
  | succ n ih =>
    unfold writeRows
    refine rwp_seq (agree_bindRowFrom h _ _ schema.cols) fun a s₁ b s₂ hab => ?_
    obtain ⟨rfl, h₀, hok⟩ := hab
    refine rwp_ite (fun _ => ⟨rfl, h₀⟩) fun ha => ?_
    refine rwp_seq (agree_step (hok (not_not.1 ha)) (by omega)) fun a s₁ b s₂ hab => ?_
    obtain ⟨rfl, hk⟩ := hab
    refine rwp_seq (agree_reset hk) fun _ s₁ _ s₂ hab => ?_
    have h₀ := agree_mono hab.2 (Nat.zero_le _)
    exact rwp_ite (fun _ => ⟨rfl, h₀⟩) fun _ => ih h₀ (i + 1)

end Pair

end C2Sql
