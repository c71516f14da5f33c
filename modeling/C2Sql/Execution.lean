import C2Sql.Api.Cursors
import C2Sql.Injection
import C2Sql.Statements
import C2Sql.TypeMapping
import C2Sql.WhereClause

/-!
# Executing a text with values

What it means to execute a text with values on a connection, without a statement: the values are
bound one after the other, and the engine runs the text with them. A statement that is ready does
just that, whatever parameters it has had before.

* `Conn.bindAll`, `Conn.runOnce`: the direct execution;
* `bound_bindRowFrom`, `step_ready`: a ready statement executes directly;
* `countParams_writeSql`: the statement of a write has a parameter for every column.
-/

namespace C2Sql

open StateLogic

variable {Db : Type}

/-! ## Direct execution -/

/-- The values to bind, in order; an error stops the binding before its driver call. -/
abbrev Binds := List (Except SqlRDBResult SqlValue)

/-- The bind calls for a list of values: the values as they are stored, or the first error. -/
def Conn.bindAll : Binds → Conn Db → Except SqlRDBResult (List SqlValue) × Conn Db
  | [], c => (.ok [], c)
  | .error r :: _, c => (.error r, c)
  | .ok v :: binds, c =>
    match c.fault .bind with
    | (some f, c) => (.error f.code, c)
    | (none, c) =>
      let (res, c) := Conn.bindAll binds c
      (res.map (storedValue v :: ·), c)

/-- The first step of a statement with the given values. -/
def Conn.runBound (e : Engine Db) (sql : CStr) (values : List SqlValue) (c : Conn Db) :
    Except SqlRDBResult (List (List SqlValue)) × Conn Db :=
  match c.fault .step with
  | (some f, c) => (.error f.code, c)
  | (none, c) =>
    match c.execute e sql values with
    | some (rows, c) => (.ok rows, c)
    | none => (.error .errDriver, c)

/-- The values are bound, and the engine runs the text. -/
def Conn.runOnce (e : Engine Db) (sql : CStr) (binds : Binds) (c : Conn Db) :
    Except SqlRDBResult (List (List SqlValue)) × Conn Db :=
  match c.bindAll binds with
  | (.error r, c) => (.error r, c)
  | (.ok values, c) => c.runBound e sql values

/-- The result code of an outcome. -/
def resultCode {α : Type} : Except SqlRDBResult α → SqlRDBResult
  | .ok _ => .ok
  | .error r => r

/-- No error has the code of success. -/
def Binds.Sound (binds : Binds) : Prop := Except.error .ok ∉ binds

theorem Conn.bindAll_ne_ok {binds : Binds} (hb : binds.Sound) (c : Conn Db) {r : SqlRDBResult}
    (h : (c.bindAll binds).1 = .error r) : r ≠ .ok := by
  induction binds generalizing c with
  | nil => cases h
  | cons b binds ih =>
    have hb' : Binds.Sound binds := fun hm => hb (List.mem_cons_of_mem b hm)
    cases b with
    | error r' =>
      obtain rfl : r' = r := by simpa [Conn.bindAll] using h
      rintro rfl
      exact hb (List.mem_cons_self ..)
    | ok v =>
      simp only [Conn.bindAll, Conn.fault] at h
      cases hf : c.faults .bind c.tick with
      | some f =>
        simp only [hf] at h
        cases h
        exact f.code_ne_ok
      | none =>
        simp only [hf] at h
        cases hres : (Conn.bindAll binds { c with tick := c.tick + 1 }).1 with
        | ok vs =>
          rw [hres] at h
          cases h
        | error r' =>
          rw [hres] at h
          cases h
          exact ih hb' _ hres

/-! ## Statements -/

/-- A session with another state of one statement and of its connection. -/
def Session.put (s : Session Db) (id : StmtId) (st : Stmt) (c : Conn Db) : Session Db :=
  { s with conn := c, stmts := Function.update s.stmts id (some st) }

section Put

variable (s : Session Db) (id : StmtId) (st st' : Stmt) (c c' : Conn Db)

@[simp]
theorem Session.put_put : (s.put id st c).put id st' c' = s.put id st' c' := by
  simp [Session.put]

@[simp]
theorem Session.stmts_put : (s.put id st c).stmts id = some st := Function.update_self ..

@[simp]
theorem Session.conn_put : (s.put id st c).conn = c := rfl

theorem Session.put_self {s : Session Db} {st : Stmt} (h : s.stmts id = some st) (c : Conn Db) :
    s.put id st c = { s with conn := c } := by
  rw [Session.put, ← h, Function.update_eq_self]

end Put

section Statements

variable {dialect : C2SqlDialect} {e : Engine Db} {s : Session Db} {id : StmtId} {st : Stmt}

/-- A call on a statement that is there. -/
theorem withStmt_eq {α : Type} (hst : s.stmts id = some st) (dead : α)
    (act : Stmt → Conn Db → α × Stmt × Conn Db) :
    withStmt id dead act s =
      ((act st s.conn).1, s.put id (act st s.conn).2.1 (act st s.conn).2.2) := by
  simp only [withStmt, hst]
  rfl

/-- The values `binds` have been bound to the parameters after the `i`-th, up to the first error. -/
def Bound (s : Session Db) (id : StmtId) (st : Stmt) (i : ℕ) (binds : Binds) (r : SqlRDBResult)
    (s' : Session Db) : Prop :=
  r = resultCode (s.conn.bindAll binds).1 ∧
    ∃ ps, s' = s.put id { st with params := ps } (s.conn.bindAll binds).2 ∧
      ∀ vs, (s.conn.bindAll binds).1 = .ok vs → ps = setValues st.params i vs

theorem Bound.nil (hst : s.stmts id = some st) (i : ℕ) : Bound s id st i [] .ok s := by
  refine ⟨rfl, st.params, ?_, fun vs hvs => ?_⟩
  · rw [Session.put_self id hst]
    rfl
  · cases hvs
    exact (setValues_nil _ _).symm

theorem Bound.error (hst : s.stmts id = some st) (i : ℕ) (r : SqlRDBResult) :
    Bound s id st i [.error r] r s := by
  refine ⟨rfl, st.params, ?_, nofun⟩
  rw [Session.put_self id hst]
  rfl

/-- One bind call on a ready statement, for a parameter that it has. -/
theorem bound_bind (hst : s.stmts id = some st) (hcur : st.cursor = .ready) {i : ℕ}
    (hi : i < st.nparams) (v : SqlValue) :
    wp ((driver dialect e).bind id (i + 1 : ℕ) v) (Bound s id st i [.ok v]) s := by
  simp only [wp, driver, withStmt_eq hst, Bound, Conn.bindAll, Conn.fault]
  cases hf : s.conn.faults .bind s.conn.tick with
  | some f => exact ⟨rfl, st.params, rfl, (by rintro _ ⟨⟩)⟩
  | none =>
    have hready : ¬(dialect = .sqlite ∧ st.cursor ≠ .ready) := fun h => h.2 hcur
    have hrange : ¬(((i + 1 : ℕ) : ℤ) < 1 ∨ (st.nparams : ℤ) < (i + 1 : ℕ)) := by omega
    simp only [Stmt.bind, if_neg hready, if_neg hrange]
    refine ⟨rfl, _, rfl, fun vs hvs => ?_⟩
    cases hvs
    exact (setValues_singleton ..).symm

theorem Conn.bindAll_append (a b : Binds) (c : Conn Db) :
    c.bindAll (a ++ b) =
      match c.bindAll a with
      | (.error r, c) => (.error r, c)
      | (.ok vs, c) => ((c.bindAll b).1.map (vs ++ ·), (c.bindAll b).2) := by
  induction a generalizing c with
  | nil =>
    rcases hb : c.bindAll b with ⟨_ | vs, c'⟩ <;> simp [Conn.bindAll, hb, Except.map]
  | cons x a ih =>
    cases x with
    | error r => rfl
    | ok v =>
      simp only [List.cons_append, Conn.bindAll, Conn.fault]
      cases c.faults .bind c.tick with
      | some f => rfl
      | none =>
        simp only [ih]
        rcases Conn.bindAll a { c with tick := c.tick + 1 } with ⟨_ | vs, c'⟩
        · rfl
        · simp only [Except.map]
          cases (c'.bindAll b).1 <;> rfl

theorem Conn.length_bindAll {binds : Binds} {c : Conn Db} {vs : List SqlValue}
    (h : (c.bindAll binds).1 = .ok vs) : vs.length = binds.length := by
  induction binds generalizing c vs with
  | nil =>
    cases h
    rfl
  | cons x binds ih =>
    cases x with
    | error r => cases h
    | ok v =>
      simp only [Conn.bindAll, Conn.fault] at h
      cases hf : c.faults .bind c.tick with
      | some f => simp [hf] at h
      | none =>
        simp only [hf] at h
        cases hres : (Conn.bindAll binds { c with tick := c.tick + 1 }).1 with
        | error r => simp [hres, Except.map] at h
        | ok vs' =>
          rw [hres] at h
          cases h
          rw [List.length_cons, ih hres, List.length_cons]

/-- Two bindings in sequence, the second only after a success. -/
theorem Bound.seq {a b : Binds} (ha : a.Sound) {i : ℕ}
    {A B : StateM (Session Db) SqlRDBResult} (hA : wp A (Bound s id st i a) s)
    (hB : ∀ s₁ ps, s₁.stmts id = some { st with params := ps } →
      wp B (Bound s₁ id { st with params := ps } (i + a.length) b) s₁) :
    wp (do let r ← A; if r ≠ .ok then pure r else B) (Bound s id st i (a ++ b)) s := by
  rw [wp_bind]
  refine wp_mono hA fun r s₁ hr => ?_
  have happ := Conn.bindAll_append a b s.conn
  rcases hres : s.conn.bindAll a with ⟨r' | vs, c⟩
  · -- an error of the first stops the second
    simp only [Bound, hres, resultCode] at hr
    obtain ⟨rfl, ps, rfl, -⟩ := hr
    have hne : r ≠ .ok := Conn.bindAll_ne_ok ha s.conn (by rw [hres])
    rw [wp_ite, if_pos hne, wp_pure]
    simp only [Bound, happ, hres]
    exact ⟨rfl, ps, rfl, nofun⟩
  · simp only [Bound, hres, resultCode] at hr
    obtain ⟨rfl, ps, rfl, hps⟩ := hr
    have hlen : vs.length = a.length := Conn.length_bindAll (c := s.conn) (by rw [hres])
    rw [wp_ite, if_neg (not_not.2 rfl)]
    refine wp_mono (hB _ ps (Session.stmts_put ..)) fun r s₂ hr => ?_
    simp only [Bound, Session.conn_put, Session.put_put, happ, hres] at hr ⊢
    obtain ⟨rfl, ps₂, rfl, hps₂⟩ := hr
    refine ⟨?_, ps₂, rfl, fun ws hws => ?_⟩
    · cases (c.bindAll b).1 <;> rfl
    · cases hb : (c.bindAll b).1 with
      | error r => simp [hb, Except.map] at hws
      | ok us =>
        rw [hb] at hws
        cases hws
        rw [hps₂ us hb, hps vs rfl, ← hlen, setValues_append]

/-! ## Rows -/

/-- What `bind_row` binds for the `i`-th column. -/
def colBind (row : Mem) (nullMap : Option Mem) (i : ℕ) (col : SqlRDBColumnDef) :
    Except SqlRDBResult SqlValue :=
  if nullBitGet nullMap i then
    if !col.nullable then .error .errNotNullViolation else .ok .null
  else match boundValue col row with
    | some v => .ok v
    | none => .error .errInternal

/-- What `bind_row` binds for a row, from the `i`-th column on. -/
def rowBinds (row : Mem) (nullMap : Option Mem) : ℕ → List SqlRDBColumnDef → Binds
  | _, [] => []
  | i, col :: cols => colBind row nullMap i col :: rowBinds row nullMap (i + 1) cols

theorem length_rowBinds (row : Mem) (nullMap : Option Mem) (i : ℕ) (cols : List SqlRDBColumnDef) :
    (rowBinds row nullMap i cols).length = cols.length := by
  induction cols generalizing i with
  | nil => rfl
  | cons col cols ih => rw [rowBinds, List.length_cons, ih, List.length_cons]

theorem colBind_sound (row : Mem) (nullMap : Option Mem) (i : ℕ) (col : SqlRDBColumnDef) :
    Binds.Sound [colBind row nullMap i col] := by
  rw [Binds.Sound, List.mem_singleton, colBind]
  split_ifs
  · nofun
  · nofun
  · cases boundValue col row <;> nofun

theorem rowBinds_sound (row : Mem) (nullMap : Option Mem) (i : ℕ) (cols : List SqlRDBColumnDef) :
    (rowBinds row nullMap i cols).Sound := by
  induction cols generalizing i with
  | nil => exact List.not_mem_nil
  | cons col cols ih =>
    rw [rowBinds, Binds.Sound, List.mem_cons, not_or]
    exact ⟨fun h => colBind_sound row nullMap i col (List.mem_singleton.2 h), ih _⟩

/-- The bind call for a column, if there is one. -/
def bindCol {σ : Type} (d : SqlRDBDriver σ) (id : StmtId) (row : Mem) (nullMap : Option Mem)
    (i : ℕ) (col : SqlRDBColumnDef) : StateM σ SqlRDBResult :=
  match colBind row nullMap i col with
  | .ok v => d.bind id (i + 1 : ℕ) v
  | .error r => pure r

/-- A row is bound column by column. -/
theorem bindRowFrom_cons {σ : Type} (d : SqlRDBDriver σ) (id : StmtId) (row : Mem)
    (nullMap : Option Mem) (i : ℕ) (col : SqlRDBColumnDef) (cols : List SqlRDBColumnDef) :
    bindRowFrom d id row nullMap i (col :: cols) = (do
      let r ← bindCol d id row nullMap i col
      if r ≠ .ok then pure r else bindRowFrom d id row nullMap (i + 1) cols) := by
  rw [bindRowFrom, bindCol, colBind, bindOne]
  split_ifs
  · rfl
  · rfl
  · cases boundValue col row <;> rfl

/-- **A row is bound to a ready statement** that has a parameter for every column. -/
theorem bound_bindRowFrom (row : Mem) (nullMap : Option Mem) {cols : List SqlRDBColumnDef} {i : ℕ}
    (hst : s.stmts id = some st) (hcur : st.cursor = .ready)
    (hn : i + cols.length ≤ st.nparams) :
    wp (bindRowFrom (driver dialect e) id row nullMap i cols)
      (Bound s id st i (rowBinds row nullMap i cols)) s := by
  induction cols generalizing s st i with
  | nil => exact Bound.nil hst i
  | cons col cols ih =>
    rw [List.length_cons] at hn
    rw [bindRowFrom_cons]
    refine Bound.seq (b := rowBinds row nullMap (i + 1) cols) (colBind_sound row nullMap i col) ?_
      fun s₁ ps hst₁ =>
        ih hst₁ hcur (show i + 1 + cols.length ≤ st.nparams by omega)
    rw [bindCol]
    cases colBind row nullMap i col with
    | ok v => exact bound_bind hst hcur (by omega) v
    | error r => exact Bound.error hst i r

/-! ## Steps -/

/-- The values of a statement all of whose parameters have been bound. -/
theorem values_setValues (st : Stmt) {vs : List SqlValue} (ps : ℕ → SqlValue)
    (hn : st.nparams = vs.length) :
    ({ st with params := setValues ps 0 vs } : Stmt).values = vs := by
  simp only [Stmt.values, hn]
  refine List.ext_getElem (by simp) fun i h₁ h₂ => ?_
  simp [setValues, h₂]

/-- The first step of a ready statement. -/
theorem step_ready (hst : s.stmts id = some st) (hcur : st.cursor = .ready) :
    wp ((driver dialect e).step id) (fun res s' =>
      ∃ cur, s' = s.put id { st with cursor := cur } (s.conn.runBound e st.sql st.values).2 ∧
        res.1 = resultCode (s.conn.runBound e st.sql st.values).1 ∧
        ∀ rows, (s.conn.runBound e st.sql st.values).1 = .ok rows →
          cur = .at rows ∧ res.2 = (Cursor.at rows).hasRow) s := by
  simp only [wp, driver, withStmt_eq hst, Stmt.step, Conn.runBound, Conn.fault]
  cases s.conn.faults .step s.conn.tick with
  | some f => exact ⟨_, rfl, rfl, (by rintro _ ⟨⟩)⟩
  | none =>
    simp only [Stmt.advance, hcur, Stmt.start]
    cases Conn.execute e { s.conn with tick := s.conn.tick + 1 } st.sql st.values with
    | none => exact ⟨_, rfl, rfl, (by rintro _ ⟨⟩)⟩
    | some o =>
      refine ⟨_, rfl, rfl, fun rows hrows => ?_⟩
      cases hrows
      exact ⟨rfl, rfl⟩

theorem Stmt.sql_reset (dialect : C2SqlDialect) (st : Stmt) : (st.reset dialect).sql = st.sql := by
  cases dialect <;> rfl

theorem Stmt.nparams_reset (dialect : C2SqlDialect) (st : Stmt) :
    (st.reset dialect).nparams = st.nparams := by
  cases dialect <;> rfl

theorem Stmt.cursor_reset (dialect : C2SqlDialect) (st : Stmt) :
    (st.reset dialect).cursor = .ready := by
  cases dialect <;> rfl

/-- A reset makes a statement ready. -/
theorem reset_spec (hst : s.stmts id = some st) :
    (driver dialect e).reset id s = (.ok, s.put id (st.reset dialect) s.conn) := by
  simp only [driver, withStmt_eq hst]

/-- A statement in use may change, and its connection. -/
theorem InUse.put {h : SqlRDBHandle (Session Db)} {sql : CStr} {owned : Bool}
    (hu : InUse dialect e sql id owned h) (st : Stmt) (c : Conn Db) :
    InUse dialect e sql id owned { h with ctx := h.ctx.put id st c } := by
  obtain ⟨l, hrep, hl, hmem⟩ := hu
  refine ⟨l, hrep, ⟨hl.nodup, hl.lt_next, hl.compiles, fun p hp hid => ?_⟩, hmem⟩
  obtain ⟨st', hst', hf⟩ := hl.fresh p hp hid
  have hne : p.2 ≠ id := fun h => hid (congrArg some h)
  exact ⟨st', (Function.update_of_ne hne ..).trans hst', hf⟩

/-- The statement in use is given back after it has changed. -/
theorem release_put {h : SqlRDBHandle (Session Db)} {sql : CStr} {owned : Bool}
    (hu : InUse dialect e sql id owned h) (hsql : st.sql = sql)
    (hn : st.nparams = countParams dialect sql) (c : Conn Db) :
    wp (releaseCachedStmt (driver dialect e) id owned)
      (fun _ h' => CacheSound dialect e h' ∧ h'.view = { h.view with ctx := c })
      { h with ctx := h.ctx.put id st c } :=
  wp_mono (releaseCachedStmt_spec (hu.put st c) (Session.stmts_put ..) hsql hn)
    fun _ _ hrel => ⟨hrel.2, hrel.1⟩

end Statements

/-! ## The parameters of a statement -/

/-- Both drivers count the placeholders of a built text right. -/
theorem Built.countParams_eq {names : CStr → Prop} {d : C2SqlDialect} {n : ℕ} {text : CStr}
    (h : Built names d n text) (hnames : ∀ x, names x → SqlText.byte '$' ∉ x) (hn : n < 2 ^ 31) :
    countParams d text = n := by
  cases d with
  | sqlite => exact h.length_params
  | postgres => rw [countParams, h.pgCountParams_eq hnames hn, Int.toNat_natCast]

/-- The statement of an operation with a condition has a parameter for every leaf, and one before
them if it updates a field. -/
theorem SqlRDBQuerySpec.Admissible.countParams_eq {spec : SqlRDBQuerySpec} (h : spec.Admissible)
    (hop : isCondOp spec.op = true) {sql : CStr} {n : ℕ}
    (hb : internalQbBuild spec = .ok (sql, n))
    (hlt : (headText spec.op spec.schema spec.dialect []).2 + condLeaves spec.cond < 2 ^ 31) :
    countParams spec.dialect sql =
      (headText spec.op spec.schema spec.dialect []).2 + condLeaves spec.cond := by
  have hk : ¬spec.NamesUnknown := fun hunk => by
    rw [h.build_eq_error hunk] at hb
    cases hb
  obtain ⟨text, hok, hbuilt⟩ := h.built_cond hop hk
  cases hb.symm.trans hok
  exact hbuilt.countParams_eq (fun _ hx => h.dollar_not_mem hx) hlt

/-- The text of `SqlRDBWrite` and `SqlRDBWriteMany`. -/
def writeSql (dialect : C2SqlDialect) (schema : SqlRDBSchema) : CStr :=
  (if schema.pkIndex.isSome then buildUpsert schema dialect 0 else buildInsert schema dialect 0).1

theorem internalQbBuild_writeSpec (dialect : C2SqlDialect) (schema : SqlRDBSchema) :
    ∃ n, internalQbBuild (writeSpec dialect schema) = .ok (writeSql dialect schema, n) := by
  unfold writeSpec writeSql
  split_ifs
  · exact ⟨_, rfl⟩
  · exact ⟨_, rfl⟩

/-- The statement of a write has a parameter for every column. -/
theorem countParams_writeSql (dialect : C2SqlDialect) {schema : SqlRDBSchema}
    (hs : schema.WellFormed) :
    countParams dialect (writeSql dialect schema) = schema.cols.length := by
  have hlen := hs.length_le
  have hmax : maxColumns = 64 := rfl
  have hbuilt : Built (fun x => x = schema.name ∨ ∃ c ∈ schema.cols, c.name = x) dialect
      schema.cols.length (writeSql dialect schema) := by
    unfold writeSql
    split_ifs with hpk
    · exact (pieces_buildUpsert hs (.inl rfl) (fun c hc => .inr ⟨c, hc, rfl⟩) hpk (by omega)).built
    · exact (pieces_buildInsert hs (.inl rfl) (fun c hc => .inr ⟨c, hc, rfl⟩) (by omega)).built
  refine hbuilt.countParams_eq ?_ (by omega)
  rintro x (rfl | ⟨c, hc, rfl⟩)
  · exact not_mem_of_identifierValid hs.name_valid rfl
  · exact not_mem_of_identifierValid (hs.col_valid c hc) rfl

section CountParams

variable {dialect : C2SqlDialect}

/-- The statement of a write has a parameter for every column. -/
theorem countParams_of_write {schema : SqlRDBSchema} (hwf : schema.WellFormed) {sql : CStr} {n : ℕ}
    (hb : internalQbBuild (writeSpec dialect schema) = .ok (sql, n)) :
    countParams dialect sql = schema.cols.length := by
  obtain ⟨m, hbuild⟩ := internalQbBuild_writeSpec dialect schema
  cases hb.symm.trans hbuild
  exact countParams_writeSql dialect hwf

/-- The statement of an operation with a condition has a parameter for every leaf. -/
theorem countParams_of_cond {schema : SqlRDBSchema} (hwf : schema.WellFormed) {op : C2SqlQBOp}
    (hop : isCondOp op = true) (hf : isFieldOp op = false) {cond : Option SqlRDBCondition}
    {sql : CStr} {n : ℕ} (hb : internalQbBuild (condSpec op cond dialect schema) = .ok (sql, n))
    (hlt : 0 + condLeaves cond < 2 ^ 31) : countParams dialect sql = 0 + condLeaves cond := by
  have hhead : (headText op schema dialect []).2 = 0 := by
    cases op <;> simp_all [headText, isFieldOp]
  have hadm : (condSpec op cond dialect schema).Admissible := {
    accepted := (SqlRDBSchema.accepted_iff schema).2 hwf
    upsert_pk := fun h => by
      obtain rfl : op = .upsert := h
      cases hop
    target := fun h => by
      rw [show isFieldOp (condSpec op cond dialect schema).op = isFieldOp op from rfl, hf] at h
      cases h
    newCol := fun h => by
      obtain rfl : op = .alterAdd := h
      cases hop
    leaves := by
      change condLeaves cond < 2 ^ 31
      omega }
  have hn := hadm.countParams_eq hop hb
  simp only [condSpec, hhead] at hn
  exact hn hlt

/-- The statement of an operation on one column has a parameter for every leaf of its key, and one
for the new value. -/
theorem countParams_of_field {schema : SqlRDBSchema} (hwf : schema.WellFormed) {op : C2SqlQBOp}
    (hop : isFieldOp op = true) {key : SqlRDBCondition} {col sql : CStr} {n : ℕ}
    (hb : internalQbBuild (fieldSpec op key col dialect schema) = .ok (sql, n))
    (hlt : (headText op schema dialect []).2 + condLeaves (some key) < 2 ^ 31) :
    countParams dialect sql = (headText op schema dialect []).2 + condLeaves (some key) := by
  have hcond : isCondOp op = true := by
    cases op <;> first | rfl | cases hop
  have hadm : (fieldSpec op key col dialect schema).Admissible := {
    accepted := (SqlRDBSchema.accepted_iff schema).2 hwf
    upsert_pk := fun h => by
      obtain rfl : op = .upsert := h
      cases hop
    target := fun _ => rfl
    newCol := fun h => by
      obtain rfl : op = .alterAdd := h
      cases hop
    leaves := by
      change condLeaves (some key) < 2 ^ 31
      omega }
  exact hadm.countParams_eq hcond hb hlt

end CountParams

end C2Sql
