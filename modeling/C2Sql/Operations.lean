import C2Sql.Reading
import C2Sql.WriteMany

/-!
# What a call does on the database

The calls on rows, as executions of the texts that are built for them. A call opens a statement of
its text, binds its values and steps it; `Ran` says what one execution does to the connection, for
any engine, and which errors it can end with.

* `BoundTo`, `boundTo_bindCond`: the values of a condition are bound in order;
* `Ran`, `wp_bindCond_step`: one execution of a text with values;
* `wp_openStmt`, `wp_prepareOwn`: a call gets its statement, or an error that leaves the connection
  as it is;
* `write_spec`, `delete_spec`, `count_spec`, `readMany_spec`, `stmtNext_spec`: the calls.
-/

namespace C2Sql

open StateLogic

variable {Db : Type}

/-! ## Binding a condition -/

/-- The values as the drivers hand them to the engine. -/
def storedValues (vs : List SqlValue) : List SqlValue := vs.map storedValue

theorem length_storedValues (vs : List SqlValue) : (storedValues vs).length = vs.length :=
  List.length_map _

/-- The bind calls for `vs` after the `n`-th parameter have returned `r`: a success has stored the
values, and without failing calls nothing but their number stands in its way. -/
structure BoundTo (s : Session Db) (id : StmtId) (st : Stmt) (n : ℕ) (vs : List SqlValue)
    (r : SqlRDBResult) (s' : Session Db) : Prop where
  put : ∃ ps t, s' = s.put id { st with params := ps } { s.conn with tick := t } ∧
    (r = .ok → ps = setValues st.params n (storedValues vs))
  range : r = .ok → n + vs.length < 2 ^ 31 ∧ n + vs.length ≤ st.nparams
  ok : (∀ k, s.conn.faults .bind k = none) → n + vs.length < 2 ^ 31 → n + vs.length ≤ st.nparams →
    r = .ok

section Binding

variable {dialect : C2SqlDialect} {e : Engine Db} {s : Session Db} {id : StmtId} {st : Stmt}

theorem BoundTo.nil (hst : s.stmts id = some st) {n : ℕ} (hn : n < 2 ^ 31)
    (hn' : n ≤ st.nparams) : BoundTo s id st n [] .ok s where
  put := ⟨st.params, s.conn.tick, (Session.put_self id hst s.conn).symm,
    fun _ => (setValues_nil ..).symm⟩
  range := fun _ => ⟨hn, hn'⟩
  ok := fun _ _ _ => rfl

/-- One bind call on a ready statement. -/
theorem boundTo_bind (hst : s.stmts id = some st) (hcur : st.cursor = .ready) {n : ℕ}
    (hn : n < 2 ^ 31) (v : SqlValue) :
    wp ((driver dialect e).bind id (cInt (n + 1 : ℕ)) v) (BoundTo s id st n [v]) s := by
  have hready : ¬(dialect = .sqlite ∧ st.cursor ≠ .ready) := fun h => h.2 hcur
  have hkeep : ∀ r t, r ≠ .ok → ((∀ k, s.conn.faults .bind k = none) → n + 1 < 2 ^ 31 →
      n + 1 ≤ st.nparams → r = .ok) →
      BoundTo s id st n [v] r (s.put id st { s.conn with tick := t }) :=
    fun r t hr hok => ⟨⟨st.params, t, rfl, fun h => absurd h hr⟩, fun h => absurd h hr, hok⟩
  simp only [wp, driver, withStmt_eq hst, Conn.fault]
  cases hf : s.conn.faults .bind s.conn.tick with
  | some f => exact hkeep _ _ f.code_ne_ok fun h => by simp [h] at hf
  | none =>
    have hrange : (cInt (n + 1 : ℕ) < 1 ∨ (st.nparams : ℤ) < cInt (n + 1 : ℕ)) ↔
        ¬(n + 1 < 2 ^ 31 ∧ n + 1 ≤ st.nparams) := by
      by_cases hlast : n + 1 < 2 ^ 31
      · rw [cInt_of_lt (by omega) (by omega)]
        omega
      · rw [show ((n + 1 : ℕ) : ℤ) = 2 ^ 31 by omega, cInt_two_pow_31]
        omega
    simp only [Stmt.bind, if_neg hready, hrange]
    split_ifs with hin
    · refine ⟨⟨_, _, rfl, fun _ => ?_⟩, fun _ => hin, fun _ _ _ => rfl⟩
      rw [storedValues, List.map_singleton, setValues_singleton,
        cInt_of_lt (by omega) (by omega)]
      rfl
    · refine hkeep _ _ ?_ fun _ h₁ h₂ => absurd ⟨h₁, h₂⟩ hin
      cases dialect <;> rintro ⟨⟩

/-- Two bindings in sequence, the second only after a success. -/
theorem BoundTo.seq {n : ℕ} {a b : List SqlValue} {r : SqlRDBResult} {s₁ s₂ : Session Db}
    (ha : BoundTo s id st n a .ok s₁)
    (hb : ∀ ps t, s₁ = s.put id { st with params := ps } { s.conn with tick := t } →
      BoundTo s₁ id { st with params := ps } (n + a.length) b r s₂) :
    BoundTo s id st n (a ++ b) r s₂ := by
  obtain ⟨ps, t, rfl, hps⟩ := ha.put
  obtain rfl := hps rfl
  obtain ⟨⟨ps₂, t₂, rfl, hps₂⟩, hrange, hok⟩ := hb _ t rfl
  have hlen : n + (a ++ b).length = n + a.length + b.length := by
    rw [List.length_append, Nat.add_assoc]
  refine ⟨⟨ps₂, t₂, Session.put_put .., fun hr => ?_⟩, hlen ▸ hrange, fun hf h₁ h₂ => ?_⟩
  · rw [hps₂ hr, storedValues, storedValues, storedValues, List.map_append, ← setValues_append,
      List.length_map]
  · rw [hlen] at h₁ h₂
    exact hok hf h₁ h₂

/-- A first binding that fails. -/
theorem BoundTo.fail {n : ℕ} {a : List SqlValue} (b : List SqlValue) {r : SqlRDBResult}
    {s₁ : Session Db} (ha : BoundTo s id st n a r s₁) (hr : r ≠ .ok) :
    BoundTo s id st n (a ++ b) r s₁ := by
  obtain ⟨ps, t, hs₁, -⟩ := ha.put
  refine ⟨⟨ps, t, hs₁, fun h => absurd h hr⟩, fun h => absurd h hr, fun hf h₁ h₂ => ?_⟩
  rw [List.length_append] at h₁ h₂
  exact absurd (ha.ok hf (by omega) (by omega)) hr

/-- The binding of a condition after the `n`-th parameter, which also counts on. -/
def CondBound (s : Session Db) (id : StmtId) (st : Stmt) (n : ℕ) (vs : List SqlValue)
    (res : SqlRDBResult × ℤ) (s' : Session Db) : Prop :=
  BoundTo s id st n vs res.1 s' ∧ (res.1 = .ok → res.2 = cInt (n + vs.length + 1 : ℕ))

theorem CondBound.seq {n : ℕ} {a b : List SqlValue}
    {A : StateM (Session Db) (SqlRDBResult × ℤ)} {B : ℤ → StateM (Session Db) (SqlRDBResult × ℤ)}
    (hA : wp A (CondBound s id st n a) s)
    (hB : n + a.length < 2 ^ 31 → n + a.length ≤ st.nparams → ∀ s₁ ps,
      s₁.stmts id = some { st with params := ps } →
      wp (B (cInt (n + a.length + 1 : ℕ)))
        (CondBound s₁ id { st with params := ps } (n + a.length) b) s₁) :
    wp (do let (r, idx) ← A; if r ≠ .ok then pure (r, idx) else B idx)
      (CondBound s id st n (a ++ b)) s := by
  rw [wp_bind]
  refine wp_mono hA ?_
  rintro ⟨r, idx⟩ s₁ ⟨ha, hidx⟩
  rw [wp_ite]
  split_ifs with hr
  · exact ⟨ha.fail b hr, fun h => absurd h hr⟩
  · obtain rfl : r = .ok := not_not.1 hr
    have hidx' : idx = cInt (n + a.length + 1 : ℕ) := hidx rfl
    rw [hidx']
    obtain ⟨ps, t, hs₁, -⟩ := ha.put
    have hst₁ : s₁.stmts id = some { st with params := ps } := by
      rw [hs₁]
      exact Session.stmts_put ..
    refine wp_mono (hB (ha.range rfl).1 (ha.range rfl).2 s₁ ps hst₁) fun res s₂ hres => ?_
    refine ⟨ha.seq fun ps' t' hs₁' => ?_, fun h => ?_⟩
    · have hps : (some { st with params := ps' } : Option Stmt) =
          some { st with params := ps } := by
        rw [← hst₁, hs₁', Session.stmts_put]
      have heq := congrArg Stmt.params (Option.some.inj hps)
      obtain rfl : ps' = ps := heq
      exact hres.1
    · rw [hres.2 h, List.length_append, Nat.add_assoc n]

/-- **The values of a condition are bound in order** to a ready statement. -/
theorem condBound_bindCondValues (c : SqlRDBCondition) (hst : s.stmts id = some st)
    (hcur : st.cursor = .ready) {n : ℕ} (hn : n < 2 ^ 31) (hn' : n ≤ st.nparams) :
    wp (bindCondValues ((driver dialect e).bind id) c (cInt (n + 1 : ℕ)))
      (CondBound s id st n c.leafValues) s := by
  induction c generalizing s st n with
  | all =>
    rw [bindCondValues, wp_pure]
    refine ⟨.nil hst hn hn', fun _ => ?_⟩
    simp only [SqlRDBCondition.leafValues, List.length_nil, Nat.add_zero]
  | leaf col op v =>
    rw [bindCondValues, wp_bind]
    refine wp_mono (boundTo_bind hst hcur hn v.toSql) fun r s₁ hr => ?_
    rw [wp_pure]
    refine ⟨hr, fun h => ?_⟩
    have hlt : n + 1 < 2 ^ 31 := (hr.range h).1
    have hidx : cInt (n + 1 : ℕ) = (n + 1 : ℕ) := cInt_of_lt (by omega) (by omega)
    simp only [SqlRDBCondition.leafValues, List.length_singleton, Nat.cast_succ (n + 1), hidx]
  | and l r ihl ihr =>
    exact CondBound.seq (ihl hst hcur hn hn') fun h h' s₁ ps hst₁ => ihr hst₁ hcur h h'
  | or l r ihl ihr =>
    exact CondBound.seq (ihl hst hcur hn hn') fun h h' s₁ ps hst₁ => ihr hst₁ hcur h h'

/-- The values of an optional condition. -/
theorem boundTo_bindCond (cond : Option SqlRDBCondition) (hst : s.stmts id = some st)
    (hcur : st.cursor = .ready) {n : ℕ} (hn : n < 2 ^ 31 - 1) (hn' : n ≤ st.nparams) :
    wp (bindCond ((driver dialect e).bind id) cond (n + 1 : ℕ))
      (BoundTo s id st n (condValues cond)) s := by
  cases cond with
  | none => exact .nil hst (by omega) hn'
  | some c =>
    rw [wp, bindCond_eq]
    have hc : wp (bindCondValues ((driver dialect e).bind id) c (cInt (n + 1 : ℕ)))
        (CondBound s id st n c.leafValues) s :=
      condBound_bindCondValues c hst hcur (by omega) hn'
    have hidx : cInt (n + 1 : ℕ) = (n + 1 : ℕ) := cInt_of_lt (by omega) (by omega)
    rw [hidx] at hc
    exact hc.1

end Binding

/-! ## One execution -/

/-- A statement has been run once with the values `vs`, or could not be: an error leaves the
database alone, and is due to a failing call, the number of values or the engine. -/
structure Ran (e : Engine Db) (sql : CStr) (vs : List SqlValue) (c : Conn Db)
    (res : Except SqlRDBResult (List (List SqlValue))) (c' : Conn Db) : Prop where
  error : ∀ r, res = .error r → r ≠ .ok ∧ ∃ t, c' = { c with tick := t }
  ok : ∀ rows, res = .ok rows → ∃ o t, vs.length < 2 ^ 31 ∧
    e.run sql (storedValues vs) c.store.contents = some o ∧ rows = o.rows ∧
    c' = { c with
      store := { c.store with contents := o.db }
      changes := o.changes.getD c.changes
      tick := t }
  runs : (∀ call k, c.faults call k = none) → vs.length < 2 ^ 31 → ∀ o,
    e.run sql (storedValues vs) c.store.contents = some o → ∃ rows, res = .ok rows

/-- The first step of a statement whose parameters have been bound. -/
theorem Ran.of_runBound {e : Engine Db} {sql : CStr} {vs : List SqlValue} {c : Conn Db}
    (hlen : vs.length < 2 ^ 31) (t : ℕ) :
    Ran e sql vs c (({ c with tick := t }).runBound e sql (storedValues vs)).1
      (({ c with tick := t }).runBound e sql (storedValues vs)).2 := by
  simp only [Conn.runBound, Conn.fault, Conn.execute]
  cases hf : c.faults .step t with
  | some f =>
    refine ⟨fun r hr => ?_, (by rintro _ ⟨⟩), fun h => by simp [h] at hf⟩
    cases hr
    exact ⟨f.code_ne_ok, _, rfl⟩
  | none =>
    dsimp only
    cases ho : e.run sql (storedValues vs) c.store.contents with
    | none =>
      refine ⟨fun r hr => ?_, (by rintro _ ⟨⟩), fun _ _ o ho' => ?_⟩
      · cases hr
        exact ⟨(by rintro ⟨⟩), _, rfl⟩
      · cases ho'.symm.trans ho
    | some o =>
      refine ⟨(by rintro _ ⟨⟩), fun rows hrows => ?_, fun _ _ _ _ => ⟨_, rfl⟩⟩
      cases hrows
      exact ⟨o, _, hlen, ho, rfl, rfl⟩

/-- A statement has a parameter for each of the values, unless there are too many to count. -/
def ParamsFor (dialect : C2SqlDialect) (sql : CStr) (vs : List SqlValue) : Prop :=
  vs.length < 2 ^ 31 → countParams dialect sql = vs.length

/-- A statement whose parameters could not be bound. -/
theorem BoundTo.ran {dialect : C2SqlDialect} {e : Engine Db} {s s' : Session Db} {id : StmtId}
    {st : Stmt} {vs : List SqlValue} {r : SqlRDBResult} (hb : BoundTo s id st 0 vs r s')
    (hr : r ≠ .ok) (hnp : st.nparams = countParams dialect st.sql)
    (hn : ParamsFor dialect st.sql vs) : Ran e st.sql vs s.conn (.error r) s'.conn := by
  obtain ⟨ps, t', rfl, -⟩ := hb.put
  refine ⟨fun r' h => ?_, nofun, fun hf hlen o ho => ?_⟩
  · cases h
    exact ⟨hr, t', rfl⟩
  · have hok := hb.ok (hf .bind)
    rw [Nat.zero_add, hnp] at hok
    exact absurd (hok hlen (hn hlen).ge) hr

section Calls

variable {dialect : C2SqlDialect} {e : Engine Db} {h : SqlRDBHandle (Session Db)}

/-- Nothing fails on its own. -/
structure SqlRDBHandle.Calm (h : SqlRDBHandle (Session Db)) : Prop where
  faults : ∀ call k, h.ctx.conn.faults call k = none
  heap : ∀ k, h.heap.fails k = false

/-- A handle without its driver context, its error context, its mutex and what the allocator has
done. -/
def SqlRDBHandle.shell {σ : Type} (h : SqlRDBHandle σ) : SqlRDBHandle Unit :=
  { h with
    ctx := ()
    error := ⟨.ok, []⟩
    mutex := ⟨false, 0, 0⟩
    heap := { h.heap with corrupt := false } }

/-- What the calls on rows keep of a handle: its schemas, configuration and transaction state, and
which allocations fail. -/
def SqlRDBHandle.frame (h : SqlRDBHandle (Session Db)) : SqlRDBHandle Unit := h.view.shell

theorem SqlRDBHandle.frame_of_view {h' : SqlRDBHandle (Session Db)} {v : SqlRDBHandle (Conn Db)}
    (hv : h'.view = v) (hs : v.shell = h.frame) : h'.frame = h.frame := by
  rw [SqlRDBHandle.frame, hv, hs]

section Frame

variable {h' : SqlRDBHandle (Session Db)} (hframe : h'.frame = h.frame)

include hframe

theorem SqlRDBHandle.valid_of_frame : h'.valid = h.valid :=
  congrArg (fun v : SqlRDBHandle Unit => v.magic == handleMagic) hframe

theorem SqlRDBHandle.lookup_of_frame (name : CStr) : h'.lookup name = h.lookup name :=
  congrArg (fun v : SqlRDBHandle Unit => v.lookup name) hframe

theorem SqlRDBHandle.deref_of_frame (ptr : SchemaPtr) : h'.deref ptr = h.deref ptr :=
  congrArg (fun v : SqlRDBHandle Unit => v.deref ptr) hframe

theorem SqlRDBHandle.txn_of_frame : h'.txn = h.txn :=
  congrArg (fun v : SqlRDBHandle Unit => v.txn) hframe

theorem SqlRDBHandle.fails_of_frame : h'.heap.fails = h.heap.fails :=
  congrArg (fun v : SqlRDBHandle Unit => v.heap.fails) hframe

end Frame

/-- What is left of a statement that has been run: its text and, after a success, its rows. -/
structure Used (dialect : C2SqlDialect) (sql : CStr)
    (res : Except SqlRDBResult (List (List SqlValue))) (st : Stmt) : Prop where
  sql_eq : st.sql = sql
  nparams_eq : st.nparams = countParams dialect sql
  cursor_eq : ∀ rows, res = .ok rows → st.cursor = .at rows

/-- A statement whose values have been bound is stepped. -/
theorem BoundTo.wp_step {α : Type} {id : StmtId} {st : Stmt} {vs : List SqlValue} {s : Session Db}
    (hb : BoundTo h.ctx id st 0 vs .ok s) (hf : st.Fresh dialect st.sql)
    (hn : ParamsFor dialect st.sql vs) {next : SqlRDBResult × Bool → Api (Session Db) α}
    {Q : α → SqlRDBHandle (Session Db) → Prop}
    (hnext : ∀ res hasRow st' c', Ran e st.sql vs h.ctx.conn res c' →
      Used dialect st.sql res st' → (∀ rows, res = .ok rows → hasRow = (Cursor.at rows).hasRow) →
      wp (next (resultCode res, hasRow)) Q { h with ctx := h.ctx.put id st' c' }) :
    wp (do
      let x ← drv ((driver dialect e).step id)
      next x) Q { h with ctx := s } := by
  have hrange := (hb.range rfl).1
  obtain ⟨ps, t, rfl, hps⟩ := hb.put
  obtain rfl := hps rfl
  rw [Nat.zero_add] at hrange
  have hlen : st.nparams = (storedValues vs).length := by
    rw [length_storedValues, hf.nparams_eq, hn hrange]
  rw [wp_bind, wp_drv]
  refine wp_mono (step_ready (Session.stmts_put ..) hf.cursor_eq) ?_
  rintro ⟨r', hasRow⟩ s₂ ⟨cur, rfl, hcode, hrows⟩
  rw [values_setValues st st.params hlen] at hcode hrows ⊢
  simp only [Session.conn_put, Session.put_put] at hcode hrows ⊢
  rw [hcode]
  exact hnext _ hasRow _ _ (.of_runBound hrange t)
    ⟨rfl, hf.nparams_eq, fun rows h => (hrows rows h).1⟩ fun rows h => (hrows rows h).2

/-- The values of a condition are bound to a ready statement, and it is stepped once. -/
theorem wp_bindCond_step {α : Type} {cond : Option SqlRDBCondition} {id : StmtId} {st : Stmt}
    {sql : CStr} (hst : h.ctx.stmts id = some st) (hf : st.Fresh dialect sql)
    (hn : ParamsFor dialect sql (condValues cond)) {fail : SqlRDBResult → Api (Session Db) α}
    {next : SqlRDBResult × Bool → Api (Session Db) α} {Q : α → SqlRDBHandle (Session Db) → Prop}
    (hfail : ∀ r st' c', Ran e sql (condValues cond) h.ctx.conn (.error r) c' →
      Used dialect sql (.error r) st' → wp (fail r) Q { h with ctx := h.ctx.put id st' c' })
    (hnext : ∀ res hasRow st' c', Ran e sql (condValues cond) h.ctx.conn res c' →
      Used dialect sql res st' → (∀ rows, res = .ok rows → hasRow = (Cursor.at rows).hasRow) →
      wp (next (resultCode res, hasRow)) Q { h with ctx := h.ctx.put id st' c' }) :
    wp (do
      let r ← drv (bindCond ((driver dialect e).bind id) cond 1)
      if r ≠ .ok then fail r
      else
        let x ← drv ((driver dialect e).step id)
        next x) Q h := by
  obtain rfl := hf.sql_eq
  rw [wp_bind, wp_drv]
  refine wp_mono (boundTo_bindCond cond hst hf.cursor_eq (n := 0) (by norm_num) (Nat.zero_le _))
    fun r s₁ hb => ?_
  rw [wp_ite]
  split_ifs with hr
  · have hran := hb.ran (e := e) hr hf.nparams_eq hn
    obtain ⟨ps, t, rfl, -⟩ := hb.put
    exact hfail r _ _ hran ⟨rfl, hf.nparams_eq, nofun⟩
  · obtain rfl : r = .ok := not_not.1 hr
    exact hb.wp_step hf hn hnext

/-- The text of a statement, which the driver can prepare. -/
structure Prepares (dialect : C2SqlDialect) (e : Engine Db) (spec : SqlRDBQuerySpec) (sql : CStr)
    (n : ℕ) : Prop where
  build_eq : internalQbBuild spec = .ok (sql, n)
  compiles : ¬(dialect = .sqlite ∧ e.compiles sql = false)

/-- A text cannot be prepared or its statement kept: without failing preparations and allocations,
the error `r` is the builder's or the engine's. -/
def Unprepared (dialect : C2SqlDialect) (e : Engine Db) (h : SqlRDBHandle (Session Db))
    (spec : SqlRDBQuerySpec) (r : SqlRDBResult) : Prop :=
  (∀ k, h.ctx.conn.faults .prepare k = none) → (∀ k, h.heap.fails k = false) →
    internalQbBuild spec = .error r ∨ ∃ sql n, internalQbBuild spec = .ok (sql, n) ∧
      r = .errDriver ∧ dialect = .sqlite ∧ e.compiles sql = false

theorem Unprepared.elim {spec : SqlRDBQuerySpec} {r : SqlRDBResult} {sql : CStr} {n : ℕ}
    (hu : Unprepared dialect e h spec r) (hp : Prepares dialect e spec sql n)
    (hfaults : ∀ k, h.ctx.conn.faults .prepare k = none) (hheap : ∀ k, h.heap.fails k = false) :
    False := by
  obtain hb | ⟨sql', n', hb, -, hc⟩ := hu hfaults hheap
  · cases hb.symm.trans hp.build_eq
  · cases hb.symm.trans hp.build_eq
    exact hp.compiles hc

/-- The common opening of the operations on a registered struct. -/
theorem wp_openStmt (hs : CacheSound dialect e h) {who name : CStr} {schema : SqlRDBSchema}
    (hlook : h.lookup name = some schema) (spec : SqlRDBSchema → SqlRDBQuerySpec)
    {Q : Except SqlRDBResult (SqlRDBSchema × StmtId × Bool) → SqlRDBHandle (Session Db) → Prop}
    (herror : ∀ r h', r ≠ .ok → CacheSound dialect e h' → h'.ctx.conn = h.ctx.conn →
      h'.frame = h.frame → Unprepared dialect e h (spec schema) r → Q (.error r) h')
    (hok : ∀ sql n id owned st h', Prepares dialect e (spec schema) sql n →
      InUse dialect e sql id owned h' → h'.ctx.stmts id = some st → st.Fresh dialect sql →
      h'.view = h.view → Q (.ok (schema, id, owned)) h') :
    wp (openStmt (driver dialect e) who name spec) Q h := by
  refine wp_mono (openStmt_spec hs who name spec) fun res h' hopen => ?_
  cases res with
  | error r =>
    obtain ⟨hr, hs', hopen⟩ := hopen
    simp only [hlook] at hopen
    exact herror r h' hr hs' (congrArg SqlRDBHandle.ctx hopen.1)
      (SqlRDBHandle.frame_of_view hopen.1 rfl) hopen.2
  | ok x =>
    obtain ⟨schema', id, owned⟩ := x
    obtain ⟨hview, hlook', sql, n, hb, hu, ⟨st, hst, hf⟩, hc⟩ := hopen
    cases hlook'.symm.trans hlook
    exact hok sql n id owned st h' ⟨hb, hc⟩ hu hst hf hview

/-- A call on one statement has returned the code `r`: it has run the statement that is built for
it, or could not prepare it. -/
def Operated (dialect : C2SqlDialect) (e : Engine Db) (spec : SqlRDBQuerySpec)
    (vs : List SqlValue) (h : SqlRDBHandle (Session Db)) (r : SqlRDBResult)
    (Out : List (List SqlValue) → Conn Db → Prop) (h' : SqlRDBHandle (Session Db)) : Prop :=
  CacheSound dialect e h' ∧ h'.frame = h.frame ∧
    ((r ≠ .ok ∧ h'.ctx.conn = h.ctx.conn ∧ Unprepared dialect e h spec r) ∨
      ∃ sql n res, Prepares dialect e spec sql n ∧
        Ran e sql vs h.ctx.conn res h'.ctx.conn ∧ r = resultCode res ∧
        ∀ rows, res = .ok rows → Out rows h'.ctx.conn)

theorem length_condValues (cond : Option SqlRDBCondition) :
    (condValues cond).length = condLeaves cond := by
  cases cond with
  | none => rfl
  | some c => exact c.length_leafValues

theorem paramsFor_cond {schema : SqlRDBSchema} (hwf : schema.WellFormed) {op : C2SqlQBOp}
    (hop : isCondOp op = true) (hf : isFieldOp op = false) {cond : Option SqlRDBCondition}
    {sql : CStr} {n : ℕ} (hb : internalQbBuild (condSpec op cond dialect schema) = .ok (sql, n)) :
    ParamsFor dialect sql (condValues cond) := by
  intro hlt
  rw [length_condValues] at hlt ⊢
  rw [countParams_of_cond hwf hop hf hb (by omega), Nat.zero_add]

/-- The exit of a call that gives its statement back. -/
theorem wp_close {α : Type} {a : α} {sql : CStr} {id : StmtId} {owned : Bool} {st : Stmt}
    (hu : InUse dialect e sql id owned h) (hsql : st.sql = sql)
    (hn : st.nparams = countParams dialect sql) (c : Conn Db)
    {Q : α → SqlRDBHandle (Session Db) → Prop}
    (hQ : ∀ h', CacheSound dialect e h' → h'.ctx.conn = c → h'.frame = h.frame → Q a h') :
    wp (do
      releaseCachedStmt (driver dialect e) id owned
      mutexUnlock
      pure a) Q { h with ctx := h.ctx.put id st c } := by
  rw [wp_bind]
  refine wp_mono (release_put hu hsql hn c) fun _ h' hc => ?_
  rw [wp_bind, wp_mutexUnlock, wp_pure]
  have hk : h'.frame = h.frame := SqlRDBHandle.frame_of_view hc.2 rfl
  exact hQ _ hc.1 (congrArg SqlRDBHandle.ctx hc.2) hk

/-- **`SqlRDBWrite` runs its statement on the row**, or cannot prepare it. -/
theorem write_spec (hs : CacheSound dialect e h) (hv : h.valid = true) {name : CStr}
    {schema : SqlRDBSchema} (hlook : h.lookup name = some schema) (hwf : schema.WellFormed)
    (row : Mem) (nullMap : Option Mem) :
    wp (sqlRDBWrite (driver dialect e) (some name) (some row) nullMap) (fun r h' =>
      CacheSound dialect e h' ∧ h'.frame = h.frame ∧
        ((r ≠ .ok ∧ h'.ctx.conn = h.ctx.conn ∧
            Unprepared dialect e h (writeSpec dialect schema) r) ∨
          ∃ res, ¬(dialect = .sqlite ∧ e.compiles (writeSql dialect schema) = false) ∧
            h.ctx.conn.runOnce e (writeSql dialect schema)
              (rowBinds row nullMap 0 schema.cols) = (res, h'.ctx.conn) ∧
            r = resultCode res)) h := by
  simp only [sqlRDBWrite, wp_bind, wp_get, hv, Bool.not_true, Bool.false_eq_true, if_false,
    wp_mutexLock]
  refine wp_openStmt (h := { h with mutex := h.mutex.lock }) hs hlook _
    (fun r h' hr hs' hc hk hp => ?_) fun sql n id owned st h₁ hb hu hst hf hview => ?_
  · exact ⟨hs', hk, .inl ⟨hr, hc, hp⟩⟩
  · obtain ⟨m, hbuild⟩ := internalQbBuild_writeSpec dialect schema
    cases hb.build_eq.symm.trans hbuild
    have hconn : h₁.ctx.conn = h.ctx.conn := congrArg SqlRDBHandle.ctx hview
    have hkeep : h₁.frame = h.frame := SqlRDBHandle.frame_of_view hview rfl
    obtain ⟨hsql, hnp, hcur⟩ := hf
    have hn := countParams_writeSql dialect hwf
    simp only [wp_bind, wp_drv]
    refine wp_mono (bound_bindRowFrom row nullMap hst hcur (by omega)) fun r s₁ hbound => ?_
    obtain ⟨rfl, ps, rfl, hps⟩ := hbound
    rw [← hconn, Conn.runOnce]
    rcases hres : h₁.ctx.conn.bindAll (rowBinds row nullMap 0 schema.cols) with ⟨r' | vs, c⟩
    · have hne : r' ≠ .ok :=
        Conn.bindAll_ne_ok (rowBinds_sound row nullMap 0 _) h₁.ctx.conn (by rw [hres])
      simp only [resultCode, ne_eq, hne, not_false_eq_true, if_true]
      refine wp_close hu (by exact hsql) (by exact hnp) c fun h' hs' hconn' hk => ?_
      exact ⟨hs', hk.trans hkeep, .inr ⟨_, hb.compiles, Prod.ext rfl hconn'.symm, rfl⟩⟩
    · have hlen : st.nparams = vs.length := by
        rw [Conn.length_bindAll (c := h₁.ctx.conn) (by rw [hres]), length_rowBinds, hnp, hn]
      obtain rfl := hps vs (by rw [hres])
      simp only [resultCode, ne_eq, not_true_eq_false, if_false, wp_bind, wp_drv]
      refine wp_mono (step_ready (Session.stmts_put ..) hcur) fun res s₂ hstep => ?_
      obtain ⟨cur, rfl, hcode, -⟩ := hstep
      rw [Session.conn_put, values_setValues st st.params hlen] at hcode ⊢
      simp only [Session.put_put, hsql] at hcode ⊢
      refine wp_mono (release_put hu (by rfl) (by exact hnp) _) fun _ h' hc => ?_
      have hconn' : h'.ctx.conn = _ := congrArg SqlRDBHandle.ctx hc.2
      have hk : h'.frame = h.frame := (SqlRDBHandle.frame_of_view (h := h₁) hc.2 rfl).trans hkeep
      rw [hcode, wp_ite]
      split_ifs
      · rw [wp_bind, wp_mutexUnlock, wp_pure]
        exact ⟨hc.1, hk, .inr ⟨_, hb.compiles, Prod.ext rfl hconn'.symm, rfl⟩⟩
      · rw [wp_bind, wp_errSet, wp_bind, wp_mutexUnlock, wp_pure]
        exact ⟨hc.1, hk, .inr ⟨_, hb.compiles, Prod.ext rfl hconn'.symm, rfl⟩⟩

theorem wp_changes {Q : ℤ → Session Db → Prop} {s : Session Db} :
    wp (driver dialect e).changes Q s ↔ Q s.conn.changes s := Iff.rfl

theorem delete_spec (hs : CacheSound dialect e h) (hv : h.valid = true) {name : CStr}
    {schema : SqlRDBSchema} (hlook : h.lookup name = some schema) (hwf : schema.WellFormed)
    (cond : SqlRDBCondition) (outDeleted : Option ℕ) :
    wp (sqlRDBDelete (driver dialect e) (some name) (some cond) outDeleted) (fun res h' =>
      Operated dialect e (condSpec .delete (some cond) dialect schema) (condValues (some cond)) h
        res.1 (fun _ c => res.2 = outDeleted.map fun _ => c.changes.toNat) h' ∧
      (res.1 ≠ .ok → res.2 = outDeleted)) h := by
  simp only [sqlRDBDelete, wp_bind, wp_get, hv, Bool.not_true, Bool.false_eq_true, if_false,
    wp_mutexLock]
  refine wp_openStmt (h := { h with mutex := h.mutex.lock }) hs hlook _
    (fun r h' hr hs' hc hk hp => ?_) fun sql n id owned st h₁ hb hu hst hf hview => ?_
  · rw [wp_pure]
    exact ⟨⟨hs', hk, .inl ⟨hr, hc, hp⟩⟩, fun _ => rfl⟩
  · have hconn : h₁.ctx.conn = h.ctx.conn := congrArg SqlRDBHandle.ctx hview
    have hkeep : h₁.frame = h.frame := SqlRDBHandle.frame_of_view hview rfl
    refine wp_bindCond_step hst hf (paramsFor_cond hwf rfl rfl hb.build_eq)
      (fun r st' c' hran hused => ?_)
      fun res hasRow st' c' hran hused _ => ?_
    · rw [hconn] at hran
      refine wp_close hu hused.sql_eq hused.nparams_eq c' fun h' hs' hconn' hk => ?_
      refine ⟨⟨hs', hk.trans hkeep, .inr ⟨sql, n, .error r, hb, hconn' ▸ hran, rfl, ?_⟩⟩,
        fun _ => rfl⟩
      rintro _ ⟨⟩
    · rw [hconn] at hran
      simp only [wp_bind]
      refine wp_mono (release_put hu hused.sql_eq hused.nparams_eq c') fun _ h' hc => ?_
      have hconn' : h'.ctx.conn = c' := congrArg SqlRDBHandle.ctx hc.2
      have hk : h'.frame = h.frame := (SqlRDBHandle.frame_of_view (h := h₁) hc.2 rfl).trans hkeep
      rw [wp_ite]
      split_ifs with hout
      · rw [wp_bind, wp_drv, wp_changes, wp_bind, wp_mutexUnlock, wp_pure]
        refine ⟨⟨hc.1, hk, .inr ⟨sql, n, res, hb, hconn' ▸ hran, rfl, fun _ _ => ?_⟩⟩,
          fun h => absurd hout.1 h⟩
        obtain ⟨old, rfl⟩ := Option.isSome_iff_exists.1 hout.2
        rfl
      · rw [wp_bind, wp_mutexUnlock, wp_pure]
        refine ⟨⟨hc.1, hk, .inr ⟨sql, n, res, hb, hconn' ▸ hran, rfl, fun rows hrows => ?_⟩⟩,
          fun _ => rfl⟩
        cases outDeleted with
        | none => rfl
        | some old => exact absurd ⟨by rw [hrows]; rfl, rfl⟩ hout

/-- What `SqlRDBCount` stores for the rows of its statement. -/
def countOf (e : Engine Db) (old : ℕ) : List (List SqlValue) → ℕ
  | [] => old
  | row :: _ => (e.toInt64 (row[0]?.getD .null)).toInt.toNat

theorem readCount_eq {s : Session Db} {id : StmtId} {st : Stmt} (hst : s.stmts id = some st)
    {res : Except SqlRDBResult (List (List SqlValue))} (hne : ∀ r, res = .error r → r ≠ .ok)
    (hcur : ∀ rows, res = .ok rows → st.cursor = .at rows) {hasRow : Bool}
    (hrow : ∀ rows, res = .ok rows → hasRow = (Cursor.at rows).hasRow) (old : ℕ) :
    readCount (driver dialect e) id (resultCode res) hasRow old s =
      ((resultCode res, (res.toOption.map (countOf e old)).getD old), s) := by
  rw [readCount]
  cases res with
  | error r =>
    rw [if_neg (fun h => hne r rfl h.1)]
    rfl
  | ok rows =>
    rw [hrow rows rfl]
    cases rows with
    | nil => rfl
    | cons row rows =>
      have hcol : (driver dialect e).columnInt64 id 0 s = ((.ok, e.toInt64 (st.column 0)), s) :=
        onColumn_eq hst 0 0 e.toInt64
      rw [if_pos ⟨rfl, rfl⟩, bind_of_run hcol, Stmt.column, hcur _ rfl]
      rfl

/-- **`SqlRDBCount` returns what its statement counts.** -/
theorem count_spec (hs : CacheSound dialect e h) (hv : h.valid = true) {name : CStr}
    {schema : SqlRDBSchema} (hlook : h.lookup name = some schema) (hwf : schema.WellFormed)
    (cond : Option SqlRDBCondition) (old : ℕ) :
    wp (sqlRDBCount (driver dialect e) (some name) cond (some old)) (fun res h' =>
      Operated dialect e (condSpec .count cond dialect schema) (condValues cond) h res.1
        (fun rows _ => res.2 = some (countOf e old rows)) h' ∧
      (res.1 ≠ .ok → res.2 = some old)) h := by
  simp only [sqlRDBCount, wp_bind, wp_get, hv, Bool.not_true, Bool.false_eq_true, if_false,
    wp_mutexLock]
  refine wp_openStmt (h := { h with mutex := h.mutex.lock }) hs hlook _
    (fun r h' hr hs' hc hk hp => ?_) fun sql n id owned st h₁ hb hu hst hf hview => ?_
  · rw [wp_pure]
    exact ⟨⟨hs', hk, .inl ⟨hr, hc, hp⟩⟩, fun _ => rfl⟩
  · have hconn : h₁.ctx.conn = h.ctx.conn := congrArg SqlRDBHandle.ctx hview
    have hkeep : h₁.frame = h.frame := SqlRDBHandle.frame_of_view hview rfl
    refine wp_bindCond_step hst hf (paramsFor_cond hwf rfl rfl hb.build_eq)
      (fun r st' c' hran hused => ?_)
      fun res hasRow st' c' hran hused hrow => ?_
    · rw [hconn] at hran
      refine wp_close hu hused.sql_eq hused.nparams_eq c' fun h' hs' hconn' hk => ?_
      refine ⟨⟨hs', hk.trans hkeep, .inr ⟨sql, n, .error r, hb, hconn' ▸ hran, rfl, ?_⟩⟩,
        fun _ => rfl⟩
      rintro _ ⟨⟩
    · rw [hconn] at hran
      rw [wp_bind, wp_drv]
      refine wp.of_run (readCount_eq (Session.stmts_put ..) (fun r h => (hran.error r h).1)
        hused.cursor_eq hrow old) ?_
      refine wp_close hu hused.sql_eq hused.nparams_eq c' fun h' hs' hconn' hk => ?_
      refine ⟨⟨hs', hk.trans hkeep, .inr ⟨sql, n, res, hb, hconn' ▸ hran, rfl,
        fun rows hrows => ?_⟩⟩, fun hres => ?_⟩
      · rw [hrows]
        rfl
      · cases res with
        | error r => rfl
        | ok rows => exact absurd rfl hres

/-! ## Statements outside the cache -/

/-- A text is built and prepared for the call itself. -/
theorem wp_prepareOwn {α : Type} (hs : CacheSound dialect e h) {spec : SqlRDBQuerySpec}
    {fail : SqlRDBResult → Api (Session Db) α} {next : SqlRDBResult × StmtId → Api (Session Db) α}
    {Q : α → SqlRDBHandle (Session Db) → Prop}
    (hfail : ∀ r h', r ≠ .ok → CacheSound dialect e h' → h'.ctx.conn = h.ctx.conn →
      h'.frame = h.frame → Unprepared dialect e h spec r → wp (fail r) Q h')
    (hnext : ∀ sql n id st h', Prepares dialect e spec sql n → InUse dialect e sql id true h' →
      h'.ctx.stmts id = some st → st.Fresh dialect sql → h'.view = h.view →
      wp (next (.ok, id)) Q h') :
    wp (do
      let res ← qbBuild spec
      match res with
      | .error r => fail r
      | .ok (sql, _) =>
        let prepared ← drv ((driver dialect e).prepare sql)
        if prepared.1 ≠ .ok then fail prepared.1 else next prepared) Q h := by
  simp only [qbBuild, wp_bind, wp_malloc, wp_pure]
  cases hheap : h.heap.fails h.heap.tick with
  | true =>
    exact hfail _ _ (by rintro ⟨⟩) hs rfl rfl fun _ hf => by simp [hf] at hheap
  | false =>
    simp only [Bool.not_false, if_true]
    cases hb : internalQbBuild spec with
    | error r =>
      exact hfail _ _ (internalQbBuild_ne_ok hb) hs rfl rfl fun _ _ => .inl hb
    | ok text =>
      obtain ⟨sql, n⟩ := text
      rw [wp_bind]
      refine wp_mono (prepare_got (h := { h with heap := h.heap.next }) hs sql) ?_
      rintro ⟨r, raw⟩ h₁ ⟨hview, ⟨rfl, hu, ⟨st, hst, hf⟩, hc⟩ | ⟨hr, -, hs₁, hwhy⟩⟩
      · rw [wp_ite, if_neg (not_not.2 rfl)]
        exact hnext sql n raw st h₁ ⟨hb, hc⟩ hu hst hf hview
      · rw [wp_ite, if_pos hr]
        exact hfail r h₁ hr hs₁ (congrArg SqlRDBHandle.ctx hview)
          (SqlRDBHandle.frame_of_view hview rfl) fun hpf hheap' =>
            .inr ⟨sql, n, hb, hwhy hpf hheap'⟩

/-- The call finalizes its own statement. -/
theorem wp_finalize_put {sql : CStr} {id : StmtId} (hu : InUse dialect e sql id true h) (st : Stmt)
    (c : Conn Db) {Q : SqlRDBResult → SqlRDBHandle (Session Db) → Prop}
    (hQ : ∀ r h', CacheSound dialect e h' → h'.view = { h.view with ctx := c } → Q r h') :
    wp (drv ((driver dialect e).finalize id)) Q { h with ctx := h.ctx.put id st c } := by
  obtain ⟨l, hrep, hl, hmem⟩ := hu
  refine hQ _ _ ⟨l, hrep, hl.nodup, hl.lt_next, hl.compiles, fun p hp _ => ?_⟩ rfl
  have hne : p.2 ≠ id := fun hpid => hmem (hpid ▸ List.mem_map_of_mem hp)
  obtain ⟨st', hst', hf⟩ := hl.fresh p hp (fun h => hne (Option.some.inj h))
  refine ⟨st', ?_, hf⟩
  exact (Function.update_of_ne hne ..).trans ((Function.update_of_ne hne ..).trans hst')

/-- The call keeps its own statement. -/
theorem InUse.cacheSound_put {sql : CStr} {id : StmtId} (hu : InUse dialect e sql id true h)
    (st : Stmt) (c : Conn Db) : CacheSound dialect e { h with ctx := h.ctx.put id st c } := by
  obtain ⟨l, hrep, hl, hmem⟩ := hu
  refine ⟨l, hrep, hl.nodup, hl.lt_next, hl.compiles, fun p hp _ => ?_⟩
  have hne : p.2 ≠ id := fun hpid => hmem (hpid ▸ List.mem_map_of_mem hp)
  obtain ⟨st', hst', hf⟩ := hl.fresh p hp (fun h => hne (Option.some.inj h))
  exact ⟨st', (Function.update_of_ne hne ..).trans hst', hf⟩

/-! ## Iterators -/

/-- `SqlRDBReadMany` has opened an iterator on a ready statement, or could not. -/
def Iterates (dialect : C2SqlDialect) (e : Engine Db) (spec : SqlRDBQuerySpec)
    (vs : List SqlValue) (ptr : SchemaPtr) (h : SqlRDBHandle (Session Db))
    (res : SqlRDBResult × Option SqlRDBStmt) (h' : SqlRDBHandle (Session Db)) : Prop :=
  CacheSound dialect e h' ∧ h'.frame = h.frame ∧
    (∃ t, h'.ctx.conn = { h.ctx.conn with tick := t }) ∧
    ((res.1 ≠ .ok ∧ res.2 = none ∧
        ∀ sql n, Prepares dialect e spec sql n → vs.length < 2 ^ 31 → ¬h.Calm) ∨
      ∃ sql n id st, Prepares dialect e spec sql n ∧ vs.length < 2 ^ 31 ∧
        res = (.ok, some ⟨id, ptr⟩) ∧ h'.ctx.stmts id = some st ∧
        st.sql = sql ∧ st.values = storedValues vs ∧ st.cursor = .ready)

/-- **`SqlRDBReadMany` opens an iterator** on a statement of its own. -/
theorem readMany_spec (hs : CacheSound dialect e h) (hv : h.valid = true) {name : CStr}
    {ptr : SchemaPtr} (hptr : h.lookupPtr name = some ptr) (hwf : (h.deref ptr).WellFormed)
    (cond : Option SqlRDBCondition) :
    wp (sqlRDBReadMany (driver dialect e) (some name) cond true)
      (Iterates dialect e (condSpec .select cond dialect (h.deref ptr)) (condValues cond) ptr h)
      h := by
  have hptr₁ : ({ h with mutex := h.mutex.lock }).lookupPtr name = some ptr := hptr
  simp only [sqlRDBReadMany, wp_bind, wp_get, hv, Bool.not_true, Bool.false_eq_true, if_false,
    wp_mutexLock, hptr₁]
  rw [← wp_bind]
  refine wp_prepareOwn (h := { h with mutex := h.mutex.lock }) hs (fun r h' hr hs' hc hk hp => ?_)
    fun sql n id st h₁ hp hu hst hf hview => ?_
  · rw [wp_bind, wp_mutexUnlock, wp_pure]
    refine ⟨hs', hk, ⟨_, hc⟩, .inl ⟨hr, rfl, fun sql n hsql _ hcalm => ?_⟩⟩
    exact hp.elim hsql (hcalm.faults .prepare) hcalm.heap
  · have hconn : h₁.ctx.conn = h.ctx.conn := congrArg SqlRDBHandle.ctx hview
    have hheap : h₁.heap.fails = h.heap.fails := congrArg (fun v => v.heap.fails) hview
    have hkeep : h₁.frame = h.frame := SqlRDBHandle.frame_of_view hview rfl
    obtain ⟨hsql, hnp, hcur⟩ := hf
    have hparams := paramsFor_cond hwf rfl rfl hp.build_eq
    rw [wp_bind, wp_drv]
    refine wp_mono (boundTo_bindCond cond hst hcur (n := 0) (by norm_num) (Nat.zero_le _))
      fun r s₁ hb => ?_
    have hrange := hb.range
    have hok := hb.ok
    obtain ⟨ps, t, rfl, hps⟩ := hb.put
    rw [Nat.zero_add, hnp, hconn] at hok
    rw [Nat.zero_add] at hrange
    rw [wp_ite]
    split_ifs with hr
    · rw [wp_bind]
      refine wp_finalize_put hu _ _ fun _ h₂ hs₂ hview₂ => ?_
      rw [wp_bind, wp_mutexUnlock, wp_pure]
      refine ⟨hs₂, (SqlRDBHandle.frame_of_view (h := h₁) hview₂ rfl).trans hkeep, ⟨t, ?_⟩,
        .inl ⟨hr, rfl, fun sql' n' _ hlen hcalm => hr ?_⟩⟩
      · rw [← hconn]
        exact congrArg SqlRDBHandle.ctx hview₂
      · exact hok (hcalm.faults .bind) hlen (hparams hlen).ge
    · rw [not_not] at hr
      obtain rfl := hps hr
      have hlen := (hrange hr).1
      rw [wp_bind, wp_malloc]
      cases hfail : h₁.heap.fails h₁.heap.tick with
      | true =>
        rw [wp_ite, if_pos (show (!!true) = true from rfl), wp_bind]
        refine wp_finalize_put (h := { h₁ with heap := h₁.heap.next }) hu _ _
          fun _ h₂ hs₂ hview₂ => ?_
        rw [wp_bind, wp_mutexUnlock, wp_pure]
        refine ⟨hs₂, (SqlRDBHandle.frame_of_view (h := h₁) hview₂ rfl).trans hkeep, ⟨t, ?_⟩,
          .inl ⟨(by rintro ⟨⟩), rfl, fun _ _ _ _ hcalm => ?_⟩⟩
        · rw [← hconn]
          exact congrArg SqlRDBHandle.ctx hview₂
        · rw [hheap, hcalm.heap] at hfail
          cases hfail
      | false =>
        rw [wp_ite, if_neg (show ¬(!!false) = true by decide), wp_bind, wp_mutexUnlock, wp_pure]
        refine ⟨hu.cacheSound_put _ _, hkeep, ⟨t, ?_⟩, .inr ⟨sql, n, id, _, hp, hlen, rfl,
          Session.stmts_put .., hsql, ?_, hcur⟩⟩
        · rw [← hconn]
          rfl
        · refine values_setValues st st.params ?_
          rw [length_storedValues, hnp]
          exact hparams hlen

/-- What `SqlRDBStmtNext` returns after a step with the code `r` that leads to the statement `st`.
-/
def nextReply (dialect : C2SqlDialect) (e : Engine Db) (schema : SqlRDBSchema) (r : SqlRDBResult)
    (st : Stmt) (row : Buffer) (out : ReadOut) : SqlRDBResult × ReadOut :=
  if r ≠ .ok then (r, out)
  else if st.cursor.hasRow = false then (.errNotFound, out)
  else
    let (r, row, nullMap) := readCells dialect e st.column 0 schema.cols false row out.nullMap
    (r, ⟨some row, nullMap⟩)

/-- **`SqlRDBStmtNext` steps the statement and reads its row.** -/
theorem stmtNext_spec {id : StmtId} {st : Stmt} (hst : h.ctx.stmts id = some st) (ptr : SchemaPtr)
    {out : ReadOut} {row : Buffer} (hrow : out.row = some row) :
    wp (sqlRDBStmtNext (driver dialect e) (some ⟨id, ptr⟩) out) (fun res h' =>
      res = nextReply dialect e (h.deref ptr) (st.step dialect e h.ctx.conn).1
        (st.step dialect e h.ctx.conn).2.1 row out ∧
      h'.heap = h.heap ∧ h'.registry = h.registry ∧
      h'.ctx = h.ctx.put id (st.step dialect e h.ctx.conn).2.1
        (st.step dialect e h.ctx.conn).2.2) h := by
  have hstep : (driver dialect e).step id h.ctx =
      (((st.step dialect e h.ctx.conn).1, (st.step dialect e h.ctx.conn).1 == .ok &&
        (st.step dialect e h.ctx.conn).2.1.cursor.hasRow),
        h.ctx.put id (st.step dialect e h.ctx.conn).2.1 (st.step dialect e h.ctx.conn).2.2) := by
    simp only [driver, withStmt_eq hst]
  generalize st.step dialect e h.ctx.conn = next at hstep ⊢
  obtain ⟨r, st', c'⟩ := next
  simp only [sqlRDBStmtNext, hrow, wp_bind, wp_mutexLock, wp_drv, nextReply]
  refine wp.of_run hstep ?_
  dsimp only
  by_cases hr : r = .ok
  · subst hr
    cases hhas : st'.cursor.hasRow with
    | false =>
      simp only [ne_eq, not_true_eq_false, if_false, beq_self_eq_true, Bool.and_false,
        Bool.not_false, if_true, wp_bind, wp_mutexUnlock, wp_pure, and_self]
    | true =>
      simp only [ne_eq, not_true_eq_false, if_false, beq_self_eq_true, Bool.and_true,
        Bool.not_true, Bool.false_eq_true, wp_bind, wp_get, wp_drv]
      refine wp.of_run (internalTmReadRow_eq (Session.stmts_put ..) ..) ?_
      rw [wp_mutexUnlock, wp_pure]
      exact ⟨rfl, rfl, rfl, rfl⟩
  · simp only [ne_eq, hr, not_false_eq_true, if_true, wp_bind, wp_mutexUnlock, wp_pure, and_self]

end Calls

end C2Sql
