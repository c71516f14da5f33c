import C2Sql.Api.Rows
import C2Sql.CacheSpec
import C2Sql.DriverSpec
import C2Sql.QueryText

/-!
# Statements of a handle

The statements that the cache of a handle holds, and the one that a call is using.

* `CacheSound`: every cached statement is a live statement of its text, as if it had just been
  prepared but for its old parameters;
* `InUse`: the same, while one statement is in use;
* `getOrPrepare_spec`, `releaseCachedStmt_spec`: a call gets a statement and gives it back;
* `SqlRDBHandle.view`: what a handle has apart from its statements.
-/

namespace C2Sql

open StateLogic

variable {Db : Type}

/-- A handle without its statements and its cache, and without the counters that only they move. -/
def SqlRDBHandle.view (h : SqlRDBHandle (Session Db)) : SqlRDBHandle (Conn Db) :=
  { h with
    config := { h.config with stmtCacheSize := 0 },
    ctx := h.ctx.conn,
    cache := .zero,
    heap := { h.heap with tick := 0 } }

/-- A statement that is ready for new parameters. -/
structure Stmt.Fresh (dialect : C2SqlDialect) (sql : CStr) (st : Stmt) : Prop where
  sql_eq : st.sql = sql
  nparams_eq : st.nparams = countParams dialect sql
  cursor_eq : st.cursor = .ready

/-- The statements of the list `l`, apart from `used`, are ready, each for its text. -/
structure Ready (dialect : C2SqlDialect) (e : Engine Db) (ctx : Session Db)
    (used : Option StmtId) (l : List (CStr × StmtId)) : Prop where
  nodup : (l.map Prod.snd).Nodup
  lt_next : ∀ p ∈ l, p.2 < ctx.next
  compiles : ∀ p ∈ l, ¬(dialect = .sqlite ∧ e.compiles p.1 = false)
  fresh : ∀ p ∈ l, some p.2 ≠ used → ∃ st, ctx.stmts p.2 = some st ∧ st.Fresh dialect p.1

/-- Every cached statement is ready for new parameters. -/
def CacheSound (dialect : C2SqlDialect) (e : Engine Db) (h : SqlRDBHandle (Session Db)) : Prop :=
  ∃ l, h.cache.Represents l ∧ Ready dialect e h.ctx none l

/-- The statement `id` of the text `sql` is in use: it is in the cache, or the call owns it. -/
def InUse (dialect : C2SqlDialect) (e : Engine Db) (sql : CStr) (id : StmtId) (owned : Bool)
    (h : SqlRDBHandle (Session Db)) : Prop :=
  ∃ l, h.cache.Represents l ∧ Ready dialect e h.ctx (some id) l ∧
    if owned then id ∉ l.map Prod.snd else (sql, id) ∈ l

section Specs

variable {dialect : C2SqlDialect} {e : Engine Db} {h : SqlRDBHandle (Session Db)}
  {ctx : Session Db} {used : Option StmtId} {l l' : List (CStr × StmtId)}

/-- An empty cache. -/
theorem cacheSound_of_nil (hrep : h.cache.Represents []) : CacheSound dialect e h :=
  ⟨[], hrep, List.nodup_nil, by simp, by simp, by simp⟩

/-! ## Finalizing -/

/-- The statements of a session without some of them. -/
def Session.drop (s : Session Db) (ids : List StmtId) : Session Db :=
  { s with stmts := fun i => if i ∈ ids then none else s.stmts i }

theorem finalizeAll_eq (ids : List StmtId) (h : SqlRDBHandle (Session Db)) :
    finalizeAll (driver dialect e) ids h = ((), { h with ctx := h.ctx.drop ids }) := by
  induction ids generalizing h with
  | nil => simp [finalizeAll, Session.drop, pure_run]
  | cons id ids ih =>
    have hdrop : (((driver dialect e).finalize id h.ctx).2).drop ids = h.ctx.drop (id :: ids) := by
      simp only [Session.drop, driver, Session.mk.injEq, true_and, and_true]
      funext i
      by_cases hi : i ∈ ids
      · simp [hi]
      · by_cases hid : i = id <;> simp [hi, hid]
    change finalizeAll (driver dialect e) ids
      { h with ctx := ((driver dialect e).finalize id h.ctx).2 } = _
    rw [ih]
    simp only [hdrop]

/-! ## Getting a statement -/

/-- The preparation of a statement: it fails without effect, or makes a new statement. -/
theorem prepare_spec (dialect : C2SqlDialect) (e : Engine Db) (sql : CStr) (s : Session Db) :
    wp ((driver dialect e).prepare sql) (fun res s' =>
      ∃ t, (res.1 ≠ .ok ∧ s' = { s with prepareTick := t } ∧
          ((∀ k, s.conn.faults .prepare k = none) → res.1 = .errDriver ∧
            dialect = .sqlite ∧ e.compiles sql = false)) ∨
        (res = (.ok, s.next) ∧ ¬(dialect = .sqlite ∧ e.compiles sql = false) ∧
          s' = { s with
            stmts := Function.update s.stmts s.next
              (some ⟨sql, countParams dialect sql, fun _ => .null, .ready⟩)
            next := s.next + 1
            prepareTick := t })) s := by
  refine ⟨s.prepareTick + 1, ?_⟩
  simp only [driver, prepareStmt, Session.prepareFault]
  cases hf : s.conn.faults .prepare s.prepareTick with
  | some f =>
    refine .inl ⟨f.code_ne_ok, rfl, fun h => ?_⟩
    rw [h] at hf
    cases hf
  | none =>
    simp only
    split_ifs with hc
    · exact .inl ⟨(by rintro ⟨⟩), rfl, fun _ => ⟨rfl, hc⟩⟩
    · exact .inr ⟨rfl, hc, rfl⟩

theorem cacheGet_spec {l : List (CStr × StmtId)} (hl : h.cache.Represents l) (sql : CStr) :
    wp (cacheGet sql) (fun hit h' =>
      (hit = none ∧ h' = h ∧ sql ∉ l.map Prod.fst) ∨
      ∃ id c' l', hit = some id ∧ (sql, id) ∈ l ∧ l'.Perm l ∧ h' = { h with cache := c' } ∧
        c'.Represents l') h := by
  simp only [cacheGet, wp_bind, wp_get]
  by_cases hsql : sql ∈ l.map Prod.fst
  · obtain ⟨⟨_, id⟩, hmem, rfl⟩ := List.mem_map.1 hsql
    obtain ⟨l₁, l₂, rfl⟩ := List.append_of_mem hmem
    obtain ⟨c', hget, hrep, -⟩ := hl.get_hit
    rw [hget]
    exact .inr ⟨id, c', _, rfl, hmem, List.perm_middle.symm, rfl, hrep⟩
  · rw [hl.get_miss hsql]
    exact .inl ⟨rfl, rfl, hsql⟩

/-! ## Lists of statements -/

namespace Ready

/-- A list in another order. -/
theorem perm (hl : Ready dialect e ctx used l) (hp : l'.Perm l) : Ready dialect e ctx used l' where
  nodup := (hp.map Prod.snd).nodup_iff.2 hl.nodup
  lt_next := fun p hp' => hl.lt_next p (hp.mem_iff.1 hp')
  compiles := fun p hp' => hl.compiles p (hp.mem_iff.1 hp')
  fresh := fun p hp' => hl.fresh p (hp.mem_iff.1 hp')

/-- The next statement is a new one. -/
theorem next_not_mem (hl : Ready dialect e ctx used l) : ctx.next ∉ l.map Prod.snd := fun hm => by
  obtain ⟨p, hp, hpid⟩ := List.mem_map.1 hm
  exact (hl.lt_next p hp).ne hpid

/-- A new statement does not disturb the others. -/
theorem prepared (hl : Ready dialect e ctx used l) (st : Stmt) (t : ℕ) :
    Ready dialect e { ctx with
      stmts := Function.update ctx.stmts ctx.next (some st)
      next := ctx.next + 1
      prepareTick := t } used l where
  nodup := hl.nodup
  lt_next := fun p hp => Nat.lt_succ_of_lt (hl.lt_next p hp)
  compiles := hl.compiles
  fresh := fun p hp hu => by
    obtain ⟨st', hst, hf⟩ := hl.fresh p hp hu
    refine ⟨st', ?_, hf⟩
    simp only [Function.update_of_ne (hl.lt_next p hp).ne]
    exact hst

/-- Statements that are dropped are not among those that are kept. -/
theorem not_mem_drop (hl : Ready dialect e ctx used l) (n : ℕ) {p : CStr × StmtId}
    (hp : p ∈ l.take n) : p.2 ∉ (l.drop n).map Prod.snd := by
  have hn := hl.nodup
  rw [← List.take_append_drop n l, List.map_append, List.nodup_append] at hn
  exact fun hd => hn.2.2 _ (List.mem_map_of_mem hp) _ hd rfl

theorem sublist (hl : Ready dialect e ctx used l) (hs : l'.Sublist l) :
    Ready dialect e ctx used l' where
  nodup := hl.nodup.sublist (hs.map _)
  lt_next := fun p hp => hl.lt_next p (hs.subset hp)
  compiles := fun p hp => hl.compiles p (hs.subset hp)
  fresh := fun p hp => hl.fresh p (hs.subset hp)

/-- Other statements are dropped. -/
theorem drop (hl : Ready dialect e ctx used l) {ids : List StmtId}
    (hids : ∀ p ∈ l, p.2 ∉ ids) : Ready dialect e (ctx.drop ids) used l where
  nodup := hl.nodup
  lt_next := hl.lt_next
  compiles := hl.compiles
  fresh := fun p hp hu => by
    obtain ⟨st, hst, hf⟩ := hl.fresh p hp hu
    refine ⟨st, ?_, hf⟩
    simp only [Session.drop, if_neg (hids p hp)]
    exact hst

theorem cons (hl : Ready dialect e ctx used l) {sql : CStr} {id : StmtId}
    (hid : id ∉ l.map Prod.snd) (hlt : id < ctx.next)
    (hc : ¬(dialect = .sqlite ∧ e.compiles sql = false))
    (hst : ∃ st, ctx.stmts id = some st ∧ st.Fresh dialect sql) :
    Ready dialect e ctx used ((sql, id) :: l) where
  nodup := List.nodup_cons.2 ⟨hid, hl.nodup⟩
  lt_next := List.forall_mem_cons.2 ⟨hlt, hl.lt_next⟩
  compiles := List.forall_mem_cons.2 ⟨hc, hl.compiles⟩
  fresh := List.forall_mem_cons.2 ⟨fun _ => hst, hl.fresh⟩

/-- A statement is taken into use. -/
theorem use (hl : Ready dialect e ctx none l) (id : StmtId) : Ready dialect e ctx (some id) l :=
  { hl with fresh := fun p hp _ => hl.fresh p hp nofun }

end Ready

/-- The insertion of a statement into a cache without its text: what the cache drops is finalized,
and with it the statement itself when there is no memory. -/
theorem cachePut_spec (hrep : h.cache.Represents l) (hl : Ready dialect e h.ctx none l)
    (hcap : h.cache.capacity ≠ 0) {sql : CStr} (hsql : sql ∉ l.map Prod.fst) {id : StmtId}
    (hid : id ∉ l.map Prod.snd) (hlt : id < h.ctx.next)
    (hc : ¬(dialect = .sqlite ∧ e.compiles sql = false))
    {st : Stmt} (hst : h.ctx.stmts id = some st) (hf : st.Fresh dialect sql) :
    wp (cachePut (driver dialect e) sql id) (fun r h' => h'.view = h.view ∧
      ∃ l', h'.cache.Represents l' ∧ Ready dialect e h'.ctx none l' ∧
        ((r = .ok ∧ (sql, id) ∈ l') ∨
          (r = .errNoMemory ∧ ∃ k, h.heap.fails k = true))) h := by
  simp only [cachePut, wp_bind, wp_get, wp_set]
  refine wp_mono (mallocs_spec 2 h) fun allocOk h₁ hm => ?_
  obtain ⟨⟨t, rfl⟩, hok⟩ := hm
  obtain ⟨cache', hput, hrep', -⟩ := hrep.put_new hsql id (Nat.pos_of_ne_zero hcap) allocOk
  set n := h.cache.capacity - 1
  have htake := hl.sublist (List.take_sublist n l)
  have hne : ∀ p ∈ l.take n, p.2 ≠ id := fun p hp hpid =>
    hid (hpid ▸ List.mem_map_of_mem (List.mem_of_mem_take hp))
  cases allocOk with
  | true =>
    have hdrop : id ∉ (l.drop n).map Prod.snd := fun hm =>
      hid (List.map_subset _ (List.drop_subset n l) hm)
    simp only [hput, wp, finalizeAll_eq]
    refine ⟨rfl, _, hrep', ?_, .inl ⟨rfl, List.mem_cons_self ..⟩⟩
    refine (htake.drop fun p hp => hl.not_mem_drop n hp).cons ?_ hlt hc ⟨st, ?_, hf⟩
    · exact fun hm => hid (List.map_subset _ (List.take_subset n l) hm)
    · simp only [Session.drop]
      rw [if_neg hdrop]
      exact hst
  | false =>
    simp only [hput, wp, finalizeAll_eq]
    refine ⟨rfl, _, hrep', htake.drop fun p hp => ?_, .inr ⟨rfl, ?_⟩⟩
    · simp only [Bool.false_eq_true, if_false, List.mem_append, List.mem_singleton, not_or]
      exact ⟨hl.not_mem_drop n hp, hne p hp⟩
    · by_contra hk
      simp only [not_exists, Bool.not_eq_true] at hk
      exact absurd (hok hk) (by decide)

/-- What `get_or_prepare` returns: a ready statement that is in use from now on, or an error, which
without failing preparations and allocations is due to the text alone. -/
def Got (dialect : C2SqlDialect) (e : Engine Db) (h : SqlRDBHandle (Session Db)) (sql : CStr) :
    Except SqlRDBResult (StmtId × Bool) → SqlRDBHandle (Session Db) → Prop
  | .ok (id, owned), h' => InUse dialect e sql id owned h' ∧
      (∃ st, h'.ctx.stmts id = some st ∧ st.Fresh dialect sql) ∧
      ¬(dialect = .sqlite ∧ e.compiles sql = false)
  | .error r, h' => r ≠ .ok ∧ CacheSound dialect e h' ∧
      ((∀ k, h.ctx.conn.faults .prepare k = none) → (∀ k, h.heap.fails k = false) →
        r = .errDriver ∧ dialect = .sqlite ∧ e.compiles sql = false)

/-- A statement that is in the cache. -/
theorem Got.of_mem {h' : SqlRDBHandle (Session Db)} (hrep : h'.cache.Represents l)
    (hl : Ready dialect e h'.ctx none l) {sql : CStr} {id : StmtId} (hmem : (sql, id) ∈ l) :
    Got dialect e h sql (.ok (id, false)) h' :=
  ⟨⟨l, hrep, hl.use id, hmem⟩, hl.fresh _ hmem nofun, hl.compiles _ hmem⟩

theorem getOrPrepare_spec (hs : CacheSound dialect e h) (sql : CStr) :
    wp (getOrPrepare (driver dialect e) sql)
      (fun res h' => h'.view = h.view ∧ Got dialect e h sql res h') h := by
  obtain ⟨l, hrep, hl⟩ := hs
  simp only [getOrPrepare, wp_bind]
  refine wp_mono (cacheGet_spec hrep sql) fun hit h₁ hget => ?_
  obtain ⟨rfl, rfl, hsql⟩ | ⟨id, c', l', rfl, hmem, hp, rfl, hrep'⟩ := hget
  case inr =>
    rw [wp_pure]
    refine ⟨rfl, .of_mem ?_ ?_ (hp.mem_iff.2 hmem)⟩
    · exact hrep'
    · exact hl.perm hp
  simp only [wp_bind, wp_drv]
  refine wp_mono (prepare_spec dialect e sql h₁.ctx) fun res ctx hprep => ?_
  obtain ⟨t, ⟨hr, rfl, hfail⟩ | ⟨rfl, hc, rfl⟩⟩ := hprep
  · simp only [wp_pure, if_pos hr]
    exact ⟨rfl, hr, ⟨l, hrep, hl.nodup, hl.lt_next, hl.compiles, hl.fresh⟩,
      fun hf _ => hfail hf⟩
  · have hl' := hl.prepared ⟨sql, countParams dialect sql, fun _ => .null, .ready⟩ t
    have hid : h₁.ctx.next ∉ l.map Prod.snd := hl.next_not_mem
    set ctx : Session Db := { h₁.ctx with
      stmts := Function.update h₁.ctx.stmts h₁.ctx.next
        (some ⟨sql, countParams dialect sql, fun _ => .null, .ready⟩)
      next := h₁.ctx.next + 1
      prepareTick := t }
    have hst : ctx.stmts h₁.ctx.next = some _ := Function.update_self ..
    simp only [wp_ite, wp_bind, wp_get, wp_pure, ne_eq, not_true_eq_false, if_false]
    split
    case isTrue hcap =>
      exact ⟨rfl, ⟨l, hrep, hl'.use _, hid⟩, ⟨_, hst, rfl, rfl, rfl⟩, hc⟩
    case isFalse hcap =>
      refine wp_mono (cachePut_spec (h := { h₁ with ctx := ctx }) hrep hl' hcap hsql hid
        (Nat.lt_succ_self _) hc hst ⟨rfl, rfl, rfl⟩) fun r h₂ hput => ?_
      obtain ⟨hview, l₂, hrep₂, hl₂, ⟨rfl, hmem⟩ | ⟨rfl, k, hk⟩⟩ := hput
      · simp only [not_true_eq_false, if_false]
        refine wp_mono (cacheGet_spec hrep₂ sql) fun hit h₃ hget => ?_
        obtain ⟨rfl, rfl, hsql₂⟩ | ⟨id, c', l₃, rfl, hmem₃, hp, rfl, hrep₃⟩ := hget
        · exact absurd (List.mem_map_of_mem hmem) hsql₂
        · rw [wp_pure]
          refine ⟨hview, .of_mem ?_ ?_ (hp.mem_iff.2 hmem₃)⟩
          · exact hrep₃
          · exact hl₂.perm hp
      · refine ⟨hview, (by rintro ⟨⟩), ⟨l₂, hrep₂, hl₂⟩, fun _ hf => ?_⟩
        rw [hf] at hk
        cases hk

/-- A statement that the call prepares for itself, outside the cache. -/
theorem prepare_got (hs : CacheSound dialect e h) (sql : CStr) :
    wp (drv ((driver dialect e).prepare sql)) (fun res h' => h'.view = h.view ∧
      ((res.1 = .ok ∧ Got dialect e h sql (.ok (res.2, true)) h') ∨
        (res.1 ≠ .ok ∧ Got dialect e h sql (.error res.1) h'))) h := by
  obtain ⟨l, hrep, hl⟩ := hs
  rw [wp_drv]
  refine wp_mono (prepare_spec dialect e sql h.ctx) fun res ctx hprep => ?_
  obtain ⟨t, ⟨hr, rfl, hfail⟩ | ⟨rfl, hc, rfl⟩⟩ := hprep
  · exact ⟨rfl, .inr ⟨hr, hr, ⟨l, hrep, hl.nodup, hl.lt_next, hl.compiles, hl.fresh⟩,
      fun hf _ => hfail hf⟩⟩
  · have hl' := hl.prepared ⟨sql, countParams dialect sql, fun _ => .null, .ready⟩ t
    exact ⟨rfl, .inl ⟨rfl, ⟨l, hrep, hl'.use _, hl.next_not_mem⟩,
      ⟨_, Function.update_self .., rfl, rfl, rfl⟩, hc⟩⟩

/-- The statement in use is given back. -/
theorem releaseCachedStmt_spec {sql : CStr} {id : StmtId} {owned : Bool}
    (hu : InUse dialect e sql id owned h) {st : Stmt} (hst : h.ctx.stmts id = some st)
    (hsql : st.sql = sql) (hn : st.nparams = countParams dialect sql) :
    wp (releaseCachedStmt (driver dialect e) id owned)
      (fun _ h' => h'.view = h.view ∧ CacheSound dialect e h') h := by
  obtain ⟨l, hrep, hl, hmem⟩ := hu
  cases owned with
  | true =>
    refine ⟨rfl, l, hrep, hl.nodup, hl.lt_next, hl.compiles, fun p hp _ => ?_⟩
    have hne : p.2 ≠ id := fun hpid => hmem (hpid ▸ List.mem_map_of_mem hp)
    obtain ⟨st', hst', hf⟩ := hl.fresh p hp (fun h => hne (Option.some.inj h))
    exact ⟨st', (Function.update_of_ne hne ..).trans hst', hf⟩
  | false =>
    have hreset : wp ((driver dialect e).reset id)
        (fun _ ctx => ctx = { h.ctx with
          stmts := Function.update h.ctx.stmts id (some (st.reset dialect)) }) h.ctx := by
      simp only [wp, driver, withStmt, hst]
    simp only [releaseCachedStmt, Bool.false_eq_true, if_false, wp_bind, wp_drv]
    refine wp_mono hreset fun r ctx hctx => ?_
    subst hctx
    refine ⟨rfl, l, hrep, hl.nodup, hl.lt_next, hl.compiles, fun p hp _ => ?_⟩
    by_cases hpid : p.2 = id
    · -- no other entry has this statement
      obtain rfl : p = (sql, id) := List.inj_on_of_nodup_map hl.nodup hp hmem hpid
      refine ⟨st.reset dialect, Function.update_self .., ?_⟩
      cases dialect <;> exact ⟨hsql, hn, rfl⟩
    · obtain ⟨st', hst', hf⟩ := hl.fresh p hp (fun h => hpid (Option.some.inj h))
      exact ⟨st', (Function.update_of_ne hpid ..).trans hst', hf⟩

/-! ## Opening a statement -/

theorem appendWhere_negative {schema : SqlRDBSchema} {cond : Option SqlRDBCondition} {text : CStr}
    {n : ℕ} {r : SqlRDBResult} (h : appendWhere schema dialect cond text n = .error r) :
    r.code < 0 := by
  rw [appendWhere_eq] at h
  split_ifs at h
  cases h
  decide

theorem targetCol_negative {r : SqlRDBResult} {col : Option CStr}
    {f : CStr → Except SqlRDBResult (CStr × ℕ)}
    (hf : (match col with
      | none => .error .errInvalidArg
      | some col => f col) = Except.error r)
    (hneg : ∀ c, f c = .error r → r.code < 0) : r.code < 0 := by
  cases col with
  | none =>
    cases hf
    decide
  | some c => exact hneg c hf

/-- The builder's errors are errors. -/
theorem internalQbBuild_negative {spec : SqlRDBQuerySpec} {r : SqlRDBResult}
    (h : internalQbBuild spec = .error r) : r.code < 0 := by
  rw [internalQbBuild] at h
  cases hop : spec.op with
  | create => simp [hop] at h
  | insert => simp [hop] at h
  | upsert => simp [hop] at h
  | select => exact appendWhere_negative (by simpa only [hop, buildSelect] using h)
  | count => exact appendWhere_negative (by simpa only [hop, buildCount] using h)
  | delete => exact appendWhere_negative (by simpa only [hop, buildDelete] using h)
  | alterAdd =>
    simp only [hop] at h
    split at h
    · cases h
      decide
    · cases h
  | updateField =>
    simp only [hop] at h
    refine targetCol_negative h fun c hc => ?_
    rw [buildUpdateField] at hc
    split_ifs at hc
    · cases hc
      decide
    · exact appendWhere_negative hc
  | selectField =>
    simp only [hop] at h
    refine targetCol_negative h fun c hc => ?_
    rw [buildSelectField] at hc
    split_ifs at hc
    · cases hc
      decide
    · exact appendWhere_negative hc

theorem internalQbBuild_ne_ok {spec : SqlRDBQuerySpec} {r : SqlRDBResult}
    (h : internalQbBuild spec = .error r) : r ≠ .ok := by
  rintro rfl
  exact absurd (internalQbBuild_negative h) (by decide)

/-- What the common opening of the operations returns. After an error the mutex is released, and
without failing preparations and allocations the error is due to the query alone. -/
def Opened (dialect : C2SqlDialect) (e : Engine Db) (h : SqlRDBHandle (Session Db))
    (who name : CStr) (spec : SqlRDBSchema → SqlRDBQuerySpec) :
    Except SqlRDBResult (SqlRDBSchema × StmtId × Bool) → SqlRDBHandle (Session Db) → Prop
  | .ok (schema, id, owned), h' => h'.view = h.view ∧ h.lookup name = some schema ∧
      ∃ sql n, internalQbBuild (spec schema) = .ok (sql, n) ∧
        Got dialect e h sql (.ok (id, owned)) h'
  | .error r, h' => r ≠ .ok ∧ CacheSound dialect e h' ∧
      match h.lookup name with
      | none => r = .errUnknownStruct ∧ h'.view = { h.view with
          error := ⟨.errUnknownStruct,
            (who ++ lit ": unknown struct '" ++ name ++ lit "'").take 255⟩
          mutex := h.mutex.unlock }
      | some schema => h'.view = { h.view with mutex := h.mutex.unlock } ∧
          ((∀ k, h.ctx.conn.faults .prepare k = none) → (∀ k, h.heap.fails k = false) →
            internalQbBuild (spec schema) = .error r ∨
            ∃ sql n, internalQbBuild (spec schema) = .ok (sql, n) ∧ r = .errDriver ∧
              dialect = .sqlite ∧ e.compiles sql = false)

theorem openStmt_spec (hs : CacheSound dialect e h) (who name : CStr)
    (spec : SqlRDBSchema → SqlRDBQuerySpec) :
    wp (openStmt (driver dialect e) who name spec) (Opened dialect e h who name spec) h := by
  simp only [openStmt, wp_bind, wp_get]
  cases hlook : h.lookup name with
  | none =>
    simp only [wp_bind, wp_errSet, wp_mutexUnlock, wp_pure, Opened, hlook]
    exact ⟨(by rintro ⟨⟩), hs, trivial, rfl⟩
  | some schema =>
    simp only [qbBuild, wp_bind, wp_malloc, wp_pure]
    cases hfail : h.heap.fails h.heap.tick with
    | true =>
      simp only [Bool.not_true, Bool.false_eq_true, if_false, wp_bind, wp_mutexUnlock, wp_pure,
        Opened, hlook]
      exact ⟨(by rintro ⟨⟩), hs, rfl, fun _ hf => absurd (hf h.heap.tick) (by simp [hfail])⟩
    | false =>
      simp only [Bool.not_false, if_true]
      cases hb : internalQbBuild (spec schema) with
      | error r =>
        simp only [wp_bind, wp_mutexUnlock, wp_pure, Opened, hlook]
        exact ⟨internalQbBuild_ne_ok hb, hs, rfl, fun _ _ => .inl hb⟩
      | ok text =>
        simp only [wp_bind]
        refine wp_mono (getOrPrepare_spec (h := { h with heap := h.heap.next }) hs text.1)
          fun res h₁ hgot => ?_
        obtain ⟨hview, hgot⟩ := hgot
        cases res with
        | ok st => exact ⟨hview, hlook, text.1, text.2, hb, hgot⟩
        | error r =>
          obtain ⟨hr, hs₁, hr'⟩ := hgot
          simp only [wp_bind, wp_mutexUnlock, wp_pure, Opened, hlook]
          have hunlock : ({ h₁ with mutex := h₁.mutex.unlock }).view =
              { h₁.view with mutex := h₁.view.mutex.unlock } := rfl
          rw [hunlock, hview]
          exact ⟨hr, hs₁, rfl, fun hp hf => .inr ⟨text.1, text.2, hb, hr' hp hf⟩⟩

end Specs

end C2Sql
