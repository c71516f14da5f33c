import C2Sql.Frame
import C2Sql.Lockstep
import C2Sql.Transactions

/-!
# The cache is transparent

Two runs of the same calls, with caches of different sizes. The handles of the two runs differ in
their statements and caches only, before and after every call; while a call is running, each of
them has a statement of the same text in use.

* `Twin`: two handles between calls;
* `Using`: two handles inside a call;
* `cache_transparent`: two runs return the same, and leave the same database.
-/

namespace C2Sql

open SnapshotStack StateLogic

variable {Db : Type}

/-- What the calls rely on: no preparation and no allocation fails on its own, and the registry has
accepted its schemas. -/
structure Reliable (v : SqlRDBHandle (Conn Db)) : Prop where
  faults : ∀ k, v.ctx.faults .prepare k = none
  heap : ∀ k, v.heap.fails k = false
  schemas : ∀ name s, v.lookup name = some s → s.WellFormed

/-- Two handles that differ in their statements and caches only. -/
structure Twin (dialect : C2SqlDialect) (e : Engine Db) (h₁ h₂ : SqlRDBHandle (Session Db)) :
    Prop where
  view_eq : h₁.view = h₂.view
  reliable : Reliable h₁.view
  sound₁ : CacheSound dialect e h₁
  sound₂ : CacheSound dialect e h₂

/-- Two handles that differ in their statements and caches only, each with a statement in use. -/
structure Using (P : Pair Db) (owned₁ owned₂ : Bool) (k : ℕ) (h₁ h₂ : SqlRDBHandle (Session Db)) :
    Prop where
  view_eq : h₁.view = h₂.view
  reliable : Reliable h₁.view
  use₁ : InUse P.dialect P.engine P.sql P.id₁ owned₁ { h₁ with ctx := P.base₁ }
  use₂ : InUse P.dialect P.engine P.sql P.id₂ owned₂ { h₂ with ctx := P.base₂ }
  agree : P.Agree k h₁.ctx h₂.ctx

/-- Two runs of a computation return the same, and lead from handles that are alike to handles that
are alike. -/
def Alike (dialect : C2SqlDialect) (e : Engine Db) {α : Type} (c d : Api (Session Db) α)
    (h₁ h₂ : SqlRDBHandle (Session Db)) : Prop :=
  rwp c d (fun a h₁ b h₂ => a = b ∧ Twin dialect e h₁ h₂) h₁ h₂

section Rules

variable {dialect : C2SqlDialect} {e : Engine Db} {h₁ h₂ : SqlRDBHandle (Session Db)}
  {α β : Type} {Φ : β → SqlRDBHandle (Session Db) → β → SqlRDBHandle (Session Db) → Prop}

/-! ## Between statements -/

namespace Twin

theorem valid_eq (ht : Twin dialect e h₁ h₂) : h₁.valid = h₂.valid :=
  congrArg (fun v => v.magic == handleMagic) ht.view_eq

theorem lookup_eq (ht : Twin dialect e h₁ h₂) (name : CStr) : h₁.lookup name = h₂.lookup name :=
  congrArg (fun v => v.lookup name) ht.view_eq

/-- The same change of the mutex and of the error context. -/
theorem update (ht : Twin dialect e h₁ h₂) (f : SqlRDBMutex → SqlRDBMutex)
    (g : SqlRDBErrorCtx → SqlRDBErrorCtx) :
    Twin dialect e { h₁ with mutex := f h₁.mutex, error := g h₁.error }
      { h₂ with mutex := f h₂.mutex, error := g h₂.error } where
  view_eq := congrArg (fun v => { v with mutex := f v.mutex, error := g v.error }) ht.view_eq
  reliable := ⟨ht.reliable.faults, ht.reliable.heap, ht.reliable.schemas⟩
  sound₁ := ht.sound₁
  sound₂ := ht.sound₂

theorem seq_mutexLock {f g : Unit → Api (Session Db) β} (ht : Twin dialect e h₁ h₂)
    (hk : ∀ h₁ h₂, Twin dialect e h₁ h₂ → rwp (f ()) (g ()) Φ h₁ h₂) :
    rwp (mutexLock >>= f) (mutexLock >>= g) Φ h₁ h₂ := by
  rw [rwp_bind, rwp, mutexLock_eq, mutexLock_eq]
  exact hk _ _ (ht.update SqlRDBMutex.lock id)

theorem seq_mutexUnlock {f g : Unit → Api (Session Db) β} (ht : Twin dialect e h₁ h₂)
    (hk : ∀ h₁ h₂, Twin dialect e h₁ h₂ → rwp (f ()) (g ()) Φ h₁ h₂) :
    rwp (mutexUnlock >>= f) (mutexUnlock >>= g) Φ h₁ h₂ := by
  rw [rwp_bind, rwp, mutexUnlock_eq, mutexUnlock_eq]
  exact hk _ _ (ht.update SqlRDBMutex.unlock id)

/-- Every call ends so. -/
theorem exit (ht : Twin dialect e h₁ h₂) (r : α) :
    Alike dialect e (do mutexUnlock; pure r) (do mutexUnlock; pure r) h₁ h₂ :=
  ht.seq_mutexUnlock fun _ _ ht => ⟨rfl, ht⟩

theorem seq_errSet {f g : Unit → Api (Session Db) β} (ht : Twin dialect e h₁ h₂)
    (code : SqlRDBResult) (message : CStr)
    (hk : ∀ h₁ h₂, Twin dialect e h₁ h₂ → rwp (f ()) (g ()) Φ h₁ h₂) :
    rwp (errSet code message >>= f) (errSet code message >>= g) Φ h₁ h₂ :=
  hk _ _ (ht.update id fun _ => ⟨code, message.take 255⟩)

theorem seq_changes (ht : Twin dialect e h₁ h₂) {f g : ℤ → Api (Session Db) β}
    (hk : ∀ n h₁ h₂, Twin dialect e h₁ h₂ → rwp (f n) (g n) Φ h₁ h₂) :
    rwp (drv (driver dialect e).changes >>= f) (drv (driver dialect e).changes >>= g) Φ h₁ h₂ := by
  have hchanges : h₂.ctx.conn.changes = h₁.ctx.conn.changes :=
    (congrArg (fun v => v.ctx.changes) ht.view_eq).symm
  change rwp (f h₁.ctx.conn.changes) (g h₂.ctx.conn.changes) Φ h₁ h₂
  rw [hchanges]
  exact hk _ _ _ ht

end Twin

/-! ## Inside a call -/

namespace Using

variable {P : Pair Db} {owned₁ owned₂ : Bool} {k : ℕ}

/-- Both handles have just got a statement. -/
theorem of_fresh {sql : CStr} {id₁ id₂ : StmtId} (hview : h₁.view = h₂.view)
    (hrel : Reliable h₁.view) (hu₁ : InUse dialect e sql id₁ owned₁ h₁)
    (hu₂ : InUse dialect e sql id₂ owned₂ h₂) {st₁ st₂ : Stmt}
    (hst₁ : h₁.ctx.stmts id₁ = some st₁) (hf₁ : st₁.Fresh dialect sql)
    (hst₂ : h₂.ctx.stmts id₂ = some st₂) (hf₂ : st₂.Fresh dialect sql) :
    Using ⟨dialect, e, sql, id₁, id₂, h₁.ctx, h₂.ctx⟩ owned₁ owned₂ 0 h₁ h₂ where
  view_eq := hview
  reliable := hrel
  use₁ := hu₁
  use₂ := hu₂
  agree := by
    refine ⟨st₁, st₂, h₁.ctx.conn, ?_, ?_, rfl, .of_fresh hf₁ hf₂⟩
    · rw [Session.put_self _ hst₁]
    · rw [Session.put_self _ hst₂]
      exact congrArg (fun c => { h₂.ctx with conn := c }) (congrArg SqlRDBHandle.ctx hview).symm

/-- The sessions go on. -/
theorem withCtx (hu : Using P owned₁ owned₂ k h₁ h₂) {j : ℕ} {s₁ s₂ : Session Db}
    (ha : P.Agree j s₁ s₂) :
    Using P owned₁ owned₂ j { h₁ with ctx := s₁ } { h₂ with ctx := s₂ } := by
  have hfaults : ∀ i, P.base₁.conn.faults .prepare i = none := by
    obtain ⟨st₁, st₂, c, hs₁, -, hf, -⟩ := hu.agree
    intro i
    rw [← hf]
    have := hu.reliable.faults i
    rw [show h₁.view.ctx = h₁.ctx.conn from rfl, hs₁] at this
    exact this
  have ha' := ha
  obtain ⟨st₁, st₂, c, rfl, rfl, hf, -⟩ := ha
  exact {
    view_eq := congrArg (fun v => { v with ctx := c }) hu.view_eq
    reliable := ⟨fun i => (congrFun (congrFun hf _) i).trans (hfaults i), hu.reliable.heap,
      hu.reliable.schemas⟩
    use₁ := hu.use₁
    use₂ := hu.use₂
    agree := ha' }

theorem mono (hu : Using P owned₁ owned₂ k h₁ h₂) {j : ℕ} (hj : j ≤ k) :
    Using P owned₁ owned₂ j h₁ h₂ :=
  { hu with agree := Pair.agree_mono hu.agree hj }

/-- A call in both sessions. -/
theorem seq_drv' {c d : StateM (Session Db) α} {f g : α → Api (Session Db) β}
    {G : α → Session Db → Session Db → Prop}
    (hc : rwp c d (fun a s₁ b s₂ => a = b ∧ G a s₁ s₂) h₁.ctx h₂.ctx)
    (hk : ∀ a s₁ s₂, G a s₁ s₂ →
      rwp (f a) (g a) Φ { h₁ with ctx := s₁ } { h₂ with ctx := s₂ }) :
    rwp (drv c >>= f) (drv d >>= g) Φ h₁ h₂ := by
  obtain ⟨hab, hG⟩ := hc
  have hcont := hk (c h₁.ctx).1 _ _ hG
  change rwp (f (c h₁.ctx).1) (g (d h₂.ctx).1) Φ { h₁ with ctx := (c h₁.ctx).2 }
    { h₂ with ctx := (d h₂.ctx).2 }
  rwa [← hab]

/-- A call on both statements. -/
theorem seq_drv (hu : Using P owned₁ owned₂ k h₁ h₂) {c d : StateM (Session Db) α}
    {f g : α → Api (Session Db) β} {j : ℕ}
    (hc : rwp c d (fun a s₁ b s₂ => a = b ∧ P.Agree j s₁ s₂) h₁.ctx h₂.ctx)
    (hk : ∀ a h₁ h₂, Using P owned₁ owned₂ j h₁ h₂ → rwp (f a) (g a) Φ h₁ h₂) :
    rwp (drv c >>= f) (drv d >>= g) Φ h₁ h₂ :=
  seq_drv' hc fun a _ _ ha => hk a _ _ (hu.withCtx ha)

/-- The same change of what the heap has recorded; requests are not counted. -/
theorem withHeap (hu : Using P owned₁ owned₂ k h₁ h₂) (t₁ t₂ : ℕ) (f : Bool → Bool) :
    Using P owned₁ owned₂ k
      { h₁ with heap := { h₁.heap with tick := t₁, corrupt := f h₁.heap.corrupt } }
      { h₂ with heap := { h₂.heap with tick := t₂, corrupt := f h₂.heap.corrupt } } where
  view_eq := congrArg (fun v => { v with heap := { v.heap with corrupt := f v.heap.corrupt } })
    hu.view_eq
  reliable := ⟨hu.reliable.faults, hu.reliable.heap, hu.reliable.schemas⟩
  use₁ := hu.use₁
  use₂ := hu.use₂
  agree := hu.agree

theorem seq_malloc (hu : Using P owned₁ owned₂ k h₁ h₂) {f g : Bool → Api (Session Db) β}
    (hk : ∀ h₁ h₂, Using P owned₁ owned₂ k h₁ h₂ → rwp (f true) (g true) Φ h₁ h₂) :
    rwp (malloc >>= f) (malloc >>= g) Φ h₁ h₂ := by
  have hheap : h₂.heap.fails = h₁.heap.fails :=
    (congrArg (fun v => v.heap.fails) hu.view_eq).symm
  have hfails : ∀ i, h₁.heap.fails i = false := hu.reliable.heap
  rw [rwp_bind, rwp, malloc, malloc, hheap, hfails, hfails]
  exact hk _ _ (hu.withHeap _ _ id)

theorem seq_noteOverrun (hu : Using P owned₁ owned₂ k h₁ h₂) (b : Buffer)
    {f g : Unit → Api (Session Db) β}
    (hk : ∀ h₁ h₂, Using P owned₁ owned₂ k h₁ h₂ → rwp (f ()) (g ()) Φ h₁ h₂) :
    rwp (noteOverrun b >>= f) (noteOverrun b >>= g) Φ h₁ h₂ :=
  hk _ _ (hu.withHeap _ _ fun corrupt => corrupt || b.overrun)

/-- The statements are given back. -/
theorem seq_release (hu : Using P owned₁ owned₂ k h₁ h₂) {f g : Unit → Api (Session Db) β}
    (hk : ∀ h₁ h₂, Twin P.dialect P.engine h₁ h₂ → rwp (f ()) (g ()) Φ h₁ h₂) :
    rwp (releaseCachedStmt P.drv P.id₁ owned₁ >>= f)
      (releaseCachedStmt P.drv P.id₂ owned₂ >>= g) Φ h₁ h₂ := by
  obtain ⟨st₁, st₂, c, hs₁, hs₂, -, ps₁, ps₂, cur, rfl, rfl, -⟩ := hu.agree
  have hrelease : ∀ {h : SqlRDBHandle (Session Db)} {id : StmtId} {owned : Bool} {s : Session Db}
      {ps : ℕ → SqlValue}, InUse P.dialect P.engine P.sql id owned { h with ctx := s } →
      h.ctx = s.put id ⟨P.sql, countParams P.dialect P.sql, ps, cur⟩ c →
      wp (releaseCachedStmt P.drv id owned)
        (fun _ h' => CacheSound P.dialect P.engine h' ∧ h'.view = h.view) h := by
    intro h id owned s ps hu hs
    have hspec := release_put hu
      (show (⟨P.sql, countParams P.dialect P.sql, ps, cur⟩ : Stmt).sql = P.sql from rfl) rfl c
    simp only [← hs] at hspec
    refine wp_mono hspec fun _ h' hrel => ⟨hrel.1, hrel.2.trans ?_⟩
    have hc : c = h.view.ctx := by
      rw [show h.view.ctx = h.ctx.conn from rfl, hs]
      rfl
    rw [hc]
    rfl
  refine rwp_seq (rwp_of_wp (hrelease hu.use₁ hs₁) (hrelease hu.use₂ hs₂)
    fun _ _ _ _ h₁ h₂ => And.intro h₁ h₂) fun _ h₁' _ h₂' h => hk _ _ ?_
  obtain ⟨⟨hsound₁, hview₁⟩, hsound₂, hview₂⟩ := h
  exact ⟨hview₁.trans (hu.view_eq.trans hview₂.symm), hview₁ ▸ hu.reliable, hsound₁, hsound₂⟩

end Using

/-- The common end of a call. -/
theorem Using.close {P : Pair Db} {owned₁ owned₂ : Bool} {k : ℕ}
    (hu : Using P owned₁ owned₂ k h₁ h₂) (r : α) :
    Alike P.dialect P.engine (do releaseCachedStmt P.drv P.id₁ owned₁; mutexUnlock; pure r)
      (do releaseCachedStmt P.drv P.id₂ owned₂; mutexUnlock; pure r) h₁ h₂ :=
  hu.seq_release fun _ _ ht => ht.exit r

/-- The parameters of both statements are bound, or the call ends. -/
theorem Using.seq_bind {P : Pair Db} {owned₁ owned₂ : Bool} {k j : ℕ} {p : Prop}
    (hu : Using P owned₁ owned₂ k h₁ h₂) {c d : StateM (Session Db) SqlRDBResult}
    (hc : rwp c d (fun a s₁ b s₂ => a = b ∧ P.Agree 0 s₁ s₂ ∧
      (a = .ok → P.Agree j s₁ s₂ ∧ p)) h₁.ctx h₂.ctx) {x : SqlRDBResult → α}
    {f g : SqlRDBResult → Api (Session Db) α}
    (hk : p → ∀ r h₁ h₂, Using P owned₁ owned₂ j h₁ h₂ →
      Alike P.dialect P.engine (f r) (g r) h₁ h₂) :
    Alike P.dialect P.engine
      (do
        let r ← drv c
        if r ≠ .ok then
          releaseCachedStmt P.drv P.id₁ owned₁
          mutexUnlock
          pure (x r)
        else f r)
      (do
        let r ← drv d
        if r ≠ .ok then
          releaseCachedStmt P.drv P.id₂ owned₂
          mutexUnlock
          pure (x r)
        else g r) h₁ h₂ := by
  refine Using.seq_drv' hc fun r s₁ s₂ hab => rwp_ite (fun _ => ?_) fun hr => ?_
  · exact (hu.withCtx hab.1).close (x r)
  · obtain ⟨ha, hp⟩ := hab.2 (not_not.1 hr)
    exact hk hp r _ _ (hu.withCtx ha)

/-! ## Opening a statement -/

namespace Twin

/-- Both get a statement of a text, or none of them does. -/
theorem got (ht : Twin dialect e h₁ h₂) {sql : CStr} {x y : Except SqlRDBResult (StmtId × Bool)}
    {h₁' h₂' : SqlRDBHandle (Session Db)} (hview₁ : h₁'.view = h₁.view)
    (hview₂ : h₂'.view = h₂.view) (hgot₁ : Got dialect e h₁ sql x h₁')
    (hgot₂ : Got dialect e h₂ sql y h₂') :
    (∃ r, x = .error r ∧ y = .error r ∧ Twin dialect e h₁' h₂') ∨
      ∃ id₁ owned₁ id₂ owned₂, x = .ok (id₁, owned₁) ∧ y = .ok (id₂, owned₂) ∧
        Using ⟨dialect, e, sql, id₁, id₂, h₁'.ctx, h₂'.ctx⟩ owned₁ owned₂ 0 h₁' h₂' := by
  have hview : h₁'.view = h₂'.view := hview₁.trans (ht.view_eq.trans hview₂.symm)
  have hrel : Reliable h₁'.view := hview₁ ▸ ht.reliable
  have hrel₂ : Reliable h₂.view := ht.view_eq ▸ ht.reliable
  cases x with
  | error r₁ =>
    obtain ⟨rfl, hc⟩ := hgot₁.2.2 ht.reliable.faults ht.reliable.heap
    cases y with
    | error r₂ =>
      obtain ⟨rfl, -⟩ := hgot₂.2.2 hrel₂.faults hrel₂.heap
      exact .inl ⟨_, rfl, rfl, hview, hrel, hgot₁.2.1, hgot₂.2.1⟩
    | ok y => exact absurd hc hgot₂.2.2
  | ok x =>
    cases y with
    | error r₂ => exact absurd (hgot₂.2.2 hrel₂.faults hrel₂.heap).2 hgot₁.2.2
    | ok y =>
      obtain ⟨hu₁, ⟨st₁, hst₁, hf₁⟩, -⟩ := hgot₁
      obtain ⟨hu₂, ⟨st₂, hst₂, hf₂⟩, -⟩ := hgot₂
      exact .inr ⟨_, _, _, _, rfl, rfl, Using.of_fresh hview hrel hu₁ hu₂ hst₁ hf₁ hst₂ hf₂⟩

theorem seq_getOrPrepare (ht : Twin dialect e h₁ h₂) (sql : CStr)
    {f g : Except SqlRDBResult (StmtId × Bool) → Api (Session Db) β}
    (herr : ∀ r h₁ h₂, Twin dialect e h₁ h₂ → rwp (f (.error r)) (g (.error r)) Φ h₁ h₂)
    (hok : ∀ id₁ owned₁ id₂ owned₂ h₁ h₂,
      Using ⟨dialect, e, sql, id₁, id₂, h₁.ctx, h₂.ctx⟩ owned₁ owned₂ 0 h₁ h₂ →
      rwp (f (.ok (id₁, owned₁))) (g (.ok (id₂, owned₂))) Φ h₁ h₂) :
    rwp (getOrPrepare (driver dialect e) sql >>= f)
      (getOrPrepare (driver dialect e) sql >>= g) Φ h₁ h₂ := by
  refine rwp_seq (rwp_of_wp (getOrPrepare_spec ht.sound₁ sql) (getOrPrepare_spec ht.sound₂ sql)
    fun _ _ _ _ h₁ h₂ => And.intro h₁ h₂) fun a h₁' b h₂' h => ?_
  obtain ⟨r, rfl, rfl, ht'⟩ | ⟨id₁, o₁, id₂, o₂, rfl, rfl, hu⟩ := ht.got h.1.1 h.2.1 h.1.2 h.2.2
  · exact herr _ _ _ ht'
  · exact hok _ _ _ _ _ _ hu

/-- Both prepare a statement of their own, or none of them does. -/
theorem seq_prepare (ht : Twin dialect e h₁ h₂) (sql : CStr)
    {f g : SqlRDBResult × StmtId → Api (Session Db) β}
    (herr : ∀ r id₁ id₂ h₁ h₂, r ≠ .ok → Twin dialect e h₁ h₂ →
      rwp (f (r, id₁)) (g (r, id₂)) Φ h₁ h₂)
    (hok : ∀ id₁ id₂ h₁ h₂,
      Using ⟨dialect, e, sql, id₁, id₂, h₁.ctx, h₂.ctx⟩ true true 0 h₁ h₂ →
      rwp (f (.ok, id₁)) (g (.ok, id₂)) Φ h₁ h₂) :
    rwp (drv ((driver dialect e).prepare sql) >>= f) (drv ((driver dialect e).prepare sql) >>= g)
      Φ h₁ h₂ := by
  refine rwp_seq (rwp_of_wp (prepare_got ht.sound₁ sql) (prepare_got ht.sound₂ sql)
    fun _ _ _ _ h₁ h₂ => And.intro h₁ h₂) fun a h₁' b h₂' h => ?_
  obtain ⟨⟨hview₁, hgot₁⟩, hview₂, hgot₂⟩ := h
  obtain ⟨r₁, id₁⟩ := a
  obtain ⟨r₂, id₂⟩ := b
  simp only at hgot₁ hgot₂
  obtain ⟨rfl, hgot₁⟩ | ⟨hr₁, hgot₁⟩ := hgot₁ <;> obtain ⟨rfl, hgot₂⟩ | ⟨hr₂, hgot₂⟩ := hgot₂
  · obtain ⟨r, hx, -⟩ | ⟨_, _, _, _, hx, hy, hu⟩ := ht.got hview₁ hview₂ hgot₁ hgot₂
    · cases hx
    · cases hx
      cases hy
      exact hok _ _ _ _ hu
  · obtain ⟨r, hx, -⟩ | ⟨_, _, _, _, -, hy, -⟩ := ht.got hview₁ hview₂ hgot₁ hgot₂
    · cases hx
    · cases hy
  · obtain ⟨r, -, hy, -⟩ | ⟨_, _, _, _, hx, -⟩ := ht.got hview₁ hview₂ hgot₁ hgot₂
    · cases hy
    · cases hx
  · obtain ⟨r, hx, hy, ht'⟩ | ⟨_, _, _, _, hx, -⟩ := ht.got hview₁ hview₂ hgot₁ hgot₂
    · cases hx
      cases hy
      exact herr _ _ _ _ _ hr₁ ht'
    · cases hx

theorem seq_qbBuild (ht : Twin dialect e h₁ h₂) (spec : SqlRDBQuerySpec)
    {f g : Except SqlRDBResult (CStr × ℕ) → Api (Session Db) β}
    (hk : ∀ h₁ h₂, Twin dialect e h₁ h₂ →
      rwp (f (internalQbBuild spec)) (g (internalQbBuild spec)) Φ h₁ h₂) :
    rwp (qbBuild spec >>= f) (qbBuild spec >>= g) Φ h₁ h₂ := by
  have hrun : ∀ {h : SqlRDBHandle (Session Db)}, (∀ k, h.heap.fails k = false) →
      qbBuild spec h = (internalQbBuild spec, { h with heap := h.heap.next }) := by
    intro h hf
    have hmalloc : malloc h = (true, { h with heap := h.heap.next }) := by
      rw [malloc, hf]
      rfl
    rw [qbBuild, bind_of_run hmalloc]
    rfl
  have hheap : h₂.heap.fails = h₁.heap.fails :=
    (congrArg (fun v => v.heap.fails) ht.view_eq).symm
  rw [rwp_bind, rwp, hrun ht.reliable.heap, hrun (fun k => by rw [hheap]; exact ht.reliable.heap k)]
  exact hk _ _ ⟨ht.view_eq, ht.reliable, ht.sound₁, ht.sound₂⟩

/-- Both open a statement for the query, or none of them does. -/
theorem seq_openStmt (ht : Twin dialect e h₁ h₂) (who name : CStr)
    (spec : SqlRDBSchema → SqlRDBQuerySpec)
    {f g : Except SqlRDBResult (SqlRDBSchema × StmtId × Bool) → Api (Session Db) β}
    (herr : ∀ r h₁ h₂, Twin dialect e h₁ h₂ → rwp (f (.error r)) (g (.error r)) Φ h₁ h₂)
    (hok : ∀ schema sql n id₁ owned₁ id₂ owned₂ h₁ h₂, schema.WellFormed →
      internalQbBuild (spec schema) = .ok (sql, n) →
      Using ⟨dialect, e, sql, id₁, id₂, h₁.ctx, h₂.ctx⟩ owned₁ owned₂ 0 h₁ h₂ →
      rwp (f (.ok (schema, id₁, owned₁))) (g (.ok (schema, id₂, owned₂))) Φ h₁ h₂) :
    rwp (openStmt (driver dialect e) who name spec >>= f)
      (openStmt (driver dialect e) who name spec >>= g) Φ h₁ h₂ := by
  rw [rwp_bind, openStmt, rwp_bind, rwp_get, ht.lookup_eq]
  cases hlook : h₂.lookup name with
  | none =>
    exact ht.seq_errSet _ _ fun _ _ ht => ht.seq_mutexUnlock fun _ _ ht => herr _ _ _ ht
  | some schema =>
    have hwf : schema.WellFormed :=
      ht.reliable.schemas name schema ((ht.lookup_eq name).trans hlook)
    refine ht.seq_qbBuild _ fun h₁ h₂ ht => ?_
    cases hb : internalQbBuild (spec schema) with
    | error r => exact ht.seq_mutexUnlock fun _ _ ht => herr _ _ _ ht
    | ok text =>
      refine ht.seq_getOrPrepare text.1 (fun r h₁ h₂ ht => ?_) fun id₁ o₁ id₂ o₂ h₁ h₂ hu => ?_
      · exact ht.seq_mutexUnlock fun _ _ ht => herr _ _ _ ht
      · exact hok _ _ _ _ _ _ _ _ _ hwf hb hu

end Twin

end Rules

/-! ## The calls -/

section Calls

variable {dialect : C2SqlDialect} {e : Engine Db} {h₁ h₂ : SqlRDBHandle (Session Db)}

/-- The row of a write is bound. -/
theorem Using.bindRow {sql : CStr} {id₁ id₂ : StmtId} {b₁ b₂ : Session Db} {owned₁ owned₂ : Bool}
    (hu : Using ⟨dialect, e, sql, id₁, id₂, b₁, b₂⟩ owned₁ owned₂ 0 h₁ h₂) (schema : SqlRDBSchema)
    (row : Mem) (nullMap : Option Mem) :
    rwp (internalTmBindRow (driver dialect e) id₁ schema row nullMap)
      (internalTmBindRow (driver dialect e) id₂ schema row nullMap)
      (fun a s₁ b s₂ => a = b ∧ Pair.Agree ⟨dialect, e, sql, id₁, id₂, b₁, b₂⟩ 0 s₁ s₂ ∧
        (a = .ok → Pair.Agree ⟨dialect, e, sql, id₁, id₂, b₁, b₂⟩ schema.cols.length s₁ s₂ ∧
          True)) h₁.ctx h₂.ctx := by
  refine rwp_mono (Pair.agree_bindRowFrom hu.agree row nullMap schema.cols)
    fun a s₁ b s₂ hab => ⟨hab.1, hab.2.1, fun ha => ⟨?_, trivial⟩⟩
  rw [← Nat.zero_add schema.cols.length]
  exact hab.2.2 ha

/-- The condition of a call is bound to the first parameters. -/
theorem Using.bindCond {P : Pair Db} {owned₁ owned₂ : Bool} (hu : Using P owned₁ owned₂ 0 h₁ h₂)
    (cond : Option SqlRDBCondition) :
    rwp (bindCond (P.drv.bind P.id₁) cond 1) (bindCond (P.drv.bind P.id₂) cond 1)
      (fun a s₁ b s₂ => a = b ∧ P.Agree 0 s₁ s₂ ∧
        (a = .ok → P.Agree (0 + condLeaves cond) s₁ s₂ ∧ 0 + condLeaves cond < 2 ^ 31))
      h₁.ctx h₂.ctx :=
  Pair.agree_bindCond hu.agree (by omega) cond

theorem Twin.write (ht : Twin dialect e h₁ h₂) (structName : Option CStr) (row : Option Mem)
    (nullMap : Option Mem) :
    Alike dialect e (sqlRDBWrite (driver dialect e) structName row nullMap)
      (sqlRDBWrite (driver dialect e) structName row nullMap) h₁ h₂ := by
  unfold sqlRDBWrite
  rw [Alike, rwp_bind, rwp_get, ht.valid_eq]
  refine rwp_ite (fun _ => ⟨rfl, ht⟩) fun _ => ?_
  cases structName with
  | none => exact ⟨rfl, ht⟩
  | some name =>
    cases row with
    | none => exact ⟨rfl, ht⟩
    | some row =>
      refine ht.seq_mutexLock fun h₁ h₂ ht => ht.seq_openStmt _ _ _ (fun r h₁ h₂ ht => ?_)
        fun schema sql n id₁ o₁ id₂ o₂ h₁ h₂ hwf hb hu => ?_
      · exact ⟨rfl, ht⟩
      · have hn := countParams_of_write hwf hb
        refine hu.seq_bind (hu.bindRow schema row nullMap) fun _ r h₁ h₂ hu => ?_
        refine hu.seq_drv (Pair.agree_step hu.agree hn.le) fun res h₁ h₂ hu => ?_
        refine hu.seq_release fun h₁ h₂ ht => rwp_ite (fun _ => ?_) fun _ => ht.exit _
        exact ht.seq_errSet _ _ fun h₁ h₂ ht => ht.exit _

theorem Twin.delete (ht : Twin dialect e h₁ h₂) (structName : Option CStr)
    (cond : Option SqlRDBCondition) (outDeleted : Option ℕ) :
    Alike dialect e (sqlRDBDelete (driver dialect e) structName cond outDeleted)
      (sqlRDBDelete (driver dialect e) structName cond outDeleted) h₁ h₂ := by
  unfold sqlRDBDelete
  rw [Alike, rwp_bind, rwp_get, ht.valid_eq]
  refine rwp_ite (fun _ => ⟨rfl, ht⟩) fun _ => ?_
  cases structName with
  | none => exact ⟨rfl, ht⟩
  | some name =>
    cases cond with
    | none => exact ⟨rfl, ht⟩
    | some cond =>
      refine ht.seq_mutexLock fun h₁ h₂ ht => ht.seq_openStmt _ _ _ (fun r h₁ h₂ ht => ?_)
        fun schema sql n id₁ o₁ id₂ o₂ h₁ h₂ hwf hb hu => ?_
      · exact ⟨rfl, ht⟩
      · refine hu.seq_bind (hu.bindCond (some cond)) fun hlt r h₁ h₂ hu => ?_
        have hn := countParams_of_cond hwf rfl rfl hb hlt
        refine hu.seq_drv (Pair.agree_step hu.agree hn.le) fun res h₁ h₂ hu => ?_
        refine hu.seq_release fun h₁ h₂ ht => rwp_ite (fun _ => ?_) fun _ => ht.exit _
        exact ht.seq_changes fun n h₁ h₂ ht => ht.exit _

theorem Twin.count (ht : Twin dialect e h₁ h₂) (structName : Option CStr)
    (cond : Option SqlRDBCondition) (outCount : Option ℕ) :
    Alike dialect e (sqlRDBCount (driver dialect e) structName cond outCount)
      (sqlRDBCount (driver dialect e) structName cond outCount) h₁ h₂ := by
  unfold sqlRDBCount
  rw [Alike, rwp_bind, rwp_get, ht.valid_eq]
  refine rwp_ite (fun _ => ⟨rfl, ht⟩) fun _ => ?_
  cases structName with
  | none => exact ⟨rfl, ht⟩
  | some name =>
    cases outCount with
    | none => exact ⟨rfl, ht⟩
    | some old =>
      refine ht.seq_mutexLock fun h₁ h₂ ht => ht.seq_openStmt _ _ _ (fun r h₁ h₂ ht => ?_)
        fun schema sql n id₁ o₁ id₂ o₂ h₁ h₂ hwf hb hu => ?_
      · exact ⟨rfl, ht⟩
      · refine hu.seq_bind (hu.bindCond cond) fun hlt r h₁ h₂ hu => ?_
        have hn := countParams_of_cond hwf rfl rfl hb hlt
        refine hu.seq_drv (Pair.agree_step hu.agree hn.le) fun res h₁ h₂ hu => ?_
        exact hu.seq_drv (Pair.agree_readCount hu.agree ..) fun res h₁ h₂ hu => hu.close _

theorem Using.readBuffered {P : Pair Db} {owned₁ owned₂ : Bool} {k : ℕ}
    (hu : Using P owned₁ owned₂ k h₁ h₂) (hk : countParams P.dialect P.sql ≤ k)
    (schema : SqlRDBSchema) (out : Buffer) (outNullMap : Option Mem) :
    Alike P.dialect P.engine (readBuffered P.drv P.id₁ owned₁ schema out outNullMap)
      (readBuffered P.drv P.id₂ owned₂ schema out outNullMap) h₁ h₂ := by
  unfold C2Sql.readBuffered
  refine hu.seq_malloc fun h₁ h₂ hu => ?_
  have hcalloc : ∀ {f g : Option Mem → Api (Session Db) (SqlRDBResult × Buffer × Option Mem)},
      (∀ nm h₁ h₂, Using P owned₁ owned₂ k h₁ h₂ → Alike P.dialect P.engine (f nm) (g nm) h₁ h₂) →
      Alike P.dialect P.engine (callocNullMap outNullMap >>= f) (callocNullMap outNullMap >>= g)
        h₁ h₂ := by
    intro f g hfg
    cases outNullMap with
    | none => exact hfg _ _ _ hu
    | some m =>
      simp only [callocNullMap, bind_assoc, pure_bind]
      exact hu.seq_malloc fun h₁ h₂ hu => hfg _ _ _ hu
  refine hcalloc fun nm h₁ h₂ hu => ?_
  refine hu.seq_drv (Pair.agree_readRow hu.agree ..) fun res h₁ h₂ hu => ?_
  refine hu.seq_noteOverrun res.2.1 fun h₁ h₂ hu => rwp_ite (fun _ => hu.close _) fun _ => ?_
  refine hu.seq_drv (Pair.agree_step hu.agree hk) fun res h₁ h₂ hu => ?_
  exact hu.seq_release fun h₁ h₂ ht => rwp_ite (fun _ => ht.exit _) fun _ => ht.exit _

theorem Twin.read (ht : Twin dialect e h₁ h₂) (structName : Option CStr)
    (cond : Option SqlRDBCondition) (out : ReadOut) (opts : Option SqlRDBReadOpts) :
    Alike dialect e (sqlRDBRead (driver dialect e) structName cond out opts)
      (sqlRDBRead (driver dialect e) structName cond out opts) h₁ h₂ := by
  unfold sqlRDBRead
  rw [Alike, rwp_bind, rwp_get, ht.valid_eq]
  refine rwp_ite (fun _ => ⟨rfl, ht⟩) fun _ => ?_
  cases structName with
  | none => exact ⟨rfl, ht⟩
  | some name =>
    cases out.row with
    | none => exact ⟨rfl, ht⟩
    | some row =>
      refine ht.seq_mutexLock fun h₁ h₂ ht => ht.seq_openStmt _ _ _ (fun r h₁ h₂ ht => ?_)
        fun schema sql n id₁ o₁ id₂ o₂ h₁ h₂ hwf hb hu => ?_
      · exact ⟨rfl, ht⟩
      · have hmulti : h₁.config.multirowDefault = h₂.config.multirowDefault :=
          congrArg (fun v => v.config.multirowDefault) hu.view_eq
        simp only
        rw [rwp_bind, rwp_get, hmulti]
        refine hu.seq_bind (hu.bindCond cond) fun hlt r h₁ h₂ hu => ?_
        have hn := countParams_of_cond hwf rfl rfl hb hlt
        refine hu.seq_drv (Pair.agree_step hu.agree hn.le) fun res h₁ h₂ hu => ?_
        refine rwp_ite (fun _ => hu.close _) fun _ => rwp_ite (fun _ => hu.close _) fun _ => ?_
        refine rwp_ite (fun _ => ?_) fun _ => ?_
        · exact hu.seq_drv (Pair.agree_readRow hu.agree ..) fun res h₁ h₂ hu => hu.close _
        · refine rwp_seq (hu.readBuffered hn.le schema row out.nullMap) fun a h₁ b h₂ hab => ?_
          obtain ⟨rfl, ht⟩ := hab
          exact ⟨rfl, ht⟩

theorem Conn.faults_control (dialect : C2SqlDialect) (call : DriverCall)
    (f : Store CStr Db → Option (Store CStr Db)) (c : Conn Db) :
    (c.call call fun c => c.txn (dialect == .postgres) (f c.store)).2.faults = c.faults := by
  rw [Conn.call, Conn.fault]
  cases c.faults call c.tick with
  | some x => rfl
  | none =>
    simp only [Conn.txn]
    cases f c.store <;> rfl

theorem Twin.writeMany (ht : Twin dialect e h₁ h₂) (structName : Option CStr) (rows : Option Mem)
    (count stride : ℕ) (nullMaps : Option Mem) :
    Alike dialect e (sqlRDBWriteMany (driver dialect e) structName rows count stride nullMaps)
      (sqlRDBWriteMany (driver dialect e) structName rows count stride nullMaps) h₁ h₂ := by
  unfold sqlRDBWriteMany
  rw [Alike, rwp_bind, rwp_get, ht.valid_eq]
  refine rwp_ite (fun _ => ⟨rfl, ht⟩) fun _ => ?_
  cases structName with
  | none => exact ⟨rfl, ht⟩
  | some name =>
    cases rows with
    | none => exact ⟨rfl, ht⟩
    | some rows =>
      refine rwp_ite (fun _ => ⟨rfl, ht⟩) fun _ => ?_
      refine ht.seq_mutexLock fun h₁ h₂ ht => ht.seq_openStmt _ _ _ (fun r h₁ h₂ ht => ?_)
        fun schema sql n id₁ o₁ id₂ o₂ h₁ h₂ hwf hb hu => ?_
      · exact ⟨rfl, ht⟩
      · have hn := countParams_of_write hwf hb
        have hdepth : h₁.txn.depth = h₂.txn.depth := congrArg (fun v => v.txn.depth) hu.view_eq
        simp only
        rw [rwp_bind, rwp_get, hdepth]
        by_cases hd : h₂.txn.depth = 0
        · simp only [hd, if_true]
          refine hu.seq_drv (Pair.holds_onConn hu.agree (Conn.faults_control dialect _ _))
            fun br h₁ h₂ hu => rwp_ite (fun _ => hu.close _) fun _ => ?_
          refine hu.seq_drv (Pair.agree_writeRows hu.agree hn ..) fun r h₁ h₂ hu =>
            rwp_ite (fun _ => ?_) fun _ => ?_
          · exact hu.seq_drv (Pair.holds_onConn hu.agree (Conn.faults_control dialect _ _))
              fun _ h₁ h₂ hu => hu.close _
          · exact hu.seq_drv (Pair.holds_onConn hu.agree (Conn.faults_control dialect _ _))
              fun _ h₁ h₂ hu => hu.close _
        · simp only [hd, if_false, pure_bind, ne_eq, not_true_eq_false]
          exact hu.seq_drv (Pair.agree_writeRows hu.agree hn ..) fun r h₁ h₂ hu => hu.close _

/-! ## BLOB fields -/

theorem Using.seq_finalize {P : Pair Db} {k : ℕ} {β : Type}
    {Φ : β → SqlRDBHandle (Session Db) → β → SqlRDBHandle (Session Db) → Prop}
    (hu : Using P true true k h₁ h₂) {f g : Api (Session Db) β}
    (hk : ∀ h₁ h₂, Twin P.dialect P.engine h₁ h₂ → rwp f g Φ h₁ h₂) :
    rwp (drv (P.drv.finalize P.id₁) >>= fun _ => f) (drv (P.drv.finalize P.id₂) >>= fun _ => g)
      Φ h₁ h₂ := by
  have hrel := hu.seq_release (f := fun _ => f) (g := fun _ => g) (Φ := Φ) hk
  exact hrel

theorem Twin.countMatchingRows (ht : Twin dialect e h₁ h₂) {schema : SqlRDBSchema}
    (hwf : schema.WellFormed) (col : CStr) (cond : SqlRDBCondition) :
    Alike dialect e (countMatchingRows (driver dialect e) schema col cond)
      (countMatchingRows (driver dialect e) schema col cond) h₁ h₂ := by
  unfold C2Sql.countMatchingRows
  refine ht.seq_qbBuild _ fun h₁ h₂ ht => ?_
  cases hb : internalQbBuild (fieldSpec .selectField cond col dialect schema) with
  | error r =>
    rw [show (driver dialect e).dialect = dialect from rfl, hb]
    exact ⟨rfl, ht⟩
  | ok text =>
    rw [show (driver dialect e).dialect = dialect from rfl, hb]
    refine ht.seq_prepare _ (fun r id₁ id₂ h₁ h₂ hr ht => ?_) fun id₁ id₂ h₁ h₂ hu => ?_
    · exact rwp_ite (fun _ => ⟨rfl, ht⟩) fun h => absurd hr h
    · refine rwp_ite (fun h => absurd rfl h) fun _ => ?_
      refine Using.seq_drv' (hu.bindCond (some cond)) fun r s₁ s₂ hab =>
        rwp_ite (fun _ => ?_) fun hr => ?_
      · exact (hu.withCtx hab.1).seq_finalize fun _ _ ht => ⟨rfl, ht⟩
      · obtain ⟨ha, hlt⟩ := hab.2 (not_not.1 hr)
        have hn := countParams_of_field hwf rfl hb hlt
        have hu := hu.withCtx ha
        unfold countRows
        refine hu.seq_drv (Pair.agree_step hu.agree hn.le) fun res h₁ h₂ hu =>
          rwp_ite (fun _ => ?_) fun _ => rwp_ite (fun _ => ?_) fun _ => ?_
        · exact hu.seq_finalize fun _ _ ht => ⟨rfl, ht⟩
        · refine hu.seq_drv (Pair.agree_step hu.agree hn.le) fun res h₁ h₂ hu =>
            hu.seq_finalize fun _ _ ht => rwp_ite (fun _ => ⟨rfl, ht⟩) fun _ => ⟨rfl, ht⟩
        · exact hu.seq_finalize fun _ _ ht => ⟨rfl, ht⟩

theorem Twin.updateField (ht : Twin dialect e h₁ h₂) {schema : SqlRDBSchema}
    (hwf : schema.WellFormed) (key : SqlRDBCondition) (col : CStr) (bytes : List UInt8) :
    Alike dialect e (updateField (driver dialect e) schema key col bytes)
      (updateField (driver dialect e) schema key col bytes) h₁ h₂ := by
  unfold C2Sql.updateField
  refine ht.seq_qbBuild _ fun h₁ h₂ ht => ?_
  cases hb : internalQbBuild (fieldSpec .updateField key col dialect schema) with
  | error r =>
    rw [show (driver dialect e).dialect = dialect from rfl, hb]
    exact ht.exit _
  | ok text =>
    rw [show (driver dialect e).dialect = dialect from rfl, hb]
    refine ht.seq_getOrPrepare _ (fun r h₁ h₂ ht => ?_) fun id₁ o₁ id₂ o₂ h₁ h₂ hu => ?_
    · exact ht.exit _
    · have hblob := Pair.agree_bind hu.agree 1 (.blob bytes)
      refine hu.seq_bind (j := 1) (p := True) (rwp_mono hblob fun a s₁ b s₂ hab =>
        ⟨hab.1, hab.2.1, fun ha => ⟨(hab.2.2 ha).2 (by simp), trivial⟩⟩) fun _ r h₁ h₂ hu => ?_
      refine hu.seq_bind (Pair.agree_bindCond hu.agree (by omega) (some key))
        fun hlt r h₁ h₂ hu => ?_
      have hn := countParams_of_field hwf rfl hb hlt
      refine hu.seq_drv (Pair.agree_step hu.agree hn.le) fun res h₁ h₂ hu => ?_
      refine hu.seq_release fun h₁ h₂ ht => rwp_ite (fun _ => ?_) fun _ => ht.exit _
      exact ht.seq_errSet _ _ fun h₁ h₂ ht => ht.exit _

theorem Twin.writeBlobField (ht : Twin dialect e h₁ h₂) (structName : Option CStr)
    (key : Option SqlRDBCondition) (colName : Option CStr) (bytes : Option (List UInt8)) :
    Alike dialect e (sqlRDBWriteBlobField (driver dialect e) structName key colName bytes)
      (sqlRDBWriteBlobField (driver dialect e) structName key colName bytes) h₁ h₂ := by
  unfold sqlRDBWriteBlobField
  rw [Alike, rwp_bind, rwp_get, ht.valid_eq]
  refine rwp_ite (fun _ => ⟨rfl, ht⟩) fun _ => ?_
  split
  case h_2 => exact ⟨rfl, ht⟩
  case h_1 name key col bytes =>
    refine ht.seq_mutexLock fun h₁ h₂ ht => ?_
    rw [rwp_bind, rwp_get, ht.lookup_eq]
    cases hlook : h₂.lookup name with
    | none => exact ht.seq_errSet _ _ fun h₁ h₂ ht => ht.exit _
    | some schema =>
      have hwf : schema.WellFormed :=
        ht.reliable.schemas name schema ((ht.lookup_eq name).trans hlook)
      simp only
      cases findCol schema col with
      | none => exact ht.exit _
      | some c =>
        refine rwp_ite (fun _ => ?_) fun _ => ?_
        · exact ht.seq_errSet _ _ fun h₁ h₂ ht => ht.exit _
        refine rwp_seq (ht.countMatchingRows hwf col key) fun a h₁ b h₂ hab => ?_
        obtain ⟨rfl, ht⟩ := hab
        refine rwp_ite (fun _ => ht.exit _) fun _ => rwp_ite (fun _ => ht.exit _) fun _ => ?_
        exact rwp_ite (fun _ => ht.exit _) fun _ => ht.updateField hwf key col bytes

/-! ## Configuration -/

theorem cacheRebuild_spec {h : SqlRDBHandle (Session Db)} (hs : CacheSound dialect e h)
    (hheap : ∀ k, h.heap.fails k = false) {n : ℕ} (hn : (bucketCountFor n).isSome) :
    wp (cacheRebuild (driver dialect e) n)
      (fun r h' => r = some .ok ∧ h'.view = h.view ∧ CacheSound dialect e h') h := by
  obtain ⟨l, hrep, hl⟩ := hs
  obtain ⟨want, hwant⟩ := Option.isSome_iff_exists.1 hn
  obtain ⟨r, c', hreb, hrep', hr⟩ := hrep.rebuild_eq n true hwant
  obtain ⟨rfl, -⟩ | ⟨-, hfalse, -⟩ := hr
  case inr => cases hfalse
  simp only [cacheRebuild, wp_bind, wp_malloc, wp_get, hheap, Bool.not_false, hreb, wp_set]
  rw [wp, finalizeAll_eq]
  refine ⟨rfl, rfl, l.take n, hrep', ?_⟩
  refine (hl.sublist (List.take_sublist n l)).drop fun p hp => ?_
  rw [List.mem_reverse]
  exact hl.not_mem_drop n hp

/-- A configuration without its cache size. -/
def SqlRDBConfig.eraseSize (cfg : SqlRDBConfig) : SqlRDBConfig := { cfg with stmtCacheSize := 0 }

theorem setConfig_spec {h : SqlRDBHandle (Session Db)} (hvalid : h.valid = true)
    (hs : CacheSound dialect e h) (hheap : ∀ k, h.heap.fails k = false) {cfg : SqlRDBConfig}
    (hn : (bucketCountFor cfg.stmtCacheSize).isSome) :
    wp (sqlRDBSetConfig (driver dialect e) (some cfg)) (fun r h' => r = some .ok ∧
      h'.view = h.view.configured cfg.eraseSize ∧ CacheSound dialect e h') h := by
  have hset : ∀ h' : SqlRDBHandle (Session Db), h'.view = { h.view with mutex := h.mutex.lock } →
      ({ h' with
        config := cfg,
        mutex := SqlRDBMutex.unlock (if cfg.threadsafe ≠ h'.config.threadsafe
          then { h'.mutex with threadsafe := cfg.threadsafe } else h'.mutex) } :
        SqlRDBHandle (Session Db)).view = h.view.configured cfg.eraseSize := by
    intro h' hview
    have := congrArg (fun v => { v with
      config := cfg.eraseSize,
      mutex := SqlRDBMutex.unlock (if cfg.threadsafe ≠ v.config.threadsafe
          then { v.mutex with threadsafe := cfg.threadsafe } else v.mutex) }) hview
    exact this
  simp only [sqlRDBSetConfig, wp_bind, wp_get, hvalid, Bool.not_true, Bool.false_eq_true, if_false,
    wp_mutexLock, wp_ite]
  split
  case isTrue =>
    refine wp_mono (cacheRebuild_spec (h := { h with mutex := h.mutex.lock }) hs hheap hn)
      fun r h' hr => ?_
    obtain ⟨rfl, hview, hs'⟩ := hr
    simp only [wp_bind, wp_modify, wp_mutexUnlock, wp_pure, if_true]
    exact ⟨trivial, hset h' hview, hs'⟩
  case isFalse =>
    simp only [wp_bind, wp_modify, wp_mutexUnlock, wp_pure, if_true]
    exact ⟨trivial, hset { h with mutex := h.mutex.lock } rfl, hs⟩

theorem Twin.setConfig (ht : Twin dialect e h₁ h₂) {cfg₁ cfg₂ : Option SqlRDBConfig}
    (hcfg : cfg₁.map SqlRDBConfig.eraseSize = cfg₂.map SqlRDBConfig.eraseSize)
    (hn₁ : ∀ c ∈ cfg₁, (bucketCountFor c.stmtCacheSize).isSome)
    (hn₂ : ∀ c ∈ cfg₂, (bucketCountFor c.stmtCacheSize).isSome) :
    rwp (sqlRDBSetConfig (driver dialect e) cfg₁) (sqlRDBSetConfig (driver dialect e) cfg₂)
      (fun a h₁ b h₂ => a = b ∧ a.isSome ∧ Twin dialect e h₁ h₂) h₁ h₂ := by
  cases hvalid : h₂.valid with
  | false =>
    unfold sqlRDBSetConfig
    rw [rwp_bind, rwp_get, ht.valid_eq, hvalid]
    exact ⟨rfl, rfl, ht⟩
  | true =>
    cases cfg₁ with
    | none =>
      obtain rfl : cfg₂ = none := by simpa using hcfg.symm
      unfold sqlRDBSetConfig
      rw [rwp_bind, rwp_get, ht.valid_eq, hvalid]
      exact ⟨rfl, rfl, ht⟩
    | some c₁ =>
      cases cfg₂ with
      | none => cases hcfg
      | some c₂ =>
        have herase : c₁.eraseSize = c₂.eraseSize := Option.some.inj hcfg
        have hheap : ∀ k, h₂.heap.fails k = false := fun k =>
          (congrArg (fun v => v.heap.fails k) ht.view_eq).symm.trans (ht.reliable.heap k)
        refine rwp_of_wp (setConfig_spec (ht.valid_eq.trans hvalid) ht.sound₁ ht.reliable.heap
          (hn₁ c₁ rfl)) (setConfig_spec hvalid ht.sound₂ hheap (hn₂ c₂ rfl))
          fun a h₁' b h₂' ha hb => ?_
        obtain ⟨rfl, hv₁, hs₁⟩ := ha
        obtain ⟨rfl, hv₂, hs₂⟩ := hb
        refine ⟨rfl, rfl, ?_, ?_, hs₁, hs₂⟩
        · rw [hv₁, hv₂, herase, ht.view_eq]
        · rw [hv₁]
          exact ⟨ht.reliable.faults, ht.reliable.heap, ht.reliable.schemas⟩

end Calls

/-! ## Runs -/

/-- The calls that execute statements through the cache, and the call that resizes it. -/
def Call.usesCache : Call → Bool
  | write .. | writeMany .. | read .. | delete .. | count .. | writeBlobField .. => true
  | setConfig _ => true
  | _ => false

/-- A call without the cache size that it sets. -/
def Call.eraseSize : Call → Call
  | setConfig cfg => setConfig (cfg.map SqlRDBConfig.eraseSize)
  | c => c

/-- The call does not set a cache size for which no bucket count is found: twice the size, in the
arithmetic of a `size_t`, is at most the largest power of two. -/
def Call.SizeOk : Call → Prop
  | setConfig (some cfg) => cfg.stmtCacheSize * 2 % 2 ^ 64 ≤ 2 ^ 63
  | _ => True

section Runs

variable {dialect : C2SqlDialect} {e : Engine Db} {w₁ w₂ : Client (Session Db)}

/-- Calls of the library that are alike, with the same output. -/
theorem Alike.reply {α : Type} {c d : Api (Session Db) α} (f : α → Reply)
    (hf : ∀ a, (f a).code.isSome) (h : Alike dialect e c d w₁.handle w₂.handle) :
    rwp (do let a ← onHandle c; pure (f a)) (do let a ← onHandle d; pure (f a))
      (fun a w₁ b w₂ => a = b ∧ a.code.isSome ∧ Twin dialect e w₁.handle w₂.handle) w₁ w₂ :=
  ⟨congrArg f h.1, hf _, h.2⟩

/-- One call. -/
theorem Twin.exec (ht : Twin dialect e w₁.handle w₂.handle) {c₁ c₂ : Call}
    (hc : c₁.eraseSize = c₂.eraseSize) (huse : c₁.usesCache = true) (hs₁ : c₁.SizeOk)
    (hs₂ : c₂.SizeOk) :
    rwp (c₁.exec (driver dialect e)) (c₂.exec (driver dialect e))
      (fun a w₁ b w₂ => a = b ∧ a.code.isSome ∧ Twin dialect e w₁.handle w₂.handle) w₁ w₂ := by
  cases c₁ with
  | setConfig cfg₁ =>
    cases c₂ with
    | setConfig cfg₂ =>
      have hcfg := Call.setConfig.inj hc
      have hsize : ∀ {cfg : Option SqlRDBConfig}, (Call.setConfig cfg).SizeOk →
          ∀ c ∈ cfg, (bucketCountFor c.stmtCacheSize).isSome := by
        rintro _ h c rfl
        exact (bucketCountFor_isSome_iff _).2 h
      have hset := ht.setConfig hcfg (hsize hs₁) (hsize hs₂)
      exact ⟨congrArg (Reply.mk · .nothing) hset.1, hset.2⟩
    | _ => cases hc
  | write name row nullMap =>
    cases c₂ <;> cases hc
    exact (ht.write name row nullMap).reply _ fun _ => rfl
  | writeMany name rows n stride nullMaps =>
    cases c₂ <;> cases hc
    exact (ht.writeMany name rows n stride nullMaps).reply _ fun _ => rfl
  | read name cond out opts =>
    cases c₂ <;> cases hc
    exact (ht.read name cond out opts).reply _ fun _ => rfl
  | delete name cond out =>
    cases c₂ <;> cases hc
    exact (ht.delete name cond out).reply _ fun _ => rfl
  | count name cond out =>
    cases c₂ <;> cases hc
    exact (ht.count name cond out).reply _ fun _ => rfl
  | writeBlobField name key col bytes =>
    cases c₂ <;> cases hc
    exact (ht.writeBlobField name key col bytes).reply _ fun _ => rfl
  | _ => cases huse

/-- **The cache is transparent.** Two runs of the same calls that differ in the sizes of their
caches only return the same codes and outputs, and leave the same database. -/
theorem cache_transparent (ht : Twin dialect e w₁.handle w₂.handle) {cs₁ cs₂ : List Call}
    (hcs : cs₁.map Call.eraseSize = cs₂.map Call.eraseSize)
    (huse : ∀ c ∈ cs₁, c.usesCache = true)
    (hs₁ : ∀ c ∈ cs₁, c.SizeOk) (hs₂ : ∀ c ∈ cs₂, c.SizeOk) :
    (run (driver dialect e) cs₁ w₁).1 = (run (driver dialect e) cs₂ w₂).1 ∧
      (run (driver dialect e) cs₁ w₁).2.handle.view =
        (run (driver dialect e) cs₂ w₂).2.handle.view := by
  suffices h : rwp (run (driver dialect e) cs₁) (run (driver dialect e) cs₂)
      (fun a w₁ b w₂ => a = b ∧ w₁.handle.view = w₂.handle.view) w₁ w₂ from h
  induction cs₁ generalizing cs₂ w₁ w₂ with
  | nil =>
    obtain rfl : cs₂ = [] := by simpa using hcs.symm
    exact ⟨rfl, ht.view_eq⟩
  | cons c₁ cs₁ ih =>
    obtain ⟨c₂, cs₂, rfl, hc, hcs⟩ := List.map_eq_cons_iff.1 hcs.symm
    refine rwp_seq (ht.exec hc.symm (huse _ (by simp)) (hs₁ _ (by simp)) (hs₂ _ (by simp)))
      fun a w₁ b w₂ hab => ?_
    obtain ⟨rfl, ha, ht⟩ := hab
    have hret : ¬(a.code.isNone = true) := by simp [Option.isSome_iff_ne_none.1 ha]
    rw [if_neg hret, if_neg hret]
    refine rwp_seq (ih ht hcs.symm (fun c hc => huse c (List.mem_cons_of_mem _ hc))
      (fun c hc => hs₁ c (List.mem_cons_of_mem _ hc))
      fun c hc => hs₂ c (List.mem_cons_of_mem _ hc)) fun rs w₁ rs' w₂ hrs => ?_
    obtain ⟨rfl, hview⟩ := hrs
    exact ⟨rfl, hview⟩

end Runs

/-- A handle with a cache of the default size, and one without a cache: the first row is written
twice, and the size is changed in between. -/
theorem cache_transparent_sample :
    let w : Client (Session (List (CStr × List SqlValue))) := ⟨journalHandle, []⟩
    let calls : ℕ → List Call := fun n =>
      [.write (some (lit "persons")) (some fun _ => 0) none,
        .setConfig (some { defaultConfig with stmtCacheSize := n }),
        .write (some (lit "persons")) (some fun _ => 1) none]
    (run (driver .sqlite journal) (calls 0) w).1 = (run (driver .sqlite journal) (calls 7) w).1 ∧
      (run (driver .sqlite journal) (calls 0) w).2.handle.view =
        (run (driver .sqlite journal) (calls 7) w).2.handle.view := by
  have hs : CacheSound .sqlite journal journalHandle :=
    cacheSound_of_nil (SqlRDBStmtCache.represents_nil _ _)
  have hwf : ∀ name s, journalHandle.view.lookup name = some s → s.WellFormed := fun name s h => by
    obtain rfl := List.mem_singleton.1 (SqlRDBHandle.mem_of_lookup h)
    exact (SqlRDBSchema.accepted_iff _).1 personsSchema_accepted
  have ht : Twin .sqlite journal journalHandle journalHandle :=
    ⟨rfl, ⟨fun _ => rfl, fun _ => rfl, hwf⟩, hs, hs⟩
  exact cache_transparent ht rfl (by decide) (by simp [Call.SizeOk]) (by simp [Call.SizeOk])

/-- A cache size above the largest power of two: the call that sets it never returns. -/
theorem setConfig_never_returns :
    let w : Client (Session (List (CStr × List SqlValue))) := ⟨journalHandle, []⟩
    let calls : ℕ → List Call := fun n =>
      [.setConfig (some { defaultConfig with stmtCacheSize := n }),
        .write (some (lit "persons")) (some fun _ => 1) none]
    (run (driver .sqlite journal) (calls 0) w).1.map Reply.code = [some .ok, some .ok] ∧
      (run (driver .sqlite journal) (calls (2 ^ 62 + 1)) w).1.map Reply.code = [none] := by
  decide +kernel

end C2Sql
