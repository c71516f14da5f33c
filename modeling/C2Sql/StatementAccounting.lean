import C2Sql.CacheResize
import C2Sql.Registration
import C2Sql.StatementLedger

/-!
# Statement accounting

Every statement that the library prepares is finalized once and not used afterwards, whatever the
driver and the allocator do. Between two calls the open statements are those of the cache, which are
at rest, and those of the open iterators (`Settled`).

* `getOrPrepare_lends`: a statement in use is open, so it is not one that the cache has evicted;
* `Settles`: a call that gives back every statement it has taken;
* `settled_exec`: what one call does to the accounts;
* `statements_accounted`: the accounts of every run, and of the call that closes the handle.
-/

namespace C2Sql

open StateLogic

variable {σ α β : Type} {A : Holding}

/-! ## The cache -/

/-- The statements of the cache beside those of `A`. The ones of the cache are at rest. -/
def cached (l : List (CStr × StmtId)) (A : Holding) : Holding :=
  ⟨↑(l.map Prod.snd) + A.live, A.busy⟩

/-- Between two calls the open statements are those of the cache and those of `A`. -/
def Settled (A : Holding) (h : SqlRDBHandle (Audited σ)) : Prop :=
  ∃ l, h.cache.Represents l ∧ h.ctx.ledger.Owns (cached l A)

/-- The holding of an operation that works with a statement: an owned one is its own, another one
belongs to the cache. -/
def held (B : Holding) (stmt : StmtId) (owned : Bool) : Holding :=
  if owned then B.take stmt else B.use stmt

/-- A statement that an operation may work with and then give back. -/
def Lent (B : Holding) (stmt : StmtId) (owned : Bool) : Prop := owned = false → stmt ∈ B.live

theorem Lent.has {B : Holding} {stmt : StmtId} {owned : Bool} (h : Lent B stmt owned) :
    (held B stmt owned).Has stmt := by
  cases owned with
  | false => exact Holding.has_use (h rfl)
  | true => exact B.has_take stmt

theorem spends_releaseCachedStmt {d : SqlRDBDriver σ} {B : Holding} {stmt : StmtId} {owned : Bool}
    (h : Lent B stmt owned) :
    Spends (held B stmt owned) (releaseCachedStmt d.audited stmt owned) fun _ => B := by
  cases owned with
  | false => exact (spends_drv (ctxSpends_rest (h rfl) _)).bind fun _ => .pure _
  | true => exact spends_finalize.bind fun _ => .pure _

/-- What `get_or_prepare` leaves behind. -/
def Lends (A : Holding) (h : SqlRDBHandle (Audited σ)) :
    Except SqlRDBResult (StmtId × Bool) → Prop
  | .error _ => Settled A h
  | .ok (stmt, owned) => ∃ l, h.cache.Represents l ∧ Lent (cached l A) stmt owned ∧
      h.ctx.ledger.Owns (held (cached l A) stmt owned)

theorem spends_finalizeAll {d : SqlRDBDriver σ} (ids : List StmtId) :
    Spends ⟨↑ids + A.live, A.busy⟩ (finalizeAll d.audited ids) fun _ => A := by
  induction ids with
  | nil => exact .mono (.pure _) (zero_add A.live) le_rfl
  | cons id ids ih =>
    have hall : Spends (Holding.take ⟨↑ids + A.live, A.busy⟩ id)
        (finalizeAll d.audited (id :: ids)) fun _ => A := spends_finalize.bind fun _ => ih
    refine hall.mono ?_ (Set.subset_insert id A.busy)
    rw [← Multiset.cons_coe, Multiset.cons_add]
    rfl

theorem cacheGet_represents {h : SqlRDBHandle σ} {l : List (CStr × StmtId)}
    (hl : h.cache.Represents l) (sql : CStr) :
    wp (cacheGet sql) (fun hit h' => h'.ctx = h.ctx ∧ match hit with
      | none => sql ∉ l.map Prod.fst ∧ h' = h
      | some stmt => ∃ l', h'.cache.Represents l' ∧ l'.Perm l ∧ (sql, stmt) ∈ l') h := by
  simp only [cacheGet, wp_bind, wp_get]
  by_cases hmem : sql ∈ l.map Prod.fst
  · obtain ⟨⟨_, stmt⟩, hp, rfl⟩ := List.mem_map.1 hmem
    obtain ⟨l₁, l₂, rfl⟩ := List.append_of_mem hp
    obtain ⟨c', hget, hc', -, -⟩ := hl.get_hit
    rw [hget]
    exact ⟨rfl, _, hc', List.perm_middle.symm, List.mem_cons_self ..⟩
  · rw [hl.get_miss hmem]
    exact ⟨rfl, hmem, rfl⟩

/-- The cache drops some of its statements, and they are finalized. -/
theorem finalizeAll_settled {d : SqlRDBDriver σ} {h : SqlRDBHandle (Audited σ)}
    {l : List (CStr × StmtId)} (hl : h.cache.Represents l) {ids : List StmtId} {B : Holding}
    (howns : h.ctx.ledger.Owns B) (hlive : B.live = ↑ids + (↑(l.map Prod.snd) + A.live))
    (hbusy : B.busy ⊆ A.busy) : wp (finalizeAll d.audited ids) (fun _ h' => Settled A h') h := by
  refine wp_mono (spends_finalizeAll (A := cached l A) ids h (howns.mono hlive hbusy)) ?_
  rintro _ h' ⟨howns', hcache⟩
  exact ⟨l, hcache ▸ hl, howns'⟩

theorem coe_map_split (l : List (CStr × StmtId)) (n : ℕ) :
    (↑(l.map Prod.snd) : Multiset StmtId) =
      ↑((l.drop n).map Prod.snd) + ↑((l.take n).map Prod.snd) := by
  rw [add_comm, Multiset.coe_add, ← List.map_append, List.take_append_drop]

/-- A new statement goes into the cache, or it is finalized; so are the ones that it evicts. -/
theorem cachePut_settled {d : SqlRDBDriver σ} {h : SqlRDBHandle (Audited σ)}
    {l : List (CStr × StmtId)} (hl : h.cache.Represents l) {sql : CStr}
    (hnew : sql ∉ l.map Prod.fst) (hcap : h.cache.capacity ≠ 0) {stmt : StmtId}
    (howns : h.ctx.ledger.Owns ((cached l A).add stmt)) :
    wp (cachePut d.audited sql stmt) (fun _ h' => Settled A h') h := by
  rw [cachePut, wp_bind]
  refine wp_mono (mallocs_spec 2 h) ?_
  rintro allocOk _ ⟨⟨t, rfl⟩, -⟩
  obtain ⟨c', hput, hc', -, -⟩ := hl.put_new hnew stmt (Nat.pos_of_ne_zero hcap) allocOk
  have hsplit := coe_map_split l (h.cache.capacity - 1)
  cases allocOk with
  | true =>
    rw [if_pos rfl] at hput hc'
    simp only [wp_bind, wp_get, hput, wp_set]
    refine finalizeAll_settled hc' howns ?_ le_rfl
    change stmt ::ₘ (_ + A.live) = _ + (↑(stmt :: _) + A.live)
    rw [hsplit, ← Multiset.cons_coe, Multiset.cons_add, Multiset.add_cons, add_assoc]
  | false =>
    rw [if_neg (by decide)] at hput hc'
    simp only [wp_bind, wp_get, hput, wp_set]
    refine finalizeAll_settled hc' howns ?_ le_rfl
    change stmt ::ₘ (_ + A.live) = ↑(_ ++ [stmt]) + (_ + A.live)
    rw [hsplit, ← Multiset.coe_add, ← Multiset.cons_coe, Multiset.coe_nil, Multiset.add_cons,
      add_zero, Multiset.cons_add, add_assoc]

/-- A statement that the cache holds is lent. -/
theorem lends_cached {h : SqlRDBHandle (Audited σ)} {l l' : List (CStr × StmtId)}
    (hl : h.cache.Represents l') (hperm : l'.Perm l) (howns : h.ctx.ledger.Owns (cached l A))
    {sql : CStr} {stmt : StmtId} (hmem : (sql, stmt) ∈ l') : Lends A h (.ok (stmt, false)) := by
  have hlive : (cached l A).live = (cached l' A).live :=
    congrArg (· + A.live) (Multiset.coe_eq_coe.2 (hperm.symm.map Prod.snd))
  refine ⟨l', hl, fun _ => ?_, (howns.mono hlive le_rfl).use stmt⟩
  exact Multiset.mem_add.2 (.inl (List.mem_map.2 ⟨_, hmem, rfl⟩))

/-- The cache is asked for a statement. -/
theorem cacheGet_lends (sql : CStr) {h : SqlRDBHandle (Audited σ)} {l : List (CStr × StmtId)}
    (hl : h.cache.Represents l) (howns : h.ctx.ledger.Owns (cached l A)) :
    wp (cacheGet sql) (fun hit h' => match hit with
      | none => sql ∉ l.map Prod.fst ∧ h' = h
      | some stmt => Lends A h' (.ok (stmt, false))) h := by
  refine wp_mono (cacheGet_represents hl sql) ?_
  rintro hit h' ⟨hctx, hhit⟩
  cases hit with
  | none => exact hhit
  | some stmt =>
    obtain ⟨l', hl', hperm, hmem⟩ := hhit
    exact lends_cached hl' hperm (hctx ▸ howns) hmem

/-- **A statement in use is open.** It is the caller's own, or one of the cache that has not been
evicted. -/
theorem getOrPrepare_lends (d : SqlRDBDriver σ) (sql : CStr) {h : SqlRDBHandle (Audited σ)}
    (hs : Settled A h) : wp (getOrPrepare d.audited sql) (fun res h' => Lends A h' res) h := by
  obtain ⟨l, hl, howns⟩ := hs
  rw [getOrPrepare, wp_bind]
  refine wp_mono (cacheGet_lends sql hl howns) ?_
  rintro hit h₁ hhit
  cases hit with
  | some stmt => exact hhit
  | none =>
    obtain ⟨hnew, rfl⟩ := hhit
    rw [wp_bind]
    refine wp_mono (spends_prepare (d := d) sql h₁ howns) ?_
    rintro ⟨r, stmt⟩ h₂ ⟨howns₂, hcache⟩
    have hl₂ : h₂.cache.Represents l := by rwa [hcache]
    rw [prepared] at howns₂
    simp only [wp_ite]
    by_cases hr : r = .ok
    · rw [if_pos hr] at howns₂
      rw [if_neg (not_not.2 hr), wp_bind, wp_get, wp_ite]
      by_cases hcap : h₂.cache.capacity = 0
      · rw [if_pos hcap]
        exact ⟨l, hl₂, Bool.noConfusion, howns₂.use stmt⟩
      · rw [if_neg hcap, wp_bind]
        refine wp_mono (cachePut_settled hl₂ hnew hcap howns₂) fun r h₃ hs => ?_
        rw [wp_ite]
        split
        · exact hs
        · obtain ⟨l₃, hl₃, howns₃⟩ := hs
          rw [wp_bind]
          refine wp_mono (cacheGet_lends sql hl₃ howns₃) ?_
          rintro hit h₄ hhit
          cases hit with
          | some stmt => exact hhit
          | none => exact ⟨l₃, hhit.2 ▸ hl₃, hhit.2 ▸ howns₃⟩
    · rw [if_neg hr] at howns₂
      rw [if_pos hr]
      exact ⟨l, hl₂, howns₂⟩

/-! ## Calls -/

/-- A computation that gives back every statement it has taken. -/
def Settles (A : Holding) (c : Api (Audited σ) α) : Prop :=
  ∀ h, Settled A h → wp c (fun _ h' => Settled A h') h

namespace Settles

theorem pure (a : α) : Settles A (Pure.pure a : Api (Audited σ) α) := fun _ hs => hs

theorem of_spends {c : Api (Audited σ) α} (h : ∀ B, Spends B c fun _ => B) : Settles A c := by
  rintro s ⟨l, hl, howns⟩
  refine wp_mono (h _ s howns) ?_
  rintro _ s' ⟨howns', hcache⟩
  exact ⟨l, hcache ▸ hl, howns'⟩

theorem quiet {c : Api (Audited σ) α} (h : Quiet c) : Settles A c := .of_spends fun _ => h.spends

theorem bind {c : Api (Audited σ) α} {k : α → Api (Audited σ) β} (hc : Settles A c)
    (hk : ∀ a, Settles A (k a)) : Settles A (c >>= k) := fun s hs => hk _ _ (hc s hs)

theorem ite {p : Prop} [Decidable p] {c₁ c₂ : Api (Audited σ) α} (h₁ : Settles A c₁)
    (h₂ : Settles A c₂) : Settles A (if p then c₁ else c₂) := by
  split
  · exact h₁
  · exact h₂

theorem lock {k : Unit → Api (Audited σ) α} (hk : ∀ u, Settles A (k u)) :
    Settles A (mutexLock >>= k) := (quiet .mutexLock).bind hk

theorem get {k : SqlRDBHandle (Audited σ) → Api (Audited σ) α} (hk : ∀ h, Settles A (k h)) :
    Settles A (MonadState.get >>= k) := (quiet .get).bind hk

/-- Every path ends so. -/
theorem exit (a : α) : Settles A (do mutexUnlock; Pure.pure a : Api (Audited σ) α) :=
  (quiet .mutexUnlock).bind fun _ => .pure a

theorem errSet {code : SqlRDBResult} {message : CStr} {a : α} :
    Settles A (do errSet code message; mutexUnlock; Pure.pure a : Api (Audited σ) α) :=
  (quiet (.errSet _ _)).bind fun _ => .exit a

/-- What follows `get_or_prepare`: it runs without a statement, or with one that it gives back. -/
theorem getOrPrepare {d : SqlRDBDriver σ} {sql : CStr}
    {k : Except SqlRDBResult (StmtId × Bool) → Api (Audited σ) α}
    (herr : ∀ r, Settles A (k (.error r)))
    (hok : ∀ B stmt owned, Lent B stmt owned →
      Spends (held B stmt owned) (k (.ok (stmt, owned))) fun _ => B) :
    Settles A (C2Sql.getOrPrepare d.audited sql >>= k) := fun s hs => by
  rw [wp_bind]
  refine wp_mono (getOrPrepare_lends d sql hs) fun res s' hres => ?_
  rcases res with r | ⟨stmt, owned⟩
  · exact herr r s' hres
  · obtain ⟨l, hl, hlent, howns⟩ := hres
    refine wp_mono (hok _ stmt owned hlent s' howns) ?_
    rintro _ s'' ⟨howns'', hcache⟩
    exact ⟨l, hcache ▸ hl, howns''⟩

theorem openStmt {d : SqlRDBDriver σ} {who name : CStr} {spec : SqlRDBSchema → SqlRDBQuerySpec}
    {k : Except SqlRDBResult (SqlRDBSchema × StmtId × Bool) → Api (Audited σ) α}
    (herr : ∀ r, Settles A (k (.error r)))
    (hok : ∀ B schema stmt owned, Lent B stmt owned →
      Spends (held B stmt owned) (k (.ok (schema, stmt, owned))) fun _ => B) :
    Settles A (C2Sql.openStmt d.audited who name spec >>= k) := by
  rw [C2Sql.openStmt, bind_assoc]
  refine .get fun h => ?_
  cases h.lookup name with
  | none =>
    refine (quiet (.errSet _ _)).bind fun _ => (quiet .mutexUnlock).bind fun _ => herr _
  | some schema =>
    dsimp only
    rw [bind_assoc]
    refine (quiet (.qbBuild _)).bind fun res => ?_
    rcases res with r | ⟨sql, n⟩
    · exact (quiet .mutexUnlock).bind fun _ => herr _
    · dsimp only
      rw [bind_assoc]
      refine .getOrPrepare (fun r => (quiet .mutexUnlock).bind fun _ => herr _) ?_
      exact fun B stmt owned hlent => hok B schema stmt owned hlent

end Settles

section Paths

variable {d : SqlRDBDriver σ} {B : Holding} {stmt : StmtId} {owned : Bool}

theorem spends_exit (a : α) : Spends B (do mutexUnlock; pure a : Api (Audited σ) α) fun _ => B :=
  Quiet.mutexUnlock.spends.bind fun _ => .pure a

/-- A path that gives its statement back. -/
theorem spends_close (h : Lent B stmt owned) (a : α) :
    Spends (held B stmt owned) (do
      releaseCachedStmt d.audited stmt owned
      mutexUnlock
      pure a) fun _ => B :=
  (spends_releaseCachedStmt h).bind fun _ => spends_exit a

/-- A path that finalizes its statement. -/
theorem spends_finalize_exit (a : α) :
    Spends (B.take stmt) (do
      let _ ← drv (d.audited.finalize stmt)
      mutexUnlock
      pure a) fun _ => B :=
  spends_finalize.bind fun _ => spends_exit a

theorem spends_errSet_exit {code : SqlRDBResult} {message : CStr} (a : α) :
    Spends B (do errSet code message; mutexUnlock; pure a : Api (Audited σ) α) fun _ => B :=
  (Quiet.errSet _ _).spends.bind fun _ => spends_exit a

end Paths

section Calls

variable (d : SqlRDBDriver σ)

theorem settles_write (structName : Option CStr) (row nullMap : Option Mem) :
    Settles A (sqlRDBWrite d.audited structName row nullMap) := by
  refine .get fun h => .ite (.pure _) ?_
  split
  · refine .lock fun _ => .openStmt (fun r => .pure r) fun B schema stmt owned hlent => ?_
    refine (spends_drv (ctxSpends_bindRowFrom hlent.has _ _ _ _)).bind fun r => ?_
    refine .ite (fun _ => spends_close hlent _) fun _ => (spends_step hlent.has).bind fun res => ?_
    refine (spends_releaseCachedStmt hlent).bind fun _ => ?_
    exact .ite (fun _ => spends_errSet_exit _) fun _ => spends_exit _
  · exact .pure _

/-- The rows of a batch, on a statement of either kind. -/
theorem spends_writeRows {B : Holding} {stmt : StmtId} {owned : Bool} (h : Lent B stmt owned)
    (schema : SqlRDBSchema) (rows : Mem) (stride : ℕ) (nullMaps : Option Mem) (k i : ℕ) :
    Spends (held B stmt owned) (drv (writeRows d.audited stmt schema rows stride nullMaps k i))
      fun _ => held B stmt owned := by
  cases owned with
  | false => exact spends_drv (ctxSpends_writeRows (h rfl) schema rows stride nullMaps k i)
  | true =>
    have hmem : stmt ∈ (B.add stmt).live := Multiset.mem_cons_self stmt B.live
    exact spends_drv (ctxSpends_writeRows hmem schema rows stride nullMaps k i)

theorem settles_writeMany (structName : Option CStr) (rows : Option Mem) (count stride : ℕ)
    (nullMaps : Option Mem) :
    Settles A (sqlRDBWriteMany d.audited structName rows count stride nullMaps) := by
  refine .get fun h => .ite (.pure _) ?_
  split
  · refine .ite (.pure _) (.lock fun _ => .openStmt (fun r => .pure r) ?_)
    intro B schema stmt owned hlent
    refine Quiet.get.spends.bind fun h => .ite
      (fun _ => (spends_call d.begin).bind fun br => ?_)
      fun _ => Accounts.bind (.pure _) fun br => ?_
    all_goals
      refine .ite (fun _ => spends_close hlent _) fun _ => ?_
      refine (spends_writeRows d hlent _ _ _ _ _ _).bind fun r => ?_
      refine .ite (fun _ => .ite (fun _ => ?_) fun _ => ?_) fun _ => spends_close hlent _
      · exact (spends_call d.commit).bind fun _ => spends_close hlent _
      · exact (spends_call d.rollback).bind fun _ => spends_close hlent _
  · exact .pure _

theorem settles_delete (structName : Option CStr) (cond : Option SqlRDBCondition)
    (outDeleted : Option ℕ) : Settles A (sqlRDBDelete d.audited structName cond outDeleted) := by
  refine .get fun h => .ite (.pure _) ?_
  split
  · refine .lock fun _ => .openStmt (fun r => .pure _) fun B schema stmt owned hlent => ?_
    refine (spends_bindCond hlent.has _ _).bind fun r => .ite (fun _ => spends_close hlent _) ?_
    refine fun _ => (spends_step hlent.has).bind fun res => ?_
    refine (spends_releaseCachedStmt hlent).bind fun _ => .ite (fun _ => ?_) fun _ => spends_exit _
    exact (spends_call d.changes).bind fun n => spends_exit _
  · exact .pure _

theorem settles_count (structName : Option CStr) (cond : Option SqlRDBCondition)
    (outCount : Option ℕ) : Settles A (sqlRDBCount d.audited structName cond outCount) := by
  refine .get fun h => .ite (.pure _) ?_
  split
  · refine .lock fun _ => .openStmt (fun r => .pure _) fun B schema stmt owned hlent => ?_
    refine (spends_bindCond hlent.has _ _).bind fun r => .ite (fun _ => spends_close hlent _) ?_
    refine fun _ => (spends_step hlent.has).bind fun res => ?_
    refine Accounts.bind (B := fun _ => held B stmt owned) (spends_drv ?_) fun res =>
      spends_close hlent _
    exact .ite (fun _ => (ctxSpends_columnInt64 hlent.has 0).bind fun _ => .pure _) fun _ => .pure _
  · exact .pure _

theorem spends_readBuffered {B : Holding} {stmt : StmtId} {owned : Bool} (hlent : Lent B stmt owned)
    (schema : SqlRDBSchema) (out : Buffer) (outNullMap : Option Mem) :
    Spends (held B stmt owned) (readBuffered d.audited stmt owned schema out outNullMap)
      fun _ => B := by
  refine Quiet.malloc.spends.bind fun ok => .ite (fun _ => spends_close hlent _) fun _ => ?_
  refine (Quiet.callocNullMap _).spends.bind fun nm => ?_
  refine (spends_readRow hlent.has _ _ _).bind fun res => ?_
  refine (Quiet.noteOverrun _).spends.bind fun _ => .ite (fun _ => spends_close hlent _) fun _ => ?_
  refine (spends_step hlent.has).bind fun res => (spends_releaseCachedStmt hlent).bind fun _ => ?_
  exact .ite (fun _ => spends_exit _) fun _ => spends_exit _

theorem settles_read (structName : Option CStr) (cond : Option SqlRDBCondition) (out : ReadOut)
    (opts : Option SqlRDBReadOpts) : Settles A (sqlRDBRead d.audited structName cond out opts) := by
  refine .get fun h => .ite (.pure _) ?_
  split
  · refine .lock fun _ => .openStmt (fun r => .pure _) fun B schema stmt owned hlent => ?_
    refine Quiet.get.spends.bind fun h => (spends_bindCond hlent.has _ _).bind fun r => ?_
    refine .ite (fun _ => spends_close hlent _) fun _ => (spends_step hlent.has).bind fun res => ?_
    refine .ite (fun _ => spends_close hlent _) fun _ => .ite (fun _ => spends_close hlent _) ?_
    refine fun _ => .ite (fun _ => ?_) fun _ => ?_
    · exact (spends_readRow hlent.has _ _ _).bind fun res => spends_close hlent _
    · exact (spends_readBuffered d hlent _ _ _).bind fun res => .pure _
  · exact .pure _

/-- The holding after an iterator may have been opened. -/
def opened (B : Holding) (res : SqlRDBResult × Option SqlRDBStmt) : Holding :=
  match res.2 with
  | some it => B.take it.rawStmt
  | none => B

/-- The statement of an iterator is the caller's from now on. -/
theorem spends_readMany {B : Holding} (structName : Option CStr) (cond : Option SqlRDBCondition)
    (hasOut : Bool) : Spends B (sqlRDBReadMany d.audited structName cond hasOut) (opened B) := by
  -- a path that opens no iterator
  have hexit (r : SqlRDBResult) : Spends B (do
      mutexUnlock
      pure (r, none) : Api (Audited σ) (SqlRDBResult × Option SqlRDBStmt)) (opened B) :=
    Quiet.mutexUnlock.spends.bind fun _ => .result (B := opened B) (r, none)
  refine Quiet.get.spends.bind fun h => ?_
  refine .ite (fun _ => .result (B := opened B) (_, none)) fun _ => ?_
  split
  · refine Quiet.mutexLock.spends.bind fun _ => Quiet.get.spends.bind fun h => ?_
    split
    · exact (Quiet.errSet _ _).spends.bind fun _ => hexit _
    refine (Quiet.qbBuild _).spends.bind fun res => ?_
    split
    · exact hexit _
    refine spends_prepare_ite (fun res => hexit _) fun raw => ?_
    refine (spends_bindCond (B.has_take raw) _ _).bind fun r => ?_
    refine .ite (fun _ => spends_finalize.bind fun _ => hexit _) fun _ => ?_
    refine Quiet.malloc.spends.bind fun ok => ?_
    refine .ite (fun _ => spends_finalize.bind fun _ => hexit _) fun _ => ?_
    exact Quiet.mutexUnlock.spends.bind fun _ => .result (B := opened B) (.ok, some ⟨raw, _⟩)
  · exact .result (B := opened B) (_, none)

theorem spends_stmtNext {B : Holding} (stmt : Option SqlRDBStmt) (out : ReadOut)
    (h : ∀ it ∈ stmt, B.Has it.rawStmt) :
    Spends B (sqlRDBStmtNext d.audited stmt out) fun _ => B := by
  unfold sqlRDBStmtNext
  split
  case h_1 it outRow _ =>
    have hit : B.Has it.rawStmt := h it rfl
    refine Quiet.mutexLock.spends.bind fun _ => (spends_step hit).bind fun res => ?_
    refine .ite (fun _ => spends_exit _) fun _ => .ite (fun _ => spends_exit _) fun _ => ?_
    refine Quiet.get.spends.bind fun h => (spends_readRow hit _ _ _).bind fun res => ?_
    exact spends_exit _
  case h_2 => exact .pure _

theorem spends_stmtFree {B : Holding} (it : SqlRDBStmt) :
    Spends (B.take it.rawStmt) (sqlRDBStmtFree d.audited (some it)) fun _ => B :=
  Quiet.mutexLock.spends.bind fun _ => spends_finalize_exit _

theorem spends_countRows {B : Holding} (stmt : StmtId) :
    Spends (B.take stmt) (countRows d.audited stmt) fun _ => B := by
  have hstmt := B.has_take stmt
  refine (spends_step hstmt).bind fun res => .ite (fun _ => spends_finalize_pure _) fun _ => ?_
  refine .ite (fun _ => ?_) fun _ => spends_finalize_pure _
  refine (spends_step hstmt).bind fun res => spends_finalize.bind fun _ => ?_
  exact .ite (fun _ => .pure _) fun _ => .pure _

theorem spends_countMatchingRows {B : Holding} (schema : SqlRDBSchema) (col : CStr)
    (cond : SqlRDBCondition) :
    Spends B (countMatchingRows d.audited schema col cond) fun _ => B := by
  refine (Quiet.qbBuild _).spends.bind fun res => ?_
  split
  · exact .pure _
  refine spends_prepare_ite (fun _ => .pure _) fun stmt => ?_
  refine (spends_bindCond (B.has_take stmt) _ _).bind fun r => ?_
  exact .ite (fun _ => spends_finalize_pure _) fun _ => spends_countRows d stmt

theorem settles_updateField (schema : SqlRDBSchema) (key : SqlRDBCondition) (col : CStr)
    (bytes : List UInt8) : Settles A (updateField d.audited schema key col bytes) := by
  refine (Settles.quiet (.qbBuild _)).bind fun res => ?_
  split
  · exact .exit _
  refine .getOrPrepare (fun r => .exit _) fun B stmt owned hlent => ?_
  refine (spends_drv (ctxSpends_bind hlent.has _ _)).bind fun r => ?_
  refine .ite (fun _ => spends_close hlent _) fun _ => ?_
  refine (spends_bindCond hlent.has _ _).bind fun r => .ite (fun _ => spends_close hlent _) ?_
  refine fun _ => (spends_step hlent.has).bind fun res => ?_
  refine (spends_releaseCachedStmt hlent).bind fun _ => ?_
  exact .ite (fun _ => spends_errSet_exit _) fun _ => spends_exit _

theorem settles_writeBlobField (structName : Option CStr) (key : Option SqlRDBCondition)
    (colName : Option CStr) (bytes : Option (List UInt8)) :
    Settles A (sqlRDBWriteBlobField d.audited structName key colName bytes) := by
  refine .get fun h => .ite (.pure _) ?_
  split
  · refine .lock fun _ => .get fun h => ?_
    split
    · exact .errSet
    dsimp only
    split
    · exact .exit _
    refine .ite .errSet ?_
    refine (Settles.of_spends fun B => spends_countMatchingRows d _ _ _).bind fun res => ?_
    refine .ite (.exit _) (.ite (.exit _) (.ite (.exit _) ?_))
    exact settles_updateField d _ _ _ _
  · exact .pure _

theorem spends_readBlobRow {B : Holding} (stmt : StmtId) (old : Option (List UInt8)) :
    Spends (B.take stmt) (readBlobRow d.audited stmt old) fun _ => B := by
  have hstmt := B.has_take stmt
  refine (spends_drv (ctxSpends_columnBlob hstmt 0)).bind fun res => ?_
  refine .ite (fun _ => spends_finalize_exit _) fun _ => Quiet.malloc.spends.bind fun ok => ?_
  refine .ite (fun _ => spends_finalize_exit _) fun _ => (spends_step hstmt).bind fun res => ?_
  refine spends_finalize.bind fun _ => .ite (fun _ => spends_exit _) fun _ => ?_
  exact .ite (fun _ => spends_exit _) fun _ => spends_exit _

theorem spends_readBlobField {B : Holding} (structName : Option CStr)
    (key : Option SqlRDBCondition) (colName : Option CStr) (out : Option (Option (List UInt8))) :
    Spends B (sqlRDBReadBlobField d.audited structName key colName out) fun _ => B := by
  refine Quiet.get.spends.bind fun h => .ite (fun _ => .pure _) fun _ => ?_
  split
  · refine Quiet.mutexLock.spends.bind fun _ => Quiet.get.spends.bind fun h => ?_
    split
    · exact spends_errSet_exit _
    dsimp only
    split
    · exact spends_exit _
    refine .ite (fun _ => spends_errSet_exit _) fun _ => (Quiet.qbBuild _).spends.bind fun res => ?_
    split
    · exact spends_exit _
    refine spends_prepare_ite (fun _ => spends_exit _) fun stmt => ?_
    refine (spends_bindCond (B.has_take stmt) _ _).bind fun r => ?_
    refine .ite (fun _ => spends_finalize_exit _) fun _ => ?_
    refine (spends_step (B.has_take stmt)).bind fun res => ?_
    refine .ite (fun _ => spends_finalize_exit _) fun _ => .ite (fun _ => spends_finalize_exit _) ?_
    exact fun _ => (spends_readBlobRow d stmt _).bind fun res => .pure _
  · exact .pure _

theorem spends_beginCall {B : Holding} : Spends B (beginCall d.audited) fun _ => B := by
  intro h hs
  simp only [beginCall, wp_bind, wp_get, wp_ite, wp_set]
  split
  · exact spends_call d.begin h hs
  · exact spends_call (d.savepoint (spName (h.txn.depth + 1))) _ hs

theorem settles_beginTx : Settles A (sqlRDBBeginTx d.audited) := by
  refine .get fun h => .ite (.pure _) (.lock fun _ => .ite .errSet ?_)
  refine (Settles.of_spends fun B => spends_beginCall d).bind fun r => .ite .errSet ?_
  exact (Settles.quiet ⟨fun _ => rfl, fun _ => rfl⟩).bind fun _ => .exit _

theorem settles_endTx (who : CStr) {call : Api (Audited σ) SqlRDBResult}
    (hcall : Settles A call) : Settles A (endTx who call) := by
  refine .get fun h => .ite (.pure _) (.lock fun _ => .ite (.exit _) ?_)
  refine hcall.bind fun r => .ite .errSet ?_
  exact (Settles.quiet ⟨fun _ => rfl, fun _ => rfl⟩).bind fun _ => .exit _

theorem settles_call (c : StateM σ α) : Settles A (drv (auditCall c)) :=
  .of_spends fun _ => spends_call c

theorem settles_commitCall : Settles A (commitCall d.audited) :=
  .get fun _ => .ite (settles_call _) (settles_call _)

theorem settles_rollbackCall : Settles A (rollbackCall d.audited) :=
  .get fun _ => .ite (settles_call _)
    ((settles_call _).bind fun _ => .ite (settles_call _) (.pure _))

theorem settles_setLogger (logger : SqlRDBLoggerCtx) :
    Settles A (sqlRDBSetLogger logger : Api (Audited σ) SqlRDBResult) :=
  .get fun _ => .ite (.pure _) (.lock fun _ =>
    (Settles.quiet ⟨fun _ => rfl, fun _ => rfl⟩).bind fun _ => .exit _)

/-- A resize finalizes what no longer fits, whether or not it succeeds. -/
theorem settles_cacheRebuild (n : ℕ) : Settles A (cacheRebuild d.audited n) := by
  rintro h ⟨l, hl, howns⟩
  simp only [cacheRebuild, wp_bind, wp_malloc, wp_get]
  split
  · exact ⟨l, hl, howns⟩
  case h_2 r cache dropped hr =>
    obtain ⟨hl', rfl, -⟩ := hl.rebuild hr
    simp only [wp_bind, wp_set]
    refine finalizeAll_settled hl' howns ?_ le_rfl
    change _ + A.live = _
    rw [coe_map_split l n, Multiset.coe_reverse, add_assoc]

theorem settles_setConfig (cfg : Option SqlRDBConfig) :
    Settles A (sqlRDBSetConfig d.audited cfg) := by
  refine .get fun h => .ite (.pure _) ?_
  split
  · exact .pure _
  · refine .lock fun _ => .ite ((settles_cacheRebuild d _).bind fun r => ?_)
      ((Settles.pure _).bind fun r => ?_)
    all_goals
      rcases r with _ | r
      · exact .pure _
      · exact .ite ((Settles.quiet ⟨fun _ => rfl, fun _ => rfl⟩).bind fun _ => .exit _) (.exit _)

/-- A registration finalizes its queries, if it returns. -/
theorem registerStruct_settled (fuel : ℕ) (name : Option CStr)
    (cols : Option (List (Option SqlRDBColumnDef))) {h : SqlRDBHandle (Audited σ)}
    (hs : Settled A h) :
    wp (sqlRDBRegisterStruct d.audited fuel name cols) (fun r h' => r.isSome → Settled A h') h := by
  obtain ⟨l, hl, howns⟩ := hs
  have hspends : SpendsSome (cached l A) (sqlRDBRegisterStruct d.audited fuel name cols)
      (cached l A) := by
    refine .bind Quiet.get.spends fun h => .ite (fun _ => .some _) fun _ => ?_
    split
    · refine .bind Quiet.mutexLock.spends fun _ => ?_
      refine .bind (Quiet.internalSchemaRegister _ _).spends fun r => .ite (fun _ => ?_) fun _ => ?_
      · exact .bind Quiet.mutexUnlock.spends fun _ => .some _
      refine .bind Quiet.get.spends fun h => ?_
      split
      · exact .bind Quiet.mutexUnlock.spends fun _ => .some _
      refine .seq (spendsSome_internalMigrateTable fuel _) rfl fun r => ?_
      refine .ite (fun _ => ?_) fun _ => .bind Quiet.mutexUnlock.spends fun _ => .some _
      refine .bind (Quiet.internalSchemaUnregister _).spends fun _ => ?_
      exact .bind Quiet.mutexUnlock.spends fun _ => .some _
    · exact spendsSome_errSet
  refine wp_mono (hspends h howns) fun r h' hr hsome => ?_
  obtain ⟨code, rfl⟩ := Option.isSome_iff_exists.1 hsome
  obtain ⟨howns', hcache⟩ := hr code rfl
  exact ⟨l, hcache ▸ hl, howns'⟩

end Calls

/-! ## Runs -/

/-- The statement of each open iterator. -/
def Client.iteratorStmts (w : Client σ) : List StmtId := w.iterators.map SqlRDBStmt.rawStmt

/-- The accounts of a client between two calls. -/
def Client.Settled (w : Client (Audited σ)) : Prop :=
  C2Sql.Settled (.ofList w.iteratorStmts) w.handle

theorem wp_onHandle {Q : α → Client σ → Prop} {w : Client σ} (c : Api σ α) :
    wp (onHandle c) Q w ↔ wp c (fun a h => Q a { w with handle := h }) w.handle := Iff.rfl

/-- One statement more or less among those of the iterators. -/
theorem take_cached_ofList {l : List (CStr × StmtId)} {is is' : List StmtId} {i : StmtId}
    (hperm : is'.Perm (i :: is)) :
    (cached l (.ofList is)).take i = cached l (.ofList is') := by
  refine congrArg₂ Holding.mk ?_ (Set.ext fun j => ?_)
  · change i ::ₘ (↑(l.map Prod.snd) + (↑is : Multiset StmtId)) = ↑(l.map Prod.snd) + ↑is'
    rw [Multiset.coe_eq_coe.2 hperm, ← Multiset.cons_coe, Multiset.add_cons]
  · exact List.mem_cons.symm.trans hperm.symm.mem_iff

/-- A new iterator brings its statement with it. -/
theorem settled_readMany (d : SqlRDBDriver σ) {w : Client (Audited σ)} (hw : w.Settled)
    (name : Option CStr) (cond : Option SqlRDBCondition) (hasOut : Bool) :
    wp ((Call.readMany name cond hasOut).exec d.audited) (fun _ w' => w'.Settled) w := by
  obtain ⟨l, hl, howns⟩ := hw
  rw [Call.exec, wp_bind, wp_onHandle]
  refine wp_mono (spends_readMany d name cond hasOut w.handle howns) ?_
  rintro ⟨r, stmt⟩ h' ⟨howns', hcache⟩
  refine ⟨l, hcache ▸ hl, ?_⟩
  change h'.ctx.ledger.Owns
    (cached l (.ofList ((w.iterators ++ stmt.toList).map SqlRDBStmt.rawStmt)))
  cases stmt with
  | none =>
    rw [Option.toList_none, List.append_nil]
    exact howns'
  | some it =>
    have hperm : ((w.iterators ++ [it]).map SqlRDBStmt.rawStmt).Perm
        (it.rawStmt :: w.iteratorStmts) := by
      rw [List.map_append]
      exact List.perm_append_singleton _ _
    rw [Option.toList_some, ← take_cached_ofList hperm]
    exact howns'

/-- A freed iterator takes its statement with it. -/
theorem settled_stmtFree (d : SqlRDBDriver σ) {w : Client (Audited σ)} (hw : w.Settled) (i : ℕ) :
    wp ((Call.stmtFree i).exec d.audited) (fun _ w' => w'.Settled) w := by
  obtain ⟨l, hl, howns⟩ := hw
  rw [Call.exec, wp_bind, wp_get, wp_bind, wp_onHandle]
  cases hit : w.iterators[i]? with
  | none =>
    have hlen : w.iterators.length ≤ i := List.getElem?_eq_none_iff.1 hit
    refine ⟨l, hl, ?_⟩
    change Ledger.Owns _ (cached l (.ofList ((w.iterators.eraseIdx i).map SqlRDBStmt.rawStmt)))
    rw [List.eraseIdx_of_length_le hlen]
    exact howns
  | some it =>
    obtain ⟨hi, hget⟩ := List.getElem?_eq_some_iff.1 hit
    have hperm : w.iteratorStmts.Perm
        (it.rawStmt :: (w.iterators.eraseIdx i).map SqlRDBStmt.rawStmt) := by
      rw [← hget]
      exact (List.getElem_cons_eraseIdx_perm hi).symm.map SqlRDBStmt.rawStmt
    rw [← take_cached_ofList hperm] at howns
    refine wp_mono (spends_stmtFree d it w.handle howns) ?_
    rintro _ h' ⟨howns', hcache⟩
    exact ⟨l, hcache ▸ hl, howns'⟩

/-- One call of a client. -/
theorem settled_exec (d : SqlRDBDriver σ) {w : Client (Audited σ)} (hw : w.Settled) (c : Call)
    (hret : (c.exec d.audited w).1.code.isSome) : (c.exec d.audited w).2.Settled := by
  cases c with
  | registerStruct fuel name cols => exact registerStruct_settled d fuel name cols hw hret
  | write name row nullMap => exact settles_write d name row nullMap _ hw
  | writeMany name rows n stride nullMaps =>
    exact settles_writeMany d name rows n stride nullMaps _ hw
  | read name cond out opts => exact settles_read d name cond out opts _ hw
  | readMany name cond hasOut => exact settled_readMany d hw name cond hasOut
  | stmtNext i out =>
    obtain ⟨l, hl, howns⟩ := hw
    have hhas : ∀ it ∈ w.iterators[i]?, (cached l (.ofList w.iteratorStmts)).Has it.rawStmt := by
      intro it hit
      have hmem : it.rawStmt ∈ w.iteratorStmts := List.mem_map.2 ⟨it, List.mem_of_getElem? hit, rfl⟩
      exact ⟨Multiset.mem_add.2 (.inr hmem), hmem⟩
    obtain ⟨howns', hcache⟩ := spends_stmtNext d w.iterators[i]? out hhas w.handle howns
    exact ⟨l, hcache ▸ hl, howns'⟩
  | stmtFree i => exact settled_stmtFree d hw i
  | delete name cond out => exact settles_delete d name cond out _ hw
  | count name cond out => exact settles_count d name cond out _ hw
  | beginTx => exact settles_beginTx d _ hw
  | commitTx => exact settles_endTx _ (settles_commitCall d) _ hw
  | rollbackTx => exact settles_endTx _ (settles_rollbackCall d) _ hw
  | writeBlobField name key col bytes => exact settles_writeBlobField d name key col bytes _ hw
  | readBlobField name key col out =>
    exact Settles.of_spends (fun B => spends_readBlobField d name key col out) _ hw
  | setConfig cfg => exact settles_setConfig d cfg _ hw
  | setLogger logger => exact settles_setLogger logger _ hw

/-- The open statements of a client are those of its cache and of its iterators, each of them once;
the ones of the cache are at rest, and no statement was ever used when it was not open. -/
structure Client.Accounted (w : Client (Audited σ)) : Prop where
  live_eq : w.handle.ctx.ledger.live = ↑(w.handle.cache.items.map Prod.snd ++ w.iteratorStmts)
  nodup : (w.handle.cache.items.map Prod.snd ++ w.iteratorStmts).Nodup
  resting : ∀ id ∈ w.handle.cache.items.map Prod.snd, id ∉ w.handle.ctx.ledger.busy
  not_misused : w.handle.ctx.ledger.misused = false

theorem Client.Settled.accounted {w : Client (Audited σ)} (hw : w.Settled) : w.Accounted := by
  obtain ⟨l, hl, howns⟩ := hw
  have hitems : w.handle.cache.items = l := hl.items_eq
  have hlive : w.handle.ctx.ledger.live = ↑(l.map Prod.snd ++ w.iteratorStmts) :=
    howns.live_eq.trans (Multiset.coe_add _ _)
  have hnodup : (l.map Prod.snd ++ w.iteratorStmts).Nodup :=
    Multiset.coe_nodup.1 (hlive ▸ howns.nodup)
  refine ⟨hitems ▸ hlive, hitems ▸ hnodup, ?_, howns.not_misused⟩
  rw [hitems]
  intro id hid hbusy
  exact (List.disjoint_of_nodup_append hnodup) hid (howns.busy_mem id hbusy)

theorem settled_freshHandle (ctx : σ) (heap : Heap) :
    (⟨freshHandle (Audited.fresh ctx) heap, []⟩ : Client (Audited σ)).Settled :=
  ⟨[], SqlRDBStmtCache.represents_nil _ _, Ledger.owns_empty.mono rfl (Set.empty_subset _)⟩

theorem settled_run (d : SqlRDBDriver σ) {w : Client (Audited σ)} (hw : w.Settled) {cs : List Call}
    (hret : Returns d.audited cs w) : (run d.audited cs w).2.Settled :=
  run_invariant (fun _ c hw _ hret => settled_exec d hw c hret) hw (along_true cs) hret

/-- What a close releases after the rollback. -/
theorem releaseAll_owns (d : SqlRDBDriver σ) {h : SqlRDBHandle (Audited σ)}
    {l : List (CStr × StmtId)} (hl : h.cache.Represents l)
    (howns : h.ctx.ledger.Owns (cached l A)) :
    wp (releaseAll d.audited) (fun _ h' => h'.ctx.ledger.Owns A) h := by
  simp only [releaseAll, wp_bind, wp_get, hl.destroy_eq, wp_set]
  refine wp_mono (spends_finalizeAll (l.map Prod.snd) _ howns) ?_
  rintro _ h' ⟨howns', -⟩
  rw [wp_modify, wp_ite]
  split
  · exact (spends_call d.close _ howns').1
  · exact howns'

/-- Closing a handle finalizes what is left in the cache. -/
theorem close_owns (d : SqlRDBDriver σ) {h : SqlRDBHandle (Audited σ)} (hs : Settled A h)
    (hv : h.valid = true) :
    wp (sqlRDBClose d.audited) (fun _ h' => h'.ctx.ledger.Owns A) h := by
  obtain ⟨l, hl, howns⟩ := hs
  simp only [sqlRDBClose, teardown, rollbackOpenTx]
  rw [wp_bind, wp_get, if_neg (by simp [hv]), wp_bind, wp_set, wp_bind, wp_bind, wp_bind, wp_get,
    wp_ite]
  split
  · exact releaseAll_owns d hl (spends_call d.rollback _ howns).1
  · exact releaseAll_owns d hl howns

/-- After each call that returns, whatever the driver and the allocator do, the accounts are in
order, and a handle without open iterators can be closed so that nothing is left. -/
theorem accounted_afterEach (d : SqlRDBDriver σ) (ctx : σ) (heap : Heap) (cs : List Call) :
    AfterEach d.audited (fun w => w.Accounted ∧ (w.iterators = [] →
        (sqlRDBClose d.audited w.handle).2.ctx.ledger.live = 0 ∧
          (sqlRDBClose d.audited w.handle).2.ctx.ledger.misused = false))
      ⟨freshHandle (Audited.fresh ctx) heap, []⟩ cs := by
  refine afterEach_of_invariant (I := fun w => w.Settled ∧ w.handle.valid = true) ?_ ?_
    ⟨settled_freshHandle ctx heap, rfl⟩ cs
  · rintro w c ⟨hw, hv⟩ hret
    exact ⟨settled_exec d hw c hret, valid_exec d.audited hv c hret⟩
  · rintro w ⟨hw, hv⟩
    refine ⟨hw.accounted, fun hnone => ?_⟩
    have hclosed : (sqlRDBClose d.audited w.handle).2.ctx.ledger.Owns (.ofList w.iteratorStmts) :=
      close_owns d hw hv
    rw [Client.iteratorStmts, hnone] at hclosed
    exact ⟨hclosed.live_eq, hclosed.not_misused⟩

/-- **Statement accounting.** Whatever the driver and the allocator do, after every run of calls
that return the statements which have been prepared and not finalized are those of the cache and
those of the open iterators, each of them once; those of the cache have been reset; and no statement
was ever used or finalized after it had been finalized. Closing the handle then finalizes those of
the cache, so nothing is left if there is no open iterator. -/
theorem statements_accounted (d : SqlRDBDriver σ) (ctx : σ) (heap : Heap) (cs : List Call)
    (hret : Returns d.audited cs ⟨freshHandle (Audited.fresh ctx) heap, []⟩) :
    let w := (run d.audited cs ⟨freshHandle (Audited.fresh ctx) heap, []⟩).2
    let closed := (sqlRDBClose d.audited w.handle).2.ctx.ledger
    w.Accounted ∧ closed.live = ↑w.iteratorStmts ∧ closed.misused = false := by
  intro w closed
  have hw : w.Settled := settled_run d (settled_freshHandle ctx heap) hret
  have hclosed : closed.Owns (.ofList w.iteratorStmts) :=
    close_owns d hw (valid_run d.audited rfl hret)
  exact ⟨hw.accounted, hclosed.live_eq, hclosed.not_misused⟩

/-- An engine whose catalog has a table `t` with the column `a`, and whose tables are empty. -/
def oneColumnEngine : Engine Unit where
  compiles _ := true
  run sql _ _ :=
    if sql = lit "PRAGMA table_info(\"t\")" then
      some ⟨[[.int 0, .text (lit "a"), .text (lit "INTEGER"), .int 1, .null, .int 0]], (), none⟩
    else some ⟨[], (), none⟩
  toInt64
    | .int v => v
    | _ => 0
  toReal _ := 0
  toText
    | .text s => s
    | _ => []
  toBlob _ := []

/-- A registration, which finds the table, a count, whose statement is cached, and an iterator. -/
theorem statements_accounted_register :
    let d := driver .sqlite oneColumnEngine
    let w₀ : Client (Audited (Session Unit)) :=
      ⟨freshHandle (.fresh twoStatementsHandle.ctx) twoStatementsHandle.heap, []⟩
    let calls : List Call :=
      [.registerStruct 4 (some (lit "t")) (some [some ⟨lit "a", .int32, 0, 4, 0⟩]),
        .count (some (lit "t")) none (some 0), .readMany (some (lit "t")) none true]
    let w := (run d.audited calls w₀).2
    w.handle.cache.items.map Prod.snd = [3] ∧ w.iteratorStmts = [4] ∧ w.Accounted := by
  intro d w₀ calls w
  refine ⟨by decide +kernel, by decide +kernel, (statements_accounted d _ _ calls ?_).1⟩
  decide +kernel

end C2Sql
