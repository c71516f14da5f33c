import C2Sql.Api.Calls
import C2Sql.CacheSpec
import C2Sql.Logic

/-!
# What calls leave alone

The parts of a handle that the calls on rows do not touch, whatever the driver and the allocator do:
the schemas, the configuration and, up to one acquisition and one release, the mutex.

* `SqlRDBHandle.core`: the parts that helpers keep;
* `Releases`: a computation that keeps them, and unlocks the mutex when it ends;
* `Bracketed`: a call that is refused at once, or locks, works and unlocks;
* `bracketed_exec`: every call but those that register and configure.
-/

namespace C2Sql

open StateLogic

variable {σ α β : Type}

/-- A handle without its driver context, statements, transaction state, error context and logger,
and without what the allocator counts. -/
def SqlRDBHandle.core (h : SqlRDBHandle σ) : SqlRDBHandle Unit :=
  { h with
    ctx := ()
    cache := .zero
    txn := ⟨0, fun _ => []⟩
    error := ⟨.ok, []⟩
    logger := ⟨0, 0⟩
    logged := []
    heap := { h.heap with tick := 0, corrupt := false } }

/-! ## Helpers -/

theorem keepsCore_drv (c : StateM σ α) : Keeps SqlRDBHandle.core (drv c) := fun _ => rfl

theorem keepsCore_malloc : Keeps SqlRDBHandle.core (malloc : Api σ Bool) := fun _ => rfl

theorem keepsCore_errSet (code : SqlRDBResult) (message : CStr) :
    Keeps SqlRDBHandle.core (errSet code message : Api σ Unit) := fun _ => rfl

theorem keepsCore_internalLog (code : SqlRDBResult) (message : CStr) :
    Keeps SqlRDBHandle.core (internalLog code message : Api σ Unit) := fun h => by
  rw [internalLog]
  dsimp only
  split <;> rfl

theorem keeps_get {γ : Type} (V : SqlRDBHandle σ → γ) :
    Keeps V (get : Api σ (SqlRDBHandle σ)) := fun _ => rfl

theorem keepsCore_noteOverrun (b : Buffer) : Keeps SqlRDBHandle.core (noteOverrun b : Api σ Unit) :=
  fun _ => rfl

theorem keepsCore_mallocs (n : ℕ) : Keeps SqlRDBHandle.core (mallocs n : Api σ Bool) := by
  induction n with
  | zero => exact .pure _
  | succ n ih => exact keepsCore_malloc.bind fun _ => ih.ite (.pure _)

theorem keepsCore_qbBuild (spec : SqlRDBQuerySpec) :
    Keeps SqlRDBHandle.core (qbBuild spec : Api σ (Except SqlRDBResult (CStr × ℕ))) :=
  keepsCore_malloc.bind fun _ => .pure _

theorem keepsCore_finalizeAll (d : SqlRDBDriver σ) (ids : List StmtId) :
    Keeps SqlRDBHandle.core (finalizeAll d ids) := by
  induction ids with
  | nil => exact .pure _
  | cons id ids ih => exact (keepsCore_drv _).bind fun _ => ih

theorem keepsCore_cacheGet (sql : CStr) :
    Keeps SqlRDBHandle.core (cacheGet sql : Api σ (Option StmtId)) := by
  refine .of_wp fun h => ?_
  simp only [cacheGet, wp_bind, wp_get]
  split <;> rfl

theorem keepsCore_cachePut (d : SqlRDBDriver σ) (sql : CStr) (stmt : StmtId) :
    Keeps SqlRDBHandle.core (cachePut d sql stmt) := by
  refine (keepsCore_mallocs 2).bind fun allocOk => .of_wp fun h => ?_
  simp only [wp_bind, wp_get, wp_set]
  exact ((keepsCore_finalizeAll d _).bind fun _ => .pure _).wp _

theorem keepsCore_getOrPrepare (d : SqlRDBDriver σ) (sql : CStr) :
    Keeps SqlRDBHandle.core (getOrPrepare d sql) := by
  refine (keepsCore_cacheGet sql).bind fun hit => ?_
  split
  · exact .pure _
  · refine (keepsCore_drv _).bind fun res => .ite (.pure _) ((keeps_get _).bind fun h => ?_)
    refine .ite (.pure _) ((keepsCore_cachePut d sql _).bind fun r => .ite (.pure _) ?_)
    refine (keepsCore_cacheGet sql).bind fun hit => ?_
    split <;> exact .pure _

theorem keepsCore_releaseCachedStmt (d : SqlRDBDriver σ) (stmt : StmtId) (owned : Bool) :
    Keeps SqlRDBHandle.core (releaseCachedStmt d stmt owned) :=
  .ite ((keepsCore_drv _).bind fun _ => .pure _) ((keepsCore_drv _).bind fun _ => .pure _)

theorem keepsCore_callocNullMap (m : Option Mem) :
    Keeps SqlRDBHandle.core (callocNullMap m : Api σ (Option Mem)) := by
  cases m with
  | none => exact .pure _
  | some m => exact keepsCore_malloc.bind fun _ => .pure _

/-- A statement that is finalized before the result is returned. -/
theorem keepsCore_finalize_pure {d : SqlRDBDriver σ} {stmt : StmtId} {a : α} :
    Keeps SqlRDBHandle.core (do let _ ← drv (d.finalize stmt); pure a : Api σ α) :=
  (keepsCore_drv _).bind fun _ => .pure _

theorem keepsCore_countRows (d : SqlRDBDriver σ) (stmt : StmtId) :
    Keeps SqlRDBHandle.core (countRows d stmt) := by
  refine (keepsCore_drv _).bind fun res => .ite keepsCore_finalize_pure (.ite ?_ ?_)
  · exact (keepsCore_drv _).bind fun res => (keepsCore_drv _).bind fun _ => .ite (.pure _) (.pure _)
  · exact keepsCore_finalize_pure

theorem keepsCore_countMatchingRows (d : SqlRDBDriver σ) (schema : SqlRDBSchema) (col : CStr)
    (cond : SqlRDBCondition) : Keeps SqlRDBHandle.core (countMatchingRows d schema col cond) := by
  refine (keepsCore_qbBuild _).bind fun res => ?_
  split
  · exact .pure _
  · refine (keepsCore_drv _).bind fun res => .ite (.pure _) ((keepsCore_drv _).bind fun r => ?_)
    exact .ite keepsCore_finalize_pure (keepsCore_countRows d _)

/-! ## Table synchronisation -/

/-- A part of a handle that the helpers of the synchronisation and the driver functions that it
calls do not change. -/
structure Background {γ : Type} (d : SqlRDBDriver σ) (V : SqlRDBHandle σ → γ) : Prop where
  exec : ∀ sql, Keeps V (drv (d.exec sql))
  prepare : ∀ sql, Keeps V (drv (d.prepare sql))
  bind : ∀ stmt i v, Keeps V (drv (d.bind stmt i v))
  step : ∀ stmt, Keeps V (drv (d.step stmt))
  columnInt32 : ∀ stmt i, Keeps V (drv (d.columnInt32 stmt i))
  columnText : ∀ stmt i, Keeps V (drv (d.columnText stmt i))
  finalize : ∀ stmt, Keeps V (drv (d.finalize stmt))
  malloc : Keeps V malloc
  errSet : ∀ code message, Keeps V (errSet code message)
  internalLog : ∀ code message, Keeps V (internalLog code message)

theorem background_core (d : SqlRDBDriver σ) : Background d SqlRDBHandle.core where
  exec _ := keepsCore_drv _
  prepare _ := keepsCore_drv _
  bind _ _ _ := keepsCore_drv _
  step _ := keepsCore_drv _
  columnInt32 _ _ := keepsCore_drv _
  columnText _ _ := keepsCore_drv _
  finalize _ := keepsCore_drv _
  malloc := keepsCore_malloc
  errSet := keepsCore_errSet
  internalLog := keepsCore_internalLog

namespace Background

variable {γ : Type} {d : SqlRDBDriver σ} {V : SqlRDBHandle σ → γ} (hV : Background d V)

include hV

theorem finalize_pure {stmt : StmtId} {a : α} :
    Keeps V (do let _ ← drv (d.finalize stmt); pure a : Api σ α) :=
  (hV.finalize _).bind fun _ => .pure _

/-- A refusal that is recorded in the error context. -/
theorem errSet_pure {code : SqlRDBResult} {message : CStr} {a : α} :
    Keeps V (do C2Sql.errSet code message; pure a : Api σ α) :=
  (hV.errSet _ _).bind fun _ => .pure _

theorem qbBuild (spec : SqlRDBQuerySpec) :
    Keeps V (qbBuild spec : Api σ (Except SqlRDBResult (CStr × ℕ))) :=
  hV.malloc.bind fun _ => .pure _

theorem growCols (n cap : ℕ) : Keeps V (growCols n cap : Api σ (Bool × ℕ)) :=
  .ite (hV.malloc.bind fun _ => .pure _) (.pure _)

theorem collectCols (stmt : StmtId) {readRow : ℕ → Api σ DbCol}
    (hrow : ∀ n, Keeps V (readRow n)) (fuel cap : ℕ) (cols : List DbCol) :
    Keeps V (collectCols d stmt readRow fuel cap cols) := by
  induction fuel generalizing cap cols with
  | zero => exact .pure _
  | succ fuel ih =>
    refine (hV.step _).bind fun res => .ite hV.finalize_pure ?_
    refine (hV.growCols _ _).bind fun g => .ite hV.finalize_pure ?_
    exact (hrow _).bind fun col => ih _ _

theorem collectNames (stmt : StmtId) {pick : Api σ (Option (List UInt8))} (hpick : Keeps V pick)
    (max len fuel : ℕ) (names : List CStr) :
    Keeps V (collectNames d stmt pick max len fuel names) := by
  induction fuel generalizing names with
  | zero => exact .pure _
  | succ fuel ih =>
    refine (hV.step _).bind fun res => .ite hV.finalize_pure ?_
    exact hpick.bind fun name => ih _

theorem pickText (stmt : StmtId) (i : ℕ) : Keeps V (pickText d stmt i) :=
  (hV.columnText _ _).bind fun _ => .pure _

theorem pickIndexName (stmt : StmtId) : Keeps V (pickIndexName d stmt) := by
  refine (hV.columnInt32 _ _).bind fun uniq => .ite (.pure _) ?_
  refine (hV.columnText _ _).bind fun origin => .ite (.pure _) ?_
  exact (hV.columnText _ _).bind fun name => .pure _

theorem readTableInfo (fuel : ℕ) (table : CStr) : Keeps V (readTableInfo d fuel table) := by
  refine (hV.prepare _).bind fun res => .ite (.pure _) ?_
  refine hV.collectCols _ (fun _ => ?_) _ _ _
  refine (hV.columnInt32 _ _).bind fun _ => (hV.columnText _ _).bind fun _ => ?_
  refine (hV.columnText _ _).bind fun _ => ?_
  exact (hV.columnInt32 _ _).bind fun _ => (hV.columnInt32 _ _).bind fun _ => .pure _

theorem applyIndexes (fuel : ℕ) (idxs : List CStr) (cols : List DbCol) :
    Keeps V (applyIndexes d fuel idxs cols) := by
  induction idxs generalizing cols with
  | nil => exact .pure _
  | cons idx idxs ih =>
    refine (hV.prepare _).bind fun res => .ite (.pure _) ?_
    refine (hV.collectNames _ (hV.pickText _ _) _ _ _ _).bind fun res => ?_
    split
    · exact .pure _
    · exact .ite (.pure _) (ih _)

theorem applyUniqueFlags (fuel : ℕ) (table : CStr) (cols : List DbCol) :
    Keeps V (applyUniqueFlags d fuel table cols) := by
  refine (hV.prepare _).bind fun res => .ite (.pure _) ?_
  refine (hV.collectNames _ (hV.pickIndexName _) _ _ _ _).bind fun res => ?_
  split
  · exact .pure _
  · exact .ite (.pure _) (hV.applyIndexes _ _ _)

theorem checkStrict (table : CStr) : Keeps V (checkStrict d table) := by
  refine (hV.prepare _).bind fun res => .ite (.pure _) ?_
  refine (hV.step _).bind fun res => .ite hV.finalize_pure ?_
  refine (hV.columnText _ _).bind fun (_, p) => ?_
  cases p with
  | none => exact hV.finalize_pure
  | some p =>
    dsimp only
    split
    · exact .pure _
    · exact hV.finalize_pure

theorem pgCollectNames (fuel : ℕ) (sql table : CStr) (max : ℕ) :
    Keeps V (pgCollectNames d fuel sql table max) := by
  refine (hV.prepare _).bind fun res => .ite (.pure _) ((hV.bind _ _ _).bind fun r => ?_)
  exact .ite hV.finalize_pure (hV.collectNames _ (hV.pickText _ _) _ _ _ _)

theorem readTableInfoPg (fuel : ℕ) (table : CStr) : Keeps V (readTableInfoPg d fuel table) := by
  refine (hV.prepare _).bind fun res => .ite (.pure _) ((hV.bind _ _ _).bind fun r => ?_)
  refine .ite hV.finalize_pure ?_
  refine (hV.collectCols _ (fun _ => ?_) _ _ _).bind fun res => ?_
  · refine (hV.columnText _ _).bind fun _ => (hV.columnText _ _).bind fun _ => ?_
    exact (hV.columnText _ _).bind fun _ => .pure _
  split
  · exact .pure _
  refine .ite (.pure _) ((hV.pgCollectNames _ _ _ _).bind fun res => ?_)
  split
  · exact .pure _
  refine .ite (.pure _) ((hV.pgCollectNames _ _ _ _).bind fun res => ?_)
  split
  · exact .pure _
  · exact .ite (.pure _) (.pure _)

theorem readExisting (fuel : ℕ) (table : CStr) : Keeps V (readExisting d fuel table) := by
  rw [C2Sql.readExisting]
  split
  · exact hV.readTableInfoPg fuel table
  · refine (hV.readTableInfo fuel table).bind fun res => ?_
    split
    · exact .pure _
    refine .ite (.pure _) ((hV.applyUniqueFlags _ _ _).bind fun res => ?_)
    split <;> exact .pure _

theorem alterAdd (schema : SqlRDBSchema) (cols : List SqlRDBColumnDef) :
    Keeps V (alterAdd d schema cols) := by
  induction cols with
  | nil => exact .pure _
  | cons col cols ih =>
    refine (hV.qbBuild _).bind fun res => ?_
    split
    · exact .pure _
    · exact (hV.exec _).bind fun r => .ite hV.errSet_pure ih

theorem revalidate (fuel : ℕ) (schema : SqlRDBSchema) : Keeps V (revalidate d fuel schema) := by
  refine (hV.readExisting fuel _).bind fun res => ?_
  split
  · exact .pure _
  refine .ite (.pure _) (.ite hV.errSet_pure ?_)
  split
  · exact hV.errSet_pure
  · exact .pure _

theorem syncColumns (fuel : ℕ) (schema : SqlRDBSchema) (dbCols : List DbCol) :
    Keeps V (syncColumns d fuel schema dbCols) := by
  rw [C2Sql.syncColumns]
  split
  · exact hV.errSet_pure
  refine .ite hV.errSet_pure (.ite ((keeps_get _).bind fun h => ?_) (.pure _))
  refine .ite hV.errSet_pure ((hV.alterAdd _ _).bind fun r => ?_)
  exact .ite (.pure _) (hV.revalidate fuel schema)

theorem internalMigrateTable (fuel : ℕ) (schema : SqlRDBSchema) :
    Keeps V (internalMigrateTable d fuel schema) := by
  refine (hV.qbBuild _).bind fun res => ?_
  split
  · exact .pure _
  refine (hV.exec _).bind fun r => .ite hV.errSet_pure ?_
  refine (hV.readExisting fuel _).bind fun res => ?_
  split
  · exact .pure _
  refine .ite (.pure _) (.ite (.pure _) ?_)
  dsimp only
  -- the two dialects differ in how they find out whether the table is STRICT
  split
  all_goals
    refine Keeps.bind (by first | exact .pure _ | exact hV.checkStrict _) fun strict => ?_
    split
    · exact .pure _
    · refine (keeps_get _).bind fun h => .ite hV.errSet_pure ?_
      refine .ite ?_ (hV.syncColumns _ _ _)
      exact (hV.internalLog _ _).bind fun _ => hV.syncColumns _ _ _

end Background

/-! ## Brackets -/

/-- A handle after an acquisition. -/
def SqlRDBHandle.locked (h : SqlRDBHandle σ) : SqlRDBHandle σ := { h with mutex := h.mutex.lock }

/-- A handle after a release. -/
def SqlRDBHandle.unlocked (h : SqlRDBHandle σ) : SqlRDBHandle σ :=
  { h with mutex := h.mutex.unlock }

/-- The computation keeps the core of a handle, and unlocks the mutex once. -/
def Releases (c : Api σ α) : Prop := ∀ h, (c h).2.core = h.core.unlocked

namespace Releases

/-- Every path ends so. -/
theorem exit (a : α) : Releases (do mutexUnlock; pure a : Api σ α) := fun h => by
  change (mutexUnlock h).2.core = _
  rw [mutexUnlock_eq]
  rfl

theorem bind {c : Api σ α} {k : α → Api σ β} (hc : Keeps SqlRDBHandle.core c)
    (hk : ∀ a, Releases (k a)) : Releases (c >>= k) := fun h =>
  (hk (c h).1 (c h).2).trans (congrArg SqlRDBHandle.unlocked (hc h))

theorem ite {p : Prop} [Decidable p] {c₁ c₂ : Api σ α} (h₁ : Releases c₁) (h₂ : Releases c₂) :
    Releases (if p then c₁ else c₂) := by
  split
  · exact h₁
  · exact h₂

/-- A path that gives its statement back. -/
theorem close {d : SqlRDBDriver σ} {stmt : StmtId} {owned : Bool} {a : α} :
    Releases (do releaseCachedStmt d stmt owned; mutexUnlock; pure a : Api σ α) :=
  .bind (keepsCore_releaseCachedStmt d stmt owned) fun _ => .exit a

/-- A path that finalizes its statement. -/
theorem finalize {d : SqlRDBDriver σ} {stmt : StmtId} {a : α} :
    Releases (do let _ ← drv (d.finalize stmt); mutexUnlock; pure a : Api σ α) :=
  .bind (keepsCore_drv _) fun _ => .exit a

/-- A path that records its failure. -/
theorem errSet {code : SqlRDBResult} {message : CStr} {a : α} :
    Releases (do errSet code message; mutexUnlock; pure a : Api σ α) :=
  .bind (keepsCore_errSet _ _) fun _ => .exit a

/-- A step that changes what comes after it only. -/
theorem then_pure {c : Api σ α} (hc : Releases c) (f : α → β) :
    Releases (do let a ← c; pure (f a)) := hc

end Releases

/-- The common opening unlocks the mutex itself when it fails. -/
theorem openStmt_core (d : SqlRDBDriver σ) (who name : CStr)
    (spec : SqlRDBSchema → SqlRDBQuerySpec) (h : SqlRDBHandle σ) :
    wp (openStmt d who name spec) (fun res h' => h'.core = match res with
      | .ok _ => h.core
      | .error _ => h.core.unlocked) h := by
  simp only [openStmt, wp_bind, wp_get]
  split
  · exact Releases.errSet h
  · rw [wp_bind]
    refine wp_mono ((keepsCore_qbBuild _).wp h) fun res h₁ hc₁ => ?_
    rw [← hc₁]
    rcases res with r | ⟨sql, n⟩
    · exact Releases.exit _ h₁
    · rw [wp_bind]
      refine wp_mono ((keepsCore_getOrPrepare d sql).wp h₁) fun res h₂ hc₂ => ?_
      rw [← hc₂]
      rcases res with r | ⟨stmt, owned⟩
      · exact Releases.exit _ h₂
      · rfl

theorem Releases.openStmt {d : SqlRDBDriver σ} {who name : CStr}
    {spec : SqlRDBSchema → SqlRDBQuerySpec}
    {k : Except SqlRDBResult (SqlRDBSchema × StmtId × Bool) → Api σ α}
    (herr : ∀ r, Keeps SqlRDBHandle.core (k (.error r))) (hok : ∀ x, Releases (k (.ok x))) :
    Releases (C2Sql.openStmt d who name spec >>= k) := fun h => by
  change wp (C2Sql.openStmt d who name spec) (fun res h' => (k res h').2.core = h.core.unlocked) h
  refine wp_mono (openStmt_core d who name spec h) fun res h' hres => ?_
  rcases res with r | x
  · exact (herr r h').trans hres
  · exact (hok x h').trans (congrArg SqlRDBHandle.unlocked hres)

/-- A call that leaves the core of the handle alone, or locks and unlocks its mutex. -/
def Bracketed (c : Api σ α) : Prop :=
  ∀ h, (c h).2.core = h.core ∨ (c h).2.core = h.core.locked.unlocked

namespace Bracketed

theorem pure (a : α) : Bracketed (Pure.pure a : Api σ α) := fun _ => .inl rfl

theorem get {k : SqlRDBHandle σ → Api σ α} (hk : ∀ h, Bracketed (k h)) :
    Bracketed (MonadState.get >>= k) := fun h => hk h h

theorem ite {p : Prop} [Decidable p] {c₁ c₂ : Api σ α} (h₁ : Bracketed c₁) (h₂ : Bracketed c₂) :
    Bracketed (if p then c₁ else c₂) := by
  split
  · exact h₁
  · exact h₂

theorem lock {k : Unit → Api σ α} (hk : Releases (k ())) : Bracketed (mutexLock >>= k) := by
  intro h
  right
  change (k () (mutexLock h).2).2.core = _
  rw [mutexLock_eq]
  exact hk _

end Bracketed

/-! ## Calls -/

section Calls

variable (d : SqlRDBDriver σ)

theorem bracketed_write (structName : Option CStr) (row nullMap : Option Mem) :
    Bracketed (sqlRDBWrite d structName row nullMap) := by
  refine .get fun h => .ite (.pure _) ?_
  split
  · refine .lock (.openStmt (fun r => .pure r) fun (schema, stmt, owned) => ?_)
    refine .bind (keepsCore_drv _) fun r => .ite .close (.bind (keepsCore_drv _) fun res => ?_)
    refine .bind (keepsCore_releaseCachedStmt d stmt owned) fun _ => ?_
    exact .ite .errSet (.exit _)
  · exact .pure _

theorem bracketed_writeMany (structName : Option CStr) (rows : Option Mem) (count stride : ℕ)
    (nullMaps : Option Mem) :
    Bracketed (sqlRDBWriteMany d structName rows count stride nullMaps) := by
  refine .get fun h => .ite (.pure _) ?_
  split
  · refine .ite (.pure _) (.lock (.openStmt (fun r => .pure r) fun (schema, stmt, owned) => ?_))
    refine .bind (keeps_get _) fun h => .ite (.bind (keepsCore_drv _) fun br => ?_)
      (.bind (.pure _) fun br => ?_)
    all_goals
      refine .ite .close (.bind (keepsCore_drv _) fun r => .ite (.ite ?_ ?_) .close)
      · exact .bind (keepsCore_drv _) fun _ => .close
      · exact .bind (keepsCore_drv _) fun _ => .close
  · exact .pure _

theorem bracketed_delete (structName : Option CStr) (cond : Option SqlRDBCondition)
    (outDeleted : Option ℕ) : Bracketed (sqlRDBDelete d structName cond outDeleted) := by
  refine .get fun h => .ite (.pure _) ?_
  split
  · refine .lock (.openStmt (fun r => .pure _) fun (_, stmt, owned) => ?_)
    refine .bind (keepsCore_drv _) fun r => .ite .close (.bind (keepsCore_drv _) fun res => ?_)
    refine .bind (keepsCore_releaseCachedStmt d stmt owned) fun _ => ?_
    exact .ite (.bind (keepsCore_drv _) fun n => .exit _) (.exit _)
  · exact .pure _

theorem bracketed_count (structName : Option CStr) (cond : Option SqlRDBCondition)
    (outCount : Option ℕ) : Bracketed (sqlRDBCount d structName cond outCount) := by
  refine .get fun h => .ite (.pure _) ?_
  split
  · refine .lock (.openStmt (fun r => .pure _) fun (_, stmt, owned) => ?_)
    refine .bind (keepsCore_drv _) fun r => .ite .close (.bind (keepsCore_drv _) fun res => ?_)
    exact .bind (keepsCore_drv _) fun res => .close
  · exact .pure _

theorem releases_readBuffered (stmt : StmtId) (owned : Bool) (schema : SqlRDBSchema) (out : Buffer)
    (outNullMap : Option Mem) : Releases (readBuffered d stmt owned schema out outNullMap) := by
  refine .bind keepsCore_malloc fun ok => .ite .close ?_
  refine .bind (keepsCore_callocNullMap _) fun nm => .bind (keepsCore_drv _) fun res => ?_
  refine .bind (keepsCore_noteOverrun _) fun _ => .ite .close ?_
  refine .bind (keepsCore_drv _) fun res => ?_
  refine .bind (keepsCore_releaseCachedStmt d stmt owned) fun _ => ?_
  exact .ite (.exit _) (.exit _)

theorem bracketed_read (structName : Option CStr) (cond : Option SqlRDBCondition) (out : ReadOut)
    (opts : Option SqlRDBReadOpts) : Bracketed (sqlRDBRead d structName cond out opts) := by
  refine .get fun h => .ite (.pure _) ?_
  split
  · refine .lock (.openStmt (fun r => .pure _) fun (schema, stmt, owned) => ?_)
    refine .bind (keeps_get _) fun h => .bind (keepsCore_drv _) fun r => .ite .close ?_
    refine .bind (keepsCore_drv _) fun res => .ite .close (.ite .close (.ite ?_ ?_))
    · exact .bind (keepsCore_drv _) fun res => .close
    · exact (releases_readBuffered d stmt owned schema _ _).then_pure _
  · exact .pure _

theorem bracketed_readMany (structName : Option CStr) (cond : Option SqlRDBCondition)
    (hasOut : Bool) : Bracketed (sqlRDBReadMany d structName cond hasOut) := by
  refine .get fun h => .ite (.pure _) ?_
  split
  · refine .lock (.bind (keeps_get _) fun h => ?_)
    split
    · exact .errSet
    refine .bind (keepsCore_qbBuild _) fun res => ?_
    split
    · exact .exit _
    refine .bind (keepsCore_drv _) fun res => .ite (.exit _) (.bind (keepsCore_drv _) fun r => ?_)
    exact .ite .finalize (.bind keepsCore_malloc fun ok => .ite .finalize (.exit _))
  · exact .pure _

theorem bracketed_stmtNext (stmt : Option SqlRDBStmt) (out : ReadOut) :
    Bracketed (sqlRDBStmtNext d stmt out) := by
  unfold sqlRDBStmtNext
  split
  · refine .lock (.bind (keepsCore_drv _) fun res => .ite (.exit _) (.ite (.exit _) ?_))
    exact .bind (keeps_get _) fun h => .bind (keepsCore_drv _) fun res => .exit _
  · exact .pure _

theorem bracketed_stmtFree (stmt : Option SqlRDBStmt) : Bracketed (sqlRDBStmtFree d stmt) := by
  unfold sqlRDBStmtFree
  split
  · exact .lock .finalize
  · exact .pure _

theorem releases_updateField (schema : SqlRDBSchema) (key : SqlRDBCondition) (col : CStr)
    (bytes : List UInt8) : Releases (updateField d schema key col bytes) := by
  refine .bind (keepsCore_qbBuild _) fun res => ?_
  split
  · exact .exit _
  refine .bind (keepsCore_getOrPrepare d _) fun res => ?_
  split
  · exact .exit _
  refine .bind (keepsCore_drv _) fun r => .ite .close ?_
  refine .bind (keepsCore_drv _) fun r => .ite .close ?_
  refine .bind (keepsCore_drv _) fun res => .bind (keepsCore_releaseCachedStmt d _ _) fun _ => ?_
  exact .ite .errSet (.exit _)

theorem bracketed_writeBlobField (structName : Option CStr) (key : Option SqlRDBCondition)
    (colName : Option CStr) (bytes : Option (List UInt8)) :
    Bracketed (sqlRDBWriteBlobField d structName key colName bytes) := by
  refine .get fun h => .ite (.pure _) ?_
  split
  · refine .lock (.bind (keeps_get _) fun h => ?_)
    split
    · exact .errSet
    dsimp only
    split
    · exact .exit _
    refine .ite .errSet (.bind (keepsCore_countMatchingRows d _ _ _) fun res => ?_)
    refine .ite (.exit _) (.ite (.exit _) (.ite (.exit _) ?_))
    exact releases_updateField d _ _ _ _
  · exact .pure _

theorem releases_readBlobRow (stmt : StmtId) (old : Option (List UInt8)) :
    Releases (readBlobRow d stmt old) := by
  refine .bind (keepsCore_drv _) fun res => .ite .finalize (.bind keepsCore_malloc fun ok => ?_)
  refine .ite .finalize (.bind (keepsCore_drv _) fun res => .bind (keepsCore_drv _) fun _ => ?_)
  exact .ite (.exit _) (.ite (.exit _) (.exit _))

theorem bracketed_readBlobField (structName : Option CStr) (key : Option SqlRDBCondition)
    (colName : Option CStr) (out : Option (Option (List UInt8))) :
    Bracketed (sqlRDBReadBlobField d structName key colName out) := by
  refine .get fun h => .ite (.pure _) ?_
  split
  · refine .lock (.bind (keeps_get _) fun h => ?_)
    split
    · exact .errSet
    dsimp only
    split
    · exact .exit _
    refine .ite .errSet (.bind (keepsCore_qbBuild _) fun res => ?_)
    split
    · exact .exit _
    refine .bind (keepsCore_drv _) fun res => .ite (.exit _) (.bind (keepsCore_drv _) fun r => ?_)
    refine .ite .finalize (.bind (keepsCore_drv _) fun res => .ite .finalize (.ite .finalize ?_))
    exact (releases_readBlobRow d _ _).then_pure _
  · exact .pure _

theorem keepsCore_beginCall : Keeps SqlRDBHandle.core (beginCall d) := by
  refine .of_wp fun h => ?_
  simp only [beginCall, wp_bind, wp_get]
  split
  · exact keepsCore_drv _ h
  · exact keepsCore_drv _ _

theorem keepsCore_commitCall : Keeps SqlRDBHandle.core (commitCall d) :=
  (keeps_get _).bind fun _ => .ite (keepsCore_drv _) (keepsCore_drv _)

theorem keepsCore_rollbackCall : Keeps SqlRDBHandle.core (rollbackCall d) :=
  (keeps_get _).bind fun _ => .ite (keepsCore_drv _)
    ((keepsCore_drv _).bind fun _ => .ite (keepsCore_drv _) (.pure _))

/-- A change of the transaction depth. -/
theorem keepsCore_modify_txn (f : SqlRDBHandle σ → SqlRDBTxnState) :
    Keeps SqlRDBHandle.core (modify fun h => { h with txn := f h } : Api σ PUnit) := fun _ => rfl

theorem bracketed_beginTx : Bracketed (sqlRDBBeginTx d) := by
  refine .get fun h => .ite (.pure _) (.lock (.ite .errSet ?_))
  refine .bind (keepsCore_beginCall d) fun r => .ite .errSet ?_
  exact .bind (keepsCore_modify_txn _) fun _ => .exit _

theorem bracketed_endTx (who : CStr) {call : Api σ SqlRDBResult}
    (hcall : Keeps SqlRDBHandle.core call) : Bracketed (endTx who call) := by
  refine .get fun h => .ite (.pure _) (.lock (.ite (.exit _) ?_))
  refine .bind hcall fun r => .ite .errSet ?_
  exact .bind (keepsCore_modify_txn _) fun _ => .exit _

theorem bracketed_setLogger (logger : SqlRDBLoggerCtx) :
    Bracketed (sqlRDBSetLogger logger : Api σ SqlRDBResult) :=
  .get fun _ => .ite (.pure _) (.lock (.bind (fun _ => rfl) fun _ => .exit _))

/-- The calls that change the registry or the configuration. -/
def Call.changesCore : Call → Bool
  | .registerStruct .. | .setConfig _ => true
  | _ => false

/-- **Every other call is bracketed.** -/
theorem bracketed_exec {c : Call} (hc : c.changesCore = false) (w : Client σ) :
    (c.exec d w).2.handle.core = w.handle.core ∨
      (c.exec d w).2.handle.core = w.handle.core.locked.unlocked := by
  cases c with
  | registerStruct => cases hc
  | setConfig => cases hc
  | write name row nullMap => exact bracketed_write d name row nullMap w.handle
  | writeMany name rows n stride nullMaps =>
    exact bracketed_writeMany d name rows n stride nullMaps w.handle
  | read name cond out opts => exact bracketed_read d name cond out opts w.handle
  | readMany name cond hasOut => exact bracketed_readMany d name cond hasOut w.handle
  | stmtNext i out => exact bracketed_stmtNext d w.iterators[i]? out w.handle
  | stmtFree i => exact bracketed_stmtFree d w.iterators[i]? w.handle
  | delete name cond out => exact bracketed_delete d name cond out w.handle
  | count name cond out => exact bracketed_count d name cond out w.handle
  | beginTx => exact bracketed_beginTx d w.handle
  | commitTx => exact bracketed_endTx _ (keepsCore_commitCall d) w.handle
  | rollbackTx => exact bracketed_endTx _ (keepsCore_rollbackCall d) w.handle
  | writeBlobField name key col bytes =>
    exact bracketed_writeBlobField d name key col bytes w.handle
  | readBlobField name key col out => exact bracketed_readBlobField d name key col out w.handle
  | setLogger logger => exact bracketed_setLogger logger w.handle

/-! ## Configuration -/

/-- A handle after a call that sets its configuration. -/
def SqlRDBHandle.configured (h : SqlRDBHandle σ) (cfg : SqlRDBConfig) :
    SqlRDBHandle σ :=
  { h with
    config := cfg,
    mutex := SqlRDBMutex.unlock (if cfg.threadsafe ≠ h.config.threadsafe
      then { h.mutex.lock with threadsafe := cfg.threadsafe } else h.mutex.lock) }

/-- The new configuration needs another table of buckets, for which there is no memory. -/
def SqlRDBHandle.resizeFails (h : SqlRDBHandle σ) (cfg : SqlRDBConfig) : Bool :=
  cfg.stmtCacheSize != h.config.stmtCacheSize && cfg.stmtCacheSize != 0 &&
    bucketCountFor cfg.stmtCacheSize != some h.cache.bucketCount && h.heap.fails h.heap.tick

/-- The driver and the allocator decide how a rebuild ends, and only a failing allocation makes it
fail. -/
theorem cacheRebuild_core (h : SqlRDBHandle σ) (n : ℕ) :
    wp (cacheRebuild d n) (fun r h' => ∀ code, r = some code → h'.core = h.core ∧
      (code ≠ .ok ↔ n ≠ 0 ∧ bucketCountFor n ≠ some h.cache.bucketCount ∧
        h.heap.fails h.heap.tick = true)) h := by
  simp only [cacheRebuild, wp_bind, wp_malloc, wp_get]
  have hcode := h.cache.rebuild_code n (!h.heap.fails h.heap.tick)
  generalize h.cache.rebuild n (!h.heap.fails h.heap.tick) = res at hcode ⊢
  rcases res with _ | ⟨r, cache, dropped⟩
  · rintro _ ⟨⟩
  · simp only [wp_bind, wp_set]
    refine wp_mono ((keepsCore_finalizeAll d dropped).wp _) fun _ h' hcore => ?_
    rintro _ ⟨⟩
    refine ⟨hcore, ?_⟩
    rw [hcode _ _ _ rfl]
    simp

theorem setConfig_refused {h : SqlRDBHandle σ} {cfg : Option SqlRDBConfig}
    (hc : h.valid = false ∨ cfg = none) : (sqlRDBSetConfig d cfg h).2 = h := by
  refine (?_ : wp (sqlRDBSetConfig d cfg) (fun _ h' => h' = h) h)
  simp only [sqlRDBSetConfig, wp_bind, wp_get, wp_ite]
  split
  · rfl
  · obtain hv | rfl := hc
    · simp_all
    · rfl

theorem setConfig_core {h : SqlRDBHandle σ} (hv : h.valid = true) (cfg : SqlRDBConfig) :
    wp (sqlRDBSetConfig d (some cfg)) (fun r h' => ∀ code, r = some code →
      (code ≠ .ok ∧ h.resizeFails cfg = true ∧ h'.core = h.core.locked.unlocked) ∨
        code = .ok ∧ h.resizeFails cfg = false ∧ h'.core = h.core.configured cfg) h := by
  simp only [sqlRDBSetConfig, wp_bind, wp_get, hv, Bool.not_true, Bool.false_eq_true, if_false,
    wp_mutexLock, wp_ite]
  split
  case isFalse hsame =>
    simp only [wp_bind, wp_modify, wp_mutexUnlock, wp_pure, if_true]
    rintro _ ⟨⟩
    refine .inr ⟨rfl, ?_, rfl⟩
    rw [ne_eq, not_not] at hsame
    simp [SqlRDBHandle.resizeFails, hsame]
  case isTrue hother =>
    have hfails : h.resizeFails cfg = true ↔ cfg.stmtCacheSize ≠ 0 ∧
        bucketCountFor cfg.stmtCacheSize ≠ some h.cache.bucketCount ∧
        h.heap.fails h.heap.tick = true := by
      simp [SqlRDBHandle.resizeFails, hother, and_assoc]
    refine wp_mono (cacheRebuild_core d { h with mutex := h.mutex.lock } _) fun r h' hr => ?_
    rcases r with _ | r
    · rintro _ ⟨⟩
    obtain ⟨hcore, hcode⟩ := hr r rfl
    simp only [wp_bind, wp_ite, wp_modify, wp_mutexUnlock, wp_pure]
    split
    case isTrue hok =>
      rintro _ ⟨⟩
      refine .inr ⟨hok, ?_, ?_⟩
      · rw [← Bool.not_eq_true, hfails, ← hcode]
        simpa using hok
      · exact congrArg (fun v : SqlRDBHandle Unit => { v with
          config := cfg,
          mutex := SqlRDBMutex.unlock (if cfg.threadsafe ≠ v.config.threadsafe
            then { v.mutex with threadsafe := cfg.threadsafe } else v.mutex) }) hcore
    case isFalse hne =>
      rintro _ ⟨⟩
      exact .inl ⟨hne, hfails.2 (hcode.1 hne), congrArg SqlRDBHandle.unlocked hcore⟩

end Calls

end C2Sql
