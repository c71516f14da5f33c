import C2Sql.Operations
import C2Sql.WriteMany

/-!
# Batches inside a transaction

Inside an explicit transaction `SqlRDBWriteMany` opens none of its own, and does what a sequence of
`SqlRDBWrite` calls does.

* `writeEach`: the rows of a batch, written one by one up to the first failure;
* `SqlRDBDriver.withTxn`: a driver with other transaction commands, to say that these are not used;
* `writeMany_nested_spec`, `writeEach_spec`: both execute the rows directly;
* `writeMany_eq_writeEach`: the two agree, for a batch that is not empty.
-/

namespace C2Sql

open StateLogic

variable {σ Db : Type}

/-- `SqlRDBWrite` for `k` rows from the `i`-th on, up to the first failure; `bitmapBytes` is the
length of a bitmap. -/
def writeEach (d : SqlRDBDriver σ) (name : CStr) (rows : Mem) (stride : ℕ)
    (nullMaps : Option Mem) (bitmapBytes : ℕ) : ℕ → ℕ → Api σ SqlRDBResult
  | 0, _ => pure .ok
  | k + 1, i => do
    let r ← sqlRDBWrite d (some name) (some (rows.at (i * stride)))
      (nullMaps.map fun m => m.at (i * bitmapBytes))
    if r ≠ .ok then pure r else writeEach d name rows stride nullMaps bitmapBytes k (i + 1)

/-! ## Drivers that differ in their transactions -/

/-- The driver with other transaction commands. -/
def SqlRDBDriver.withTxn (d : SqlRDBDriver σ) (begin commit rollback : StateM σ SqlRDBResult) :
    SqlRDBDriver σ :=
  { d with begin := begin, commit := commit, rollback := rollback }

section WithTxn

variable (d : SqlRDBDriver σ) (b c r : StateM σ SqlRDBResult)

theorem finalizeAll_withTxn (ids : List StmtId) :
    finalizeAll (d.withTxn b c r) ids = finalizeAll d ids := by
  induction ids with
  | nil => rfl
  | cons id ids ih =>
    rw [finalizeAll, finalizeAll, ih]
    rfl

theorem bindRowFrom_withTxn (stmt : StmtId) (row : Mem) (nullMap : Option Mem) (i : ℕ)
    (cols : List SqlRDBColumnDef) :
    bindRowFrom (d.withTxn b c r) stmt row nullMap i cols =
      bindRowFrom d stmt row nullMap i cols := by
  induction cols generalizing i with
  | nil => rfl
  | cons col cols ih =>
    rw [bindRowFrom, bindRowFrom]
    simp only [ih]
    rfl

theorem writeRows_withTxn (stmt : StmtId) (schema : SqlRDBSchema) (rows : Mem) (stride : ℕ)
    (nullMaps : Option Mem) (k i : ℕ) :
    writeRows (d.withTxn b c r) stmt schema rows stride nullMaps k i =
      writeRows d stmt schema rows stride nullMaps k i := by
  induction k generalizing i with
  | zero => rfl
  | succ k ih =>
    rw [writeRows, writeRows]
    simp only [ih, internalTmBindRow, bindRowFrom_withTxn]
    rfl

theorem openStmt_withTxn (who name : CStr) (spec : SqlRDBSchema → SqlRDBQuerySpec) :
    openStmt (d.withTxn b c r) who name spec = openStmt d who name spec := by
  unfold openStmt getOrPrepare cachePut
  simp only [finalizeAll_withTxn]
  rfl

end WithTxn

/-! ## The batch -/

/-- The engine refuses the write statement of a schema. -/
def Refused (dialect : C2SqlDialect) (e : Engine Db) (schema : SqlRDBSchema) : Prop :=
  dialect = .sqlite ∧ e.compiles (writeSql dialect schema) = false

/-- A batch has returned `r`: its rows have been executed directly, or the engine refuses its
statement. -/
structure BatchRun (dialect : C2SqlDialect) (e : Engine Db) (schema : SqlRDBSchema)
    (batch : List Binds) (h : SqlRDBHandle (Session Db)) (r : SqlRDBResult)
    (h' : SqlRDBHandle (Session Db)) : Prop where
  sound : CacheSound dialect e h'
  frame_eq : h'.frame = h.frame
  run_eq : ¬Refused dialect e schema →
    (r, h'.ctx.conn) = h.ctx.conn.runRows e (writeSql dialect schema) batch
  refused : Refused dialect e schema → batch ≠ [] → r = .errDriver ∧ h'.ctx.conn = h.ctx.conn

section Batch

variable {dialect : C2SqlDialect} {e : Engine Db} {h : SqlRDBHandle (Session Db)} {name : CStr}
  {schema : SqlRDBSchema}

/-- Without failing preparations and allocations, only the engine can refuse a write statement. -/
theorem Unprepared.refused {r : SqlRDBResult}
    (hu : Unprepared dialect e h (writeSpec dialect schema) r)
    (hfaults : ∀ k, h.ctx.conn.faults .prepare k = none) (hheap : ∀ k, h.heap.fails k = false) :
    r = .errDriver ∧ Refused dialect e schema := by
  obtain ⟨m, hbuild⟩ := internalQbBuild_writeSpec dialect schema
  obtain hb | ⟨sql, n, hb, hr, hc⟩ := hu hfaults hheap
  · cases hb.symm.trans hbuild
  · cases hb.symm.trans hbuild
    exact ⟨hr, hc⟩

/-- **A batch inside a transaction** is executed directly, unless its statement cannot be
prepared. -/
theorem writeMany_nested_spec (hs : CacheSound dialect e h) (hv : h.valid = true)
    (hlook : h.lookup name = some schema) (hwf : schema.WellFormed) (hd : h.txn.depth ≠ 0)
    (rows : Mem) {count stride : ℕ} (hcount : 0 < count) (hstride : 0 < stride)
    (nullMaps : Option Mem) :
    wp (sqlRDBWriteMany (driver dialect e) (some name) (some rows) count stride nullMaps)
      (fun r h' => CacheSound dialect e h' ∧ h'.frame = h.frame ∧
        ((¬Refused dialect e schema ∧ (r, h'.ctx.conn) = h.ctx.conn.runRows e
            (writeSql dialect schema) (batchBinds schema rows stride nullMaps count 0)) ∨
          (r ≠ .ok ∧ h'.ctx.conn = h.ctx.conn ∧
            Unprepared dialect e h (writeSpec dialect schema) r))) h := by
  have hargs : ¬(count = 0 ∨ stride = 0) := by omega
  simp only [sqlRDBWriteMany, wp_bind, wp_get, hv, Bool.not_true, Bool.false_eq_true, if_false,
    if_neg hargs, wp_mutexLock]
  refine wp_openStmt (h := { h with mutex := h.mutex.lock }) hs hlook _
    (fun r h' hr hs' hc hk hp => ?_) fun sql n id owned st h₁ hb hu hst hf hview => ?_
  · exact ⟨hs', hk, .inr ⟨hr, hc, hp⟩⟩
  · obtain ⟨m, hbuild⟩ := internalQbBuild_writeSpec dialect schema
    cases hb.build_eq.symm.trans hbuild
    have hconn : h₁.ctx.conn = h.ctx.conn := congrArg SqlRDBHandle.ctx hview
    have hframe : h₁.frame = h.frame := SqlRDBHandle.frame_of_view hview rfl
    have hdepth : h₁.txn.depth ≠ 0 := by
      rw [SqlRDBHandle.txn_of_frame hframe]
      exact hd
    rw [wp_bind, wp_get]
    simp only [hdepth, if_false, pure_bind, ne_eq, not_true_eq_false]
    rw [wp_bind, wp_drv]
    refine wp_mono (writeRows_spec schema rows stride nullMaps count 0 hst hf
      (countParams_writeSql dialect hwf)) fun r s₂ hrun => ?_
    rw [hconn] at hrun
    obtain ⟨rfl, st', rfl, hsql', hn'⟩ := hrun
    refine wp_close hu hsql' hn' _ fun h' hs' hc hk => ?_
    exact ⟨hs', hk.trans hframe, .inl ⟨hb.compiles, Prod.ext rfl hc⟩⟩

theorem writeMany_batchRun (hs : CacheSound dialect e h) (hv : h.valid = true)
    (hlook : h.lookup name = some schema) (hwf : schema.WellFormed) (hd : h.txn.depth ≠ 0)
    (hfaults : ∀ k, h.ctx.conn.faults .prepare k = none) (hheap : ∀ k, h.heap.fails k = false)
    (rows : Mem) {count stride : ℕ} (hcount : 0 < count) (hstride : 0 < stride)
    (nullMaps : Option Mem) :
    wp (sqlRDBWriteMany (driver dialect e) (some name) (some rows) count stride nullMaps)
      (BatchRun dialect e schema (batchBinds schema rows stride nullMaps count 0) h) h := by
  refine wp_mono
    (writeMany_nested_spec hs hv hlook hwf hd rows hcount hstride nullMaps) ?_
  rintro r h' ⟨hs', hframe, ⟨hcomp, hrun⟩ | ⟨-, hc, hp⟩⟩
  · exact ⟨hs', hframe, fun _ => hrun, fun h => absurd h hcomp⟩
  · obtain ⟨rfl, hrefused⟩ := hp.refused hfaults hheap
    exact ⟨hs', hframe, fun h => absurd hrefused h, fun _ _ => ⟨rfl, hc⟩⟩

/-- **The rows one by one** are executed directly as well. -/
theorem writeEach_spec (hs : CacheSound dialect e h) (hv : h.valid = true)
    (hlook : h.lookup name = some schema) (hwf : schema.WellFormed)
    (hfaults : ∀ k, h.ctx.conn.faults .prepare k = none) (hheap : ∀ k, h.heap.fails k = false)
    (rows : Mem) (stride : ℕ) (nullMaps : Option Mem) (k i : ℕ) :
    wp (writeEach (driver dialect e) name rows stride nullMaps
      (nullBitmapBytes schema.cols.length) k i)
      (BatchRun dialect e schema (batchBinds schema rows stride nullMaps k i) h) h := by
  induction k generalizing h i with
  | zero => exact ⟨hs, rfl, fun _ => rfl, fun _ h => absurd rfl h⟩
  | succ k ih =>
    rw [writeEach, wp_bind]
    refine wp_mono (write_spec hs hv hlook hwf _ _) ?_
    rintro r h₁ ⟨hs₁, hframe, ⟨hr, hc, hp⟩ | ⟨res, hcomp, hrun, rfl⟩⟩
    · obtain ⟨rfl, hrefused⟩ := hp.refused hfaults hheap
      rw [wp_ite, if_pos hr, wp_pure]
      exact ⟨hs₁, hframe, fun h => absurd hrefused h, fun _ _ => ⟨rfl, hc⟩⟩
    · have hfaults₁ : h₁.ctx.conn.faults = h.ctx.conn.faults := by
        have hkeep := (h.ctx.conn.runOnce_spec e (writeSql dialect schema)
          (rowBinds (rows.at (i * stride)) (nullMaps.map fun m =>
            m.at (i * nullBitmapBytes schema.cols.length)) 0 schema.cols)).1
        rwa [hrun] at hkeep
      cases res with
      | error r' =>
        have hne : r' ≠ .ok := Conn.runOnce_ne_ok (rowBinds_sound _ _ 0 _) (by rw [hrun])
        simp only [resultCode, ne_eq, hne, not_false_eq_true, if_true, wp_pure]
        refine ⟨hs₁, hframe, fun _ => ?_, fun h => absurd h hcomp⟩
        rw [batchBinds, Conn.runRows, hrun]
      | ok out =>
        simp only [resultCode, ne_eq, not_true_eq_false, if_false]
        refine wp_mono (ih hs₁ (by rwa [SqlRDBHandle.valid_of_frame hframe])
          (by rwa [SqlRDBHandle.lookup_of_frame hframe]) (by rwa [hfaults₁])
          (by rwa [SqlRDBHandle.fails_of_frame hframe]) (i + 1)) fun r h₂ hrest => ?_
        refine ⟨hrest.sound, hrest.frame_eq.trans hframe, fun h => ?_, fun h => absurd h hcomp⟩
        rw [batchBinds, Conn.runRows, hrun]
        exact hrest.run_eq h

/-- A batch inside a transaction uses no transaction command of its driver. -/
theorem writeMany_withTxn (hs : CacheSound dialect e h) (hv : h.valid = true)
    (hlook : h.lookup name = some schema) (hd : h.txn.depth ≠ 0) (rows : Mem) (count stride : ℕ)
    (nullMaps : Option Mem) (b c r : StateM (Session Db) SqlRDBResult) :
    sqlRDBWriteMany ((driver dialect e).withTxn b c r) (some name) (some rows) count stride
        nullMaps h =
      sqlRDBWriteMany (driver dialect e) (some name) (some rows) count stride nullMaps h := by
  have hget : (get : Api (Session Db) _) h = (h, h) := rfl
  have hlock : (mutexLock : Api (Session Db) _) h = ((), { h with mutex := h.mutex.lock }) :=
    mutexLock_eq h
  unfold sqlRDBWriteMany
  rw [bind_of_run hget, bind_of_run hget]
  simp only [hv, Bool.not_true, Bool.false_eq_true, if_false]
  by_cases hargs : count = 0 ∨ stride = 0
  · rw [if_pos hargs, if_pos hargs]
  · rw [if_neg hargs, if_neg hargs, bind_of_run hlock, bind_of_run hlock]
    simp only [openStmt_withTxn, writeRows_withTxn]
    apply bind_eq_of_wp
    refine wp_openStmt (h := { h with mutex := h.mutex.lock }) hs hlook _
      (fun r h' hr hs' hc hk hp => ?_) fun sql n id owned st h₁ hb hu hst hf hview => ?_
    · rfl
    · have hdepth : h₁.txn.depth ≠ 0 := by
        rw [SqlRDBHandle.txn_of_frame (h := h) (SqlRDBHandle.frame_of_view hview rfl)]
        exact hd
      have hget₁ : (get : Api (Session Db) _) h₁ = (h₁, h₁) := rfl
      dsimp only
      rw [bind_of_run hget₁, bind_of_run hget₁]
      simp only [hdepth, if_false]
      rfl

end Batch

/-! ## The batch and the single writes -/

/-- **A batch inside a transaction is the sequence of its writes**: it returns the code of the first
write that fails, leaves the connection as they do, and uses no transaction command. -/
theorem writeMany_eq_writeEach {dialect : C2SqlDialect} {e : Engine Db}
    {h : SqlRDBHandle (Session Db)} (hs : CacheSound dialect e h) (hv : h.valid = true)
    {name : CStr} {schema : SqlRDBSchema} (hlook : h.lookup name = some schema)
    (hacc : schema.Accepted) (hd : 1 ≤ h.txn.depth)
    (hfaults : ∀ k, h.ctx.conn.faults .prepare k = none) (hheap : ∀ k, h.heap.fails k = false)
    (rows : Mem) {count stride : ℕ} (hcount : 1 ≤ count) (hstride : 1 ≤ stride)
    (nullMaps : Option Mem) :
    let d := driver dialect e
    let many := sqlRDBWriteMany d (some name) (some rows) count stride nullMaps h
    let each := writeEach d name rows stride nullMaps (nullBitmapBytes schema.cols.length) count 0 h
    many.1 = each.1 ∧ many.2.ctx.conn = each.2.ctx.conn ∧ many.2.txn = h.txn ∧
      many.2.store.frames = h.store.frames ∧
      ∀ b c r, sqlRDBWriteMany (d.withTxn b c r) (some name) (some rows) count stride nullMaps h =
        many := by
  intro d many each
  have hwf := (SqlRDBSchema.accepted_iff schema).1 hacc
  have hmany : BatchRun dialect e schema (batchBinds schema rows stride nullMaps count 0) h
    many.1 many.2 := writeMany_batchRun hs hv hlook hwf (by omega) hfaults hheap rows hcount
      hstride nullMaps
  have heach : BatchRun dialect e schema (batchBinds schema rows stride nullMaps count 0) h
    each.1 each.2 := writeEach_spec hs hv hlook hwf hfaults hheap rows stride nullMaps count 0
  have hsame : (many.1, many.2.ctx.conn) = (each.1, each.2.ctx.conn) ∧
      many.2.store.frames = h.store.frames := by
    by_cases href : Refused dialect e schema
    · have hne : batchBinds schema rows stride nullMaps count 0 ≠ [] := by
        obtain ⟨k, rfl⟩ := Nat.exists_eq_add_of_le' hcount
        nofun
      obtain ⟨hr, hc⟩ := hmany.refused href hne
      obtain ⟨hr', hc'⟩ := heach.refused href hne
      exact ⟨by rw [hr, hc, hr', hc'], congrArg (fun c => c.store.frames) hc⟩
    · have hrun := hmany.run_eq href
      refine ⟨hrun.trans (heach.run_eq href).symm, ?_⟩
      have hframes := (h.ctx.conn.runRows_spec e (writeSql dialect schema)
        (sound_of_mem_batchBinds schema rows stride nullMaps count 0)).2.1
      rwa [← hrun] at hframes
  obtain ⟨hboth, hframes⟩ := hsame
  obtain ⟨hcode, hconn⟩ := Prod.ext_iff.1 hboth
  refine ⟨hcode, hconn, SqlRDBHandle.txn_of_frame hmany.frame_eq, hframes, fun b c r => ?_⟩
  exact writeMany_withTxn hs hv hlook (by omega) rows count stride nullMaps b c r

/-- The handle of the sample in a transaction, with a driver that fails at its second step. -/
def nestedHandle : SqlRDBHandle (Session (List (CStr × List SqlValue))) :=
  { journalHandle with
    txn := ⟨1, fun _ => []⟩
    ctx := { journalSession with conn :=
      ⟨⟨[], [⟨none, []⟩]⟩, 0,
        fun call k => if call = .step ∧ 5 < k then some .driver else none, 0⟩ } }

theorem cacheSound_nestedHandle (dialect : C2SqlDialect) :
    CacheSound dialect journal nestedHandle :=
  cacheSound_of_nil (SqlRDBStmtCache.represents_nil _ _)

/-- Three rows, of which the second fails. -/
theorem writeMany_eq_writeEach_sample :
    let many := sqlRDBWriteMany (driver .sqlite journal) (some (lit "persons")) (some fun _ => 0)
      3 48 none nestedHandle
    many.1 = .errDriver ∧ many.2.ctx.conn = (writeEach (driver .sqlite journal) (lit "persons")
      (fun _ => 0) 48 none (nullBitmapBytes personsSchema.cols.length) 3 0
        nestedHandle).2.ctx.conn := by
  have hlook : nestedHandle.lookup (lit "persons") = some personsSchema := by decide +kernel
  have hsame := writeMany_eq_writeEach (cacheSound_nestedHandle .sqlite) rfl hlook
    personsSchema_accepted (by decide) (fun _ => rfl) (fun _ => rfl) (fun _ => 0)
    (show 1 ≤ 3 by decide) (show 1 ≤ 48 by decide) none
  exact ⟨by decide +kernel, hsame.2.1⟩

/-- An empty batch is refused, although there is no write that fails. -/
theorem writeMany_empty_refused :
    nestedHandle.txn.depth = 1 ∧
      (sqlRDBWriteMany (driver .sqlite journal) (some (lit "persons")) (some fun _ => 0) 0 48 none
        nestedHandle).1 = .errInvalidArg ∧
      (writeEach (driver .sqlite journal) (lit "persons") (fun _ => 0) 48 none 1 0 0
        nestedHandle).1 = .ok := by
  decide +kernel

end C2Sql
