import C2Sql.Registration
import C2Sql.StoreSteps

/-!
# The last error

`SqlRDBLastError` returns the code of the error context. Some of the exits of a failed call set it,
others leave the code of an earlier failure there.

* `Call.Reports`: after a failed call `SqlRDBLastError` returns its code;
* `Call.Traced`: the call can only fail through exits that set the error context;
* `lastError_reports_iff`: these are the calls that report every failure.
-/

namespace C2Sql

open StateLogic

variable {σ α : Type}

/-- `SqlRDBLastError`: the code and the message. -/
def sqlRDBLastError (h : SqlRDBHandle σ) : SqlRDBResult × CStr :=
  if !h.valid then (.ok, []) else (h.error.code, h.error.message)

/-- If a computation has returned a negative code, `SqlRDBLastError` returns it. -/
def Tells (code : α → Option SqlRDBResult) (a : α) (h : SqlRDBHandle σ) : Prop :=
  ∀ r, code a = some r → r.code < 0 → (sqlRDBLastError h).1 = r

/-- A call that reports its failure. The calls on iterators, which are no calls on the handle, and
the calls that configure the handle are left out. -/
def Call.Reports (d : SqlRDBDriver σ) (w : Client σ) : Call → Prop
  | .stmtNext .. | .stmtFree .. | .setConfig .. | .setLogger .. => True
  | c => Tells Reply.code (c.exec d w).1 (c.exec d w).2.handle

/-- A call on a BLOB field fails for its struct, or for a column that is no BLOB. -/
def FieldTraced (lookup : CStr → Option SqlRDBSchema) (given : Bool) (name col : Option CStr) :
    Prop :=
  refuse lookup given name = some .errUnknownStruct ∨
    refuse lookup given name = none ∧ refuseColumn lookup name col = some .errInvalidArg

/-- The call can only fail through exits that set the error context: the struct of a registration
is refused, no struct has the name, a column is not a BLOB, or a transaction is begun or ended. -/
def Call.Traced (h : SqlRDBHandle σ) : Call → Prop
  | .registerStruct _ name cols => ∀ schema, checkSchema h.registry.entries name cols ≠ .ok schema
  | .write name row _ => refuse h.lookup row.isSome name = some .errUnknownStruct
  | .writeMany name rows n stride _ =>
    refuse h.lookup (rows.isSome && n != 0 && stride != 0) name = some .errUnknownStruct
  | .read name _ out _ => refuse h.lookup out.row.isSome name = some .errUnknownStruct
  | .readMany name _ hasOut => refuse h.lookup hasOut name = some .errUnknownStruct
  | .delete name cond _ => refuse h.lookup cond.isSome name = some .errUnknownStruct
  | .count name _ out => refuse h.lookup out.isSome name = some .errUnknownStruct
  | .commitTx | .rollbackTx => h.txn.depth ≠ 0
  | .writeBlobField name key col bytes =>
    FieldTraced h.lookup (key.isSome && col.isSome && bytes.isSome) name col
  | .readBlobField name key col out =>
    FieldTraced h.lookup (key.isSome && col.isSome && out.isSome) name col
  | _ => True

/-! ## Exits that set the error context -/

theorem tells_of_code {code : α → Option SqlRDBResult} {a : α} {h : SqlRDBHandle σ}
    (hv : h.valid = true) (hcode : code a = some h.error.code) : Tells code a h := by
  rintro r hr -
  cases hcode.symm.trans hr
  rw [sqlRDBLastError, hv]
  rfl

theorem TurnedAway.tells {g g' : SqlRDBHandle σ} {a b : α} {r : SqlRDBResult}
    {code : α → Option SqlRDBResult} (hv : g.valid = true) (hr : code a = some r)
    {P : SqlRDBErrorCtx → Prop} (hP : ∀ err, P err → err.code = r)
    (ht : TurnedAway g a P b g') : Tells code b g' := by
  obtain ⟨rfl, err, mutex, herr, rfl⟩ := ht
  refine tells_of_code hv ?_
  rw [hr, ← hP err herr]

theorem OpensStmt.tells {d : SqlRDBDriver σ} {g : SqlRDBHandle σ} {given : Bool}
    {name : Option CStr} {out : SqlRDBResult → α} {c : Api σ α} (hc : OpensStmt d given name out c)
    (code : α → Option SqlRDBResult) (hcode : ∀ r, code (out r) = some r) (hv : g.valid = true)
    (hr : refuse g.lookup given name = some .errUnknownStruct) : wp c (Tells code) g :=
  wp_mono (hc.turnedAway hv hr) fun _ _ => TurnedAway.tells hv (hcode _) fun _ herr => herr

theorem tells_ok {code : α → Option SqlRDBResult} {a : α} {h : SqlRDBHandle σ}
    (hok : code a = some .ok) : Tells code a h := by
  rintro r hr hneg
  cases hok.symm.trans hr
  exact absurd hneg (by decide)

theorem tells_beginTx (d : SqlRDBDriver σ) {h : SqlRDBHandle σ} (hv : h.valid = true) :
    wp (sqlRDBBeginTx d) (Tells some) h := by
  simp only [sqlRDBBeginTx, wp_bind, wp_get, hv, Bool.not_true, Bool.false_eq_true, if_false,
    wp_mutexLock, wp_ite]
  split
  · simp only [wp_errSet, wp_mutexUnlock, wp_pure]
    exact tells_of_code hv rfl
  · refine wp_mono ((keepsCore_beginCall d).wp _) fun r h₁ hcore => ?_
    have hv₁ : h₁.valid = true := (congrArg (fun v => v.magic == handleMagic) hcore).trans hv
    split
    · simp only [wp_errSet, wp_mutexUnlock, wp_pure]
      exact tells_of_code hv₁ rfl
    · simp only [wp_modify, wp_mutexUnlock, wp_pure]
      exact tells_ok rfl

theorem tells_endTx {who : CStr} {call : Api σ SqlRDBResult}
    (hcall : Keeps SqlRDBHandle.core call) {h : SqlRDBHandle σ} (hv : h.valid = true)
    (hdepth : h.txn.depth ≠ 0) : wp (endTx who call) (Tells some) h := by
  simp only [endTx, wp_bind, wp_get, hv, Bool.not_true, Bool.false_eq_true, if_false,
    wp_mutexLock, hdepth, wp_ite]
  refine wp_mono (hcall.wp _) fun r h₁ hcore => ?_
  have hv₁ : h₁.valid = true := (congrArg (fun v => v.magic == handleMagic) hcore).trans hv
  split
  · simp only [wp_errSet, wp_mutexUnlock, wp_pure]
    exact tells_of_code hv₁ rfl
  · simp only [wp_modify, wp_mutexUnlock, wp_pure]
    exact tells_ok rfl

/-- A failure has set the error context, and a success has left it alone. -/
def ErrorSet (err : SqlRDBErrorCtx) (r : SqlRDBResult) (h' : SqlRDBHandle σ) : Prop :=
  r = .ok ∧ h'.error = err ∨ r ≠ .ok ∧ h'.error.code = r

theorem registryGrow_errorSet (h : SqlRDBHandle σ) : wp registryGrow (ErrorSet h.error) h := by
  simp only [registryGrow, wp_bind, wp_get, wp_malloc, wp_ite, wp_errSet, wp_pure, wp_modify]
  split
  · exact .inr ⟨SqlRDBResult.noConfusion, rfl⟩
  · split <;> exact .inl ⟨rfl, rfl⟩

theorem appendEntry_errorSet (s : SqlRDBSchema) (h : SqlRDBHandle σ) :
    wp (appendEntry s) (ErrorSet h.error) h := by
  simp only [appendEntry, wp_bind, wp_malloc, wp_ite, wp_errSet, wp_pure, wp_modify]
  split
  · exact .inr ⟨SqlRDBResult.noConfusion, rfl⟩
  · refine wp_mono (mallocs_spec (s.cols.length + 1) { h with heap := h.heap.next }) ?_
    rintro colsOk h₂ ⟨⟨t, rfl⟩, -⟩
    split
    · exact .inr ⟨SqlRDBResult.noConfusion, rfl⟩
    · exact .inl ⟨rfl, rfl⟩

theorem internalSchemaRegister_errorSet {h : SqlRDBHandle σ} (hv : h.valid = true)
    (name : Option CStr) (cols : Option (List (Option SqlRDBColumnDef))) :
    wp (internalSchemaRegister name cols) (ErrorSet h.error) h := by
  simp only [internalSchemaRegister, wp_bind, wp_get, hv, Bool.not_true, Bool.false_eq_true,
    if_false]
  cases hcheck : checkSchema h.registry.entries name cols with
  | error e => exact .inr ⟨checkSchema_error_ne_ok hcheck, rfl⟩
  | ok schema =>
    rw [wp_ite]
    split
    · rw [wp_bind]
      refine wp_mono (registryGrow_errorSet h) fun r h₁ hgrow => ?_
      obtain ⟨rfl, hsame⟩ | ⟨hne, hcode⟩ := hgrow
      · rw [if_neg (not_not.2 rfl)]
        exact hsame ▸ appendEntry_errorSet schema h₁
      · rw [if_pos hne]
        exact .inr ⟨hne, hcode⟩
    · exact appendEntry_errorSet schema h

theorem tells_registerStruct (d : SqlRDBDriver σ) {h : SqlRDBHandle σ} (hv : h.valid = true)
    {fuel : ℕ} {name : Option CStr} {cols : Option (List (Option SqlRDBColumnDef))}
    (hcheck : ∀ schema, checkSchema h.registry.entries name cols ≠ .ok schema) :
    wp (sqlRDBRegisterStruct d fuel name cols) (Tells id) h := by
  by_cases hargs : RegisterArgs name cols
  · obtain ⟨name, cols, rfl, rfl, hcols⟩ := hargs
    have herr := internalSchemaRegister_errorSet (h := h.locked) hv (some name) (some cols)
    have hspec := internalSchemaRegister_spec h.locked hv (some name) (some cols)
    rw [wp] at herr hspec
    refine wp_registerStruct hv hcols ?_ fun h₁ schema _ hs => absurd hs (hcheck schema)
    intro r h₁ hres hne
    rw [hres] at herr hspec
    obtain ⟨_, _, hcore, -⟩ := hspec
    have hv₁ : h₁.unlocked.valid = true :=
      (congrArg (fun v => v.magic == handleMagic) hcore).trans hv
    obtain ⟨hok, -⟩ | ⟨-, hcode⟩ := herr
    · exact absurd hok hne
    · exact tells_of_code hv₁ (congrArg some hcode.symm)
  · exact wp_registerStruct_missing hv hargs fun _ => tells_of_code hv rfl

/-- A call that reads many rows looks for the same struct. -/
theorem lookupPtr_eq_none_iff {h : SqlRDBHandle σ} {name : CStr} :
    h.lookupPtr name = none ↔ h.lookup name = none := by
  rw [SqlRDBHandle.lookupPtr, SqlRDBHandle.lookup]
  split <;> simp

theorem refuse_eq_unknownStruct {lookup : CStr → Option SqlRDBSchema} {given : Bool}
    {name : Option CStr} (hr : refuse lookup given name = some .errUnknownStruct) :
    given = true ∧ ∃ n, name = some n ∧ lookup n = none := by
  cases name with
  | none => cases hr
  | some n =>
    rw [refuse] at hr
    split_ifs at hr with hgiven hlook
    · cases hr
    · exact ⟨Bool.eq_true_of_not_eq_false hgiven, n, rfl, hlook⟩

theorem tells_readMany (d : SqlRDBDriver σ) {h : SqlRDBHandle σ} (hv : h.valid = true)
    {name : Option CStr} {cond : Option SqlRDBCondition} {hasOut : Bool}
    (hr : refuse h.lookup hasOut name = some .errUnknownStruct) :
    wp (sqlRDBReadMany d name cond hasOut) (Tells fun a => some a.1) h := by
  obtain ⟨rfl, n, rfl, hlook⟩ := refuse_eq_unknownStruct hr
  have hptr : ({ h with mutex := h.mutex.lock } : SqlRDBHandle σ).lookupPtr n = none :=
    lookupPtr_eq_none_iff.2 hlook
  simp only [sqlRDBReadMany, wp_bind, wp_get, hv, Bool.not_true, Bool.false_eq_true, if_false,
    wp_mutexLock, hptr, wp_errSet, wp_mutexUnlock, wp_pure]
  exact tells_of_code hv rfl

theorem FieldTraced.refused {lookup : CStr → Option SqlRDBSchema} {given : Bool}
    {name col : Option CStr} (ht : FieldTraced lookup given name col) :
    ∃ r, (refuse lookup given name).or (refuseColumn lookup name col) = some r ∧
      ¬(refuse lookup given name = some .errInvalidArg ∨ r = .errUnknownColumn) := by
  obtain hr | ⟨hr, hcol⟩ := ht
  · exact ⟨_, by rw [hr]; rfl, by simp [hr]⟩
  · exact ⟨_, by rw [hr, hcol]; rfl, by simp [hr]⟩

/-- **A traced call reports its failure.** -/
theorem Call.Traced.reports {w : Client σ} (hv : w.handle.valid = true) {c : Call}
    (hc : c.Traced w.handle) (d : SqlRDBDriver σ) : c.Reports d w := by
  cases c with
  | registerStruct fuel name cols => exact tells_registerStruct d hv hc
  | write => exact write_opensStmt.tells some (fun _ => rfl) hv hc
  | writeMany => exact writeMany_opensStmt.tells some (fun _ => rfl) hv hc
  | read => exact read_opensStmt.tells (fun a => some a.1) (fun _ => rfl) hv hc
  | readMany => exact tells_readMany d hv hc
  | delete => exact delete_opensStmt.tells (fun a => some a.1) (fun _ => rfl) hv hc
  | count => exact count_opensStmt.tells (fun a => some a.1) (fun _ => rfl) hv hc
  | beginTx => exact tells_beginTx d hv
  | commitTx => exact tells_endTx (keepsCore_commitCall d) hv hc
  | rollbackTx => exact tells_endTx (keepsCore_rollbackCall d) hv hc
  | writeBlobField name key col bytes =>
    obtain ⟨r, hr, hne⟩ := FieldTraced.refused hc
    have htells : wp (sqlRDBWriteBlobField d name key col bytes) (Tells some) w.handle :=
      wp_mono (writeBlobField_turnedAway hv hr) fun _ _ ht =>
        ht.tells hv rfl fun _ herr => (if_neg hne).mp herr
    exact htells
  | readBlobField name key col out =>
    obtain ⟨r, hr, hne⟩ := FieldTraced.refused hc
    have htells : wp (sqlRDBReadBlobField d name key col out) (Tells fun a => some a.1) w.handle :=
      wp_mono (readBlobField_turnedAway hv hr) fun _ _ ht =>
        ht.tells hv rfl fun _ herr => (if_neg hne).mp herr
    exact htells
  | _ => trivial

/-! ## Exits that leave the error context alone -/

/-- A driver that executes texts and prepares none of them. -/
def refusing : SqlRDBDriver σ where
  dialect := .sqlite
  close := pure .ok
  exec _ := pure .ok
  prepare _ := pure (.errDriver, 0)
  bind _ _ _ := pure .errDriver
  step _ := pure (.errDriver, false)
  columnInt64 _ _ := pure (.errDriver, 0)
  columnInt32 _ _ := pure (.errDriver, 0)
  columnReal _ _ := pure (.errDriver, 0)
  columnText _ _ := pure (.errDriver, none)
  columnBlob _ _ := pure (.errDriver, none)
  columnIsnull _ _ := pure (.errDriver, false)
  reset _ := pure .errDriver
  finalize _ := pure .errDriver
  begin := pure .errDriver
  commit := pure .errDriver
  rollback := pure .errDriver
  savepoint _ := pure .errDriver
  releaseSp _ := pure .errDriver
  rollbackSp _ := pure .errDriver
  changes := pure 0

/-- A computation has returned a negative code without setting the error context. -/
def Silent (err : SqlRDBErrorCtx) (code : α → Option SqlRDBResult) (a : α) (h : SqlRDBHandle σ) :
    Prop :=
  ∃ r, code a = some r ∧ r.code < 0 ∧ h.error = err

theorem Silent.not_tells {err : SqlRDBErrorCtx} {code : α → Option SqlRDBResult} {a : α}
    {h : SqlRDBHandle σ} (hs : Silent err code a h) (herr : err.code = .ok) : ¬Tells code a h := by
  obtain ⟨r, hr, hneg, rfl⟩ := hs
  intro ht
  have hlast : (sqlRDBLastError h).1 = .ok := by
    rw [sqlRDBLastError]
    split
    · rfl
    · exact herr
  have hok : r = .ok := (ht r hr hneg).symm.trans hlast
  rw [hok] at hneg
  exact absurd hneg (by decide)

section Silent

variable {h : SqlRDBHandle σ} (hv : h.valid = true) (hheap : ∀ k, h.heap.fails k = false)

include hheap in
/-- A text is built for a statement that is not prepared. -/
theorem qbBuild_silent {spec : SqlRDBQuerySpec} {Q : Except SqlRDBResult (CStr × ℕ) →
      SqlRDBHandle σ → Prop}
    (herr : ∀ r, r.code < 0 → Q (.error r) { h with heap := h.heap.next })
    (hok : ∀ p, Q (.ok p) { h with heap := h.heap.next }) : wp (qbBuild spec) Q h := by
  simp only [qbBuild, wp_bind, wp_malloc, hheap, Bool.not_false, if_true, wp_pure]
  cases hb : internalQbBuild spec with
  | error r => exact herr r (internalQbBuild_negative hb)
  | ok p => exact hok p

include hheap in
/-- No statement is opened. -/
theorem openStmt_silent (hcache : h.cache = .zero) {who name : CStr} {schema : SqlRDBSchema}
    (spec : SqlRDBSchema → SqlRDBQuerySpec) (hlook : h.lookup name = some schema) :
    wp (openStmt refusing who name spec)
      (fun res h' => ∃ r, res = .error r ∧ r.code < 0 ∧ h'.error = h.error) h := by
  have hget (sql : CStr) : SqlRDBStmtCache.zero.get sql = (.errNotFound, none, .zero) := rfl
  simp only [openStmt, wp_bind, wp_get, hlook]
  refine qbBuild_silent hheap (fun r hneg => ?_) fun p => ?_
  · simp only [wp_bind, wp_mutexUnlock, wp_pure]
    exact ⟨r, rfl, hneg, trivial⟩
  · simp only [getOrPrepare, cacheGet, wp_bind, wp_get, hcache, hget, wp_pure, wp_drv, refusing,
      wp_ite, ne_eq, reduceCtorEq, not_false_eq_true, if_true, wp_mutexUnlock]
    exact ⟨.errDriver, rfl, by decide, trivial⟩

theorem refuse_eq_some {lookup : CStr → Option SqlRDBSchema} {given : Bool} {name : Option CStr}
    {r : SqlRDBResult} (hr : refuse lookup given name = some r) :
    r = .errInvalidArg ∨ r = .errUnknownStruct := by
  cases name with
  | none =>
    cases hr
    exact .inl rfl
  | some n =>
    rw [refuse] at hr
    split_ifs at hr <;> cases hr
    · exact .inl rfl
    · exact .inr rfl

include hv hheap in
theorem OpensStmt.silent {given : Bool} {name : Option CStr} {out : SqlRDBResult → α}
    {c : Api σ α} (hc : OpensStmt refusing given name out c) (hcache : h.cache = .zero)
    (code : α → Option SqlRDBResult) (hcode : ∀ r, code (out r) = some r)
    (hr : refuse h.lookup given name ≠ some .errUnknownStruct) :
    wp c (Silent h.error code) h := by
  cases hrefuse : refuse h.lookup given name with
  | some r =>
    obtain rfl | rfl := refuse_eq_some hrefuse
    · refine wp_mono (hc.turnedAway hv hrefuse) ?_
      rintro _ _ ⟨rfl, err, mutex, rfl, rfl⟩
      exact ⟨_, hcode _, by decide, rfl⟩
    · exact absurd hrefuse hr
  | none =>
    obtain ⟨hgiven, n, schema, rfl, hlook⟩ := refuse_eq_none hrefuse
    obtain ⟨who, spec, k, rfl, hk⟩ := hc.opened n rfl hgiven
    simp only [wp_onOpen out hv, wp_bind, wp_mutexLock]
    refine wp_mono (openStmt_silent (h := { h with mutex := h.mutex.lock }) hheap hcache spec
      hlook) ?_
    rintro _ h₁ ⟨r, rfl, hneg, herr⟩
    rw [hk, wp_pure]
    exact ⟨r, hcode r, hneg, herr⟩

include hv hheap in
theorem readMany_silent {name : Option CStr} {cond : Option SqlRDBCondition} {hasOut : Bool}
    (hr : refuse h.lookup hasOut name ≠ some .errUnknownStruct) :
    wp (sqlRDBReadMany refusing name cond hasOut) (Silent h.error fun a => some a.1) h := by
  simp only [sqlRDBReadMany, wp_bind, wp_get, hv, Bool.not_true, Bool.false_eq_true, if_false]
  split
  case h_2 => exact ⟨.errInvalidArg, rfl, by decide, rfl⟩
  case h_1 n =>
    simp only [wp_bind, wp_mutexLock, wp_get]
    cases hptr : ({ h with mutex := h.mutex.lock } : SqlRDBHandle σ).lookupPtr n with
    | none =>
      have hlook : h.lookup n = none := lookupPtr_eq_none_iff.1 hptr
      simp [refuse, hlook] at hr
    | some ptr =>
      dsimp only
      rw [wp_bind]
      refine qbBuild_silent (h := { h with mutex := h.mutex.lock }) hheap (fun r hneg => ?_)
        fun p => ?_
      · simp only [wp_bind, wp_mutexUnlock, wp_pure]
        exact ⟨r, rfl, hneg, rfl⟩
      · simp only [wp_bind, wp_drv, refusing, wp_pure, wp_ite, ne_eq, reduceCtorEq,
          not_false_eq_true, if_true, wp_mutexUnlock]
        exact ⟨.errDriver, rfl, by decide, rfl⟩

/-- A call on a BLOB field that is not traced is not refused, or refused without a trace. -/
theorem refused_of_not_fieldTraced {lookup : CStr → Option SqlRDBSchema} {given : Bool}
    {name col : Option CStr} (ht : ¬FieldTraced lookup given name col) {r : SqlRDBResult}
    (hr : (refuse lookup given name).or (refuseColumn lookup name col) = some r) :
    (refuse lookup given name = some .errInvalidArg ∨ r = .errUnknownColumn) ∧ r.code < 0 := by
  rw [FieldTraced, not_or, not_and] at ht
  cases hrefuse : refuse lookup given name with
  | some r' =>
    rw [hrefuse, Option.some_or] at hr
    cases hr
    obtain rfl | rfl := refuse_eq_some hrefuse
    · exact ⟨.inl rfl, by decide⟩
    · exact absurd hrefuse ht.1
  | none =>
    rw [hrefuse, Option.none_or] at hr
    have hne := ht.2 hrefuse
    unfold refuseColumn at hr hne
    split at hr
    case h_2 => cases hr
    case h_1 schema col hlook =>
      split at hr
      case h_1 hcol =>
        cases hr
        exact ⟨.inr rfl, by decide⟩
      case h_2 c hcol =>
        split_ifs at hr with htype
        simp [hlook, hcol, htype] at hne

include hheap in
theorem countMatchingRows_silent {schema : SqlRDBSchema} {col : CStr} {cond : SqlRDBCondition} :
    wp (countMatchingRows refusing schema col cond)
      (fun a h' => a.1.code < 0 ∧ h'.error = h.error) h := by
  simp only [countMatchingRows, wp_bind]
  refine qbBuild_silent hheap (fun r hneg => ⟨hneg, rfl⟩) fun p => ?_
  simp only [wp_bind, wp_drv, refusing, wp_pure, wp_ite, ne_eq, reduceCtorEq, not_false_eq_true,
    if_true]
  exact ⟨by decide, trivial⟩

theorem ne_ok_of_negative {r : SqlRDBResult} (hneg : r.code < 0) : r ≠ .ok := by
  rintro rfl
  exact absurd hneg (by decide)

include hv hheap in
theorem writeBlobField_silent {name col : Option CStr} {key : Option SqlRDBCondition}
    {bytes : Option (List UInt8)}
    (ht : ¬FieldTraced h.lookup (key.isSome && col.isSome && bytes.isSome) name col) :
    wp (sqlRDBWriteBlobField refusing name key col bytes) (Silent h.error some) h := by
  cases hr : (refuse h.lookup (key.isSome && col.isSome && bytes.isSome) name).or
      (refuseColumn h.lookup name col) with
  | some r =>
    obtain ⟨hsilent, hneg⟩ := refused_of_not_fieldTraced ht hr
    refine wp_mono (writeBlobField_turnedAway hv hr) ?_
    rintro _ _ ⟨rfl, err, mutex, herr, rfl⟩
    exact ⟨_, rfl, hneg, (if_pos hsilent).mp herr⟩
  | none =>
    obtain ⟨name, schema, key, col, bytes, c, rfl, rfl, rfl, rfl, hlook, hcol, htype⟩ :=
      field_of_refusal hr
    have hlook₁ : ({ h with mutex := h.mutex.lock } : SqlRDBHandle σ).lookup name = some schema :=
      hlook
    simp only [sqlRDBWriteBlobField, wp_bind, wp_get, hv, Bool.not_true, Bool.false_eq_true,
      if_false, wp_mutexLock, hlook₁, hcol, htype, ne_eq, not_true_eq_false]
    refine wp_mono (countMatchingRows_silent (h := { h with mutex := h.mutex.lock }) hheap) ?_
    rintro ⟨r, n⟩ h₁ ⟨hneg, herr⟩
    rw [if_pos (ne_ok_of_negative hneg), wp_bind, wp_mutexUnlock, wp_pure]
    exact ⟨r, rfl, hneg, herr⟩

include hv hheap in
theorem readBlobField_silent {name col : Option CStr} {key : Option SqlRDBCondition}
    {out : Option (Option (List UInt8))}
    (ht : ¬FieldTraced h.lookup (key.isSome && col.isSome && out.isSome) name col) :
    wp (sqlRDBReadBlobField refusing name key col out) (Silent h.error fun a => some a.1) h := by
  cases hr : (refuse h.lookup (key.isSome && col.isSome && out.isSome) name).or
      (refuseColumn h.lookup name col) with
  | some r =>
    obtain ⟨hsilent, hneg⟩ := refused_of_not_fieldTraced ht hr
    refine wp_mono (readBlobField_turnedAway hv hr) ?_
    rintro _ _ ⟨rfl, err, mutex, herr, rfl⟩
    exact ⟨_, rfl, hneg, (if_pos hsilent).mp herr⟩
  | none =>
    obtain ⟨name, schema, key, col, old, c, rfl, rfl, rfl, rfl, hlook, hcol, htype⟩ :=
      field_of_refusal hr
    have hlook₁ : ({ h with mutex := h.mutex.lock } : SqlRDBHandle σ).lookup name = some schema :=
      hlook
    simp only [sqlRDBReadBlobField, wp_bind, wp_get, hv, Bool.not_true, Bool.false_eq_true,
      if_false, wp_mutexLock, hlook₁, hcol, htype, ne_eq, not_true_eq_false]
    refine qbBuild_silent (h := { h with mutex := h.mutex.lock }) hheap (fun r hneg => ?_)
      fun p => ?_
    · simp only [wp_bind, wp_mutexUnlock, wp_pure]
      exact ⟨r, rfl, hneg, rfl⟩
    · simp only [wp_bind, wp_drv, refusing, wp_pure, wp_ite, reduceCtorEq, not_false_eq_true,
        if_true, wp_mutexUnlock]
      exact ⟨.errDriver, rfl, by decide, rfl⟩

include hheap in
/-- The layout of the table cannot be read. -/
theorem internalMigrateTable_silent {fuel : ℕ} {schema : SqlRDBSchema} :
    wp (internalMigrateTable refusing fuel schema)
      (fun res h' => res = some .errDriver ∧ h'.error = h.error) h := by
  simp only [internalMigrateTable, qbBuild, internalQbBuild, readExisting, readTableInfo, wp_bind,
    wp_malloc, hheap, Bool.not_false, if_true, wp_pure, wp_drv, refusing, wp_ite, ne_eq,
    reduceCtorEq, not_true_eq_false, not_false_eq_true, if_false]
  trivial

theorem keepsError_internalSchemaUnregister (name : CStr) :
    Keeps SqlRDBHandle.error (internalSchemaUnregister name : Api σ _) := by
  refine .of_wp fun h => ?_
  simp only [internalSchemaUnregister, wp_bind, wp_get, wp_ite]
  split
  · rfl
  · split <;> rfl

include hv hheap in
theorem registerStruct_silent {fuel : ℕ} {name : Option CStr}
    {cols : Option (List (Option SqlRDBColumnDef))} {schema : SqlRDBSchema}
    (hcheck : checkSchema h.registry.entries name cols = .ok schema) :
    wp (sqlRDBRegisterStruct refusing fuel name cols) (Silent h.error id) h := by
  have hargs : RegisterArgs name cols := by
    by_contra hargs
    have hbad : (checkSchema h.registry.entries name cols).isOk = false :=
      checkSchema_of_missing hargs
    rw [hcheck] at hbad
    cases hbad
  obtain ⟨name, cols, rfl, rfl, hcols⟩ := hargs
  have hok := (internalSchemaRegister_ok_iff (h := h.locked) hv hheap (some name) (some cols)).2
    ⟨schema, hcheck⟩
  have herr := internalSchemaRegister_errorSet (h := h.locked) hv (some name) (some cols)
  have hspec := internalSchemaRegister_spec h.locked hv (some name) (some cols)
  rw [wp] at herr hspec
  refine wp_registerStruct hv hcols ?_ ?_
  · intro r h₁ hres hne
    rw [hres] at hok
    exact absurd hok hne
  · intro h₁ schema' hres _
    rw [hres] at herr hspec
    obtain ⟨_, _, hcore, -⟩ := hspec
    have hheap₁ : ∀ k, h₁.heap.fails k = false := by
      have hfails : h₁.heap.fails = h.heap.fails := congrArg (fun v => v.heap.fails) hcore
      rw [hfails]
      exact hheap
    obtain ⟨-, herr₁⟩ | ⟨hne, -⟩ := herr
    · refine wp_mono (internalMigrateTable_silent hheap₁) ?_
      rintro _ h₂ ⟨rfl, herr₂⟩
      refine ⟨?_, ?_, ?_⟩
      · rintro ⟨⟩
      · rintro ⟨⟩
      · rintro r ⟨⟩ -
        refine ⟨.errDriver, rfl, by decide, ?_⟩
        exact ((keepsError_internalSchemaUnregister name h₂).trans herr₂).trans herr₁
    · exact absurd rfl hne

include hv in
theorem endTx_silent {who : CStr} {call : Api σ SqlRDBResult} (hdepth : h.txn.depth = 0) :
    wp (endTx who call) (Silent h.error some) h := by
  simp only [endTx, wp_bind, wp_get, hv, Bool.not_true, Bool.false_eq_true, if_false,
    wp_mutexLock, hdepth, if_true, wp_mutexUnlock, wp_pure]
  exact ⟨.errNoActiveTx, rfl, by decide, rfl⟩

end Silent

/-- **A call that is not traced may fail in silence.** -/
theorem not_reports_of_not_traced {w : Client σ} (hv : w.handle.valid = true)
    (hheap : ∀ k, w.handle.heap.fails k = false) (hcache : w.handle.cache = .zero)
    (herr : w.handle.error.code = .ok) {c : Call} (hc : ¬c.Traced w.handle) :
    ¬c.Reports refusing w := by
  cases c with
  | registerStruct fuel name cols =>
    obtain ⟨schema, hcheck⟩ := not_forall_not.1 hc
    exact (registerStruct_silent hv hheap hcheck).not_tells herr
  | write => exact (write_opensStmt.silent hv hheap hcache some (fun _ => rfl) hc).not_tells herr
  | writeMany =>
    exact (writeMany_opensStmt.silent hv hheap hcache some (fun _ => rfl) hc).not_tells herr
  | read =>
    exact (read_opensStmt.silent hv hheap hcache (fun a => some a.1) (fun _ => rfl) hc).not_tells
      herr
  | readMany => exact (readMany_silent hv hheap hc).not_tells herr
  | delete =>
    exact (delete_opensStmt.silent hv hheap hcache (fun a => some a.1) (fun _ => rfl) hc).not_tells
      herr
  | count =>
    exact (count_opensStmt.silent hv hheap hcache (fun a => some a.1) (fun _ => rfl) hc).not_tells
      herr
  | commitTx => exact (endTx_silent hv (not_not.1 hc)).not_tells herr
  | rollbackTx => exact (endTx_silent hv (not_not.1 hc)).not_tells herr
  | writeBlobField => exact (writeBlobField_silent hv hheap hc).not_tells herr
  | readBlobField => exact (readBlobField_silent hv hheap hc).not_tells herr
  | _ => exact absurd trivial hc

/-- **The calls that report every failure.** With an allocator that does not fail, a call reports
its failure for every driver, every content of the cache and every earlier error exactly if it is
traced. After every run a traced call reports its failure, whatever the allocator does. -/
theorem lastError_reports_iff (d : SqlRDBDriver σ) {w : Client σ} (hv : w.handle.valid = true) :
    ((∀ k, w.handle.heap.fails k = false) → ∀ c : Call,
      (∀ d' cache error, c.Reports d'
        { w with handle := { w.handle with cache := cache, error := error } }) ↔
        c.Traced w.handle) ∧
    ∀ cs, Returns d cs w → ∀ c : Call, c.Traced (run d cs w).2.handle →
      c.Reports d (run d cs w).2 := by
  refine ⟨fun hheap c => ⟨fun hall => ?_, fun hc d' cache error => ?_⟩, fun cs hret c hc => ?_⟩
  · by_contra hc
    refine not_reports_of_not_traced (w := { w with handle :=
      { w.handle with cache := .zero, error := ⟨.ok, []⟩ } }) hv hheap rfl rfl (fun ht => hc ?_)
      (hall refusing .zero ⟨.ok, []⟩)
    cases c <;> exact ht
  · refine Call.Traced.reports (w := { w with handle :=
      { w.handle with cache := cache, error := error } }) hv ?_ d'
    cases c <;> exact hc
  · exact Call.Traced.reports (valid_run d hv hret) hc d

/-- A transaction is begun, and a struct that is not registered is read. -/
theorem lastError_reports_sample :
    let w : Client (Session (List (CStr × List SqlValue))) := ⟨journalHandle, []⟩
    let w' := (run (driver .sqlite journal) [.beginTx] w).2
    let read : Call := .read (some (lit "ghosts")) none ⟨some ⟨8, fun _ => 0, false⟩, none⟩ none
    (read.exec (driver .sqlite journal) w').1.code = some .errUnknownStruct ∧
      (sqlRDBLastError (read.exec (driver .sqlite journal) w').2.handle).1 =
        .errUnknownStruct := by
  intro w w' read
  have hcode : (read.exec (driver .sqlite journal) w').1.code = some .errUnknownStruct := by
    decide +kernel
  have htraced : read.Traced w'.handle := by
    change refuse w'.handle.lookup true (some (lit "ghosts")) = some .errUnknownStruct
    decide +kernel
  have hreports : read.Reports (driver .sqlite journal) w' :=
    (lastError_reports_iff (driver .sqlite journal) (w := w) rfl).2 [.beginTx] (by decide +kernel)
      read htraced
  exact ⟨hcode, hreports _ hcode (by decide)⟩

/-- The code of an earlier failure is returned after a commit without a transaction, and nothing
is returned after a row with a NULL in a column that may not be NULL. -/
theorem lastError_stale :
    let w : Client (Session (List (CStr × List SqlValue))) := ⟨journalHandle, []⟩
    let d := driver .sqlite journal
    let deleted := (Call.delete (some (lit "ghosts")) (some .all) none).exec d w
    let committed := Call.commitTx.exec d deleted.2
    let written :=
      (Call.write (some (lit "persons")) (some fun _ => 0) (some fun _ => 255)).exec d w
    deleted.1.code = some .errUnknownStruct ∧ committed.1.code = some .errNoActiveTx ∧
      (sqlRDBLastError committed.2.handle).1 = .errUnknownStruct ∧
      written.1.code = some .errNotNullViolation ∧ (sqlRDBLastError written.2.handle).1 = .ok := by
  decide +kernel

end C2Sql
