import C2Sql.Api.Handles

/-!
# Runs of calls

The program of a client of the library: a handle, the iterators that are open on it, and the public
calls that the client makes one after the other.

* `Call`: a public call with its arguments;
* `Call.exec`: what a call does;
* `run`: the calls of a list in turn, up to the first that does not return;
* `run_invariant`: what every call keeps holds after every run.
-/

namespace C2Sql

variable {σ : Type}

/-- A handle with its open iterators, the oldest one first. -/
structure Client (σ : Type) where
  handle : SqlRDBHandle σ
  iterators : List SqlRDBStmt

/-- A public call on an open handle. An iterator is named by its place among the open ones; the
place of none is a null pointer. -/
inductive Call
  | registerStruct (fuel : ℕ) (structName : Option CStr)
      (cols : Option (List (Option SqlRDBColumnDef)))
  | write (structName : Option CStr) (row nullMap : Option Mem)
  | writeMany (structName : Option CStr) (rows : Option Mem) (count stride : ℕ)
      (nullMaps : Option Mem)
  | read (structName : Option CStr) (cond : Option SqlRDBCondition) (out : ReadOut)
      (opts : Option SqlRDBReadOpts)
  | readMany (structName : Option CStr) (cond : Option SqlRDBCondition) (hasOut : Bool)
  | stmtNext (i : ℕ) (out : ReadOut)
  | stmtFree (i : ℕ)
  | delete (structName : Option CStr) (cond : Option SqlRDBCondition) (outDeleted : Option ℕ)
  | count (structName : Option CStr) (cond : Option SqlRDBCondition) (outCount : Option ℕ)
  | beginTx
  | commitTx
  | rollbackTx
  | writeBlobField (structName : Option CStr) (key : Option SqlRDBCondition)
      (colName : Option CStr) (bytes : Option (List UInt8))
  | readBlobField (structName : Option CStr) (key : Option SqlRDBCondition)
      (colName : Option CStr) (out : Option (Option (List UInt8)))
  | setConfig (cfg : Option SqlRDBConfig)
  | setLogger (logger : SqlRDBLoggerCtx)

/-- What a call leaves in the variables that its caller passed. -/
inductive Output
  | nothing
  | row (out : ReadOut)
  | number (n : Option ℕ)
  | blob (bytes : Option (Option (List UInt8)))

/-- The result of a call and its output; the result is `none` where the call does not return. -/
structure Reply where
  code : Option SqlRDBResult
  output : Output

/-- A call of the library on the handle of a client. -/
def onHandle {α : Type} (c : Api σ α) : StateM (Client σ) α := fun w =>
  let (a, h) := c w.handle
  (a, { w with handle := h })

/-- A call without output. -/
def coded (c : Api σ SqlRDBResult) : StateM (Client σ) Reply := do
  let r ← onHandle c
  pure ⟨some r, .nothing⟩

/-- A call without output that may not return. -/
def codedOption (c : Api σ (Option SqlRDBResult)) : StateM (Client σ) Reply := do
  let r ← onHandle c
  pure ⟨r, .nothing⟩

/-- A call with an output. -/
def withOutput {α : Type} (f : α → Output) (c : Api σ (SqlRDBResult × α)) :
    StateM (Client σ) Reply := do
  let (r, a) ← onHandle c
  pure ⟨some r, f a⟩

/-- One call. -/
def Call.exec (d : SqlRDBDriver σ) : Call → StateM (Client σ) Reply
  | registerStruct fuel name cols => codedOption (sqlRDBRegisterStruct d fuel name cols)
  | write name row nullMap => coded (sqlRDBWrite d name row nullMap)
  | writeMany name rows n stride nullMaps => coded (sqlRDBWriteMany d name rows n stride nullMaps)
  | read name cond out opts => withOutput .row (sqlRDBRead d name cond out opts)
  | readMany name cond hasOut => do
    let (r, stmt) ← onHandle (sqlRDBReadMany d name cond hasOut)
    modify fun w => { w with iterators := w.iterators ++ stmt.toList }
    pure ⟨some r, .nothing⟩
  | stmtNext i out => do
    let w ← get
    withOutput .row (sqlRDBStmtNext d w.iterators[i]? out)
  | stmtFree i => do
    let w ← get
    let r ← onHandle (sqlRDBStmtFree d w.iterators[i]?)
    modify fun w => { w with iterators := w.iterators.eraseIdx i }
    pure ⟨some r, .nothing⟩
  | delete name cond out => withOutput .number (sqlRDBDelete d name cond out)
  | count name cond out => withOutput .number (sqlRDBCount d name cond out)
  | beginTx => coded (sqlRDBBeginTx d)
  | commitTx => coded (sqlRDBCommitTx d)
  | rollbackTx => coded (sqlRDBRollbackTx d)
  | writeBlobField name key col bytes => coded (sqlRDBWriteBlobField d name key col bytes)
  | readBlobField name key col out => withOutput .blob (sqlRDBReadBlobField d name key col out)
  | setConfig cfg => codedOption (sqlRDBSetConfig d cfg)
  | setLogger logger => coded (sqlRDBSetLogger logger)

/-- The replies to a list of calls; a call that does not return is the last one. -/
def run (d : SqlRDBDriver σ) : List Call → StateM (Client σ) (List Reply)
  | [] => pure []
  | c :: cs => do
    let reply ← c.exec d
    if reply.code.isNone then pure [reply]
    else
      let replies ← run d cs
      pure (reply :: replies)

/-! ## Invariants of runs -/

/-- A condition on the calls of a run, each in the state in which it is made. -/
def Along (d : SqlRDBDriver σ) (P : Client σ → Call → Prop) : Client σ → List Call → Prop
  | _, [] => True
  | w, c :: cs => P w c ∧ Along d P (c.exec d w).2 cs

instance Along.decidable (d : SqlRDBDriver σ) (P : Client σ → Call → Prop)
    [∀ w c, Decidable (P w c)] : ∀ w cs, Decidable (Along d P w cs)
  | _, [] => isTrue trivial
  | w, c :: cs =>
    have := Along.decidable d P (c.exec d w).2 cs
    inferInstanceAs (Decidable (P w c ∧ Along d P (c.exec d w).2 cs))

theorem along_true {d : SqlRDBDriver σ} {w : Client σ} (cs : List Call) :
    Along d (fun _ _ => True) w cs := by
  induction cs generalizing w with
  | nil => exact trivial
  | cons c cs ih => exact ⟨trivial, ih⟩

/-- Every call of the run returns. -/
def Returns (d : SqlRDBDriver σ) (cs : List Call) (w : Client σ) : Prop :=
  ∀ reply ∈ (run d cs w).1, reply.code.isSome

instance (d : SqlRDBDriver σ) (cs : List Call) (w : Client σ) : Decidable (Returns d cs w) :=
  inferInstanceAs (Decidable (∀ reply ∈ (run d cs w).1, reply.code.isSome = true))

theorem returns_cons {d : SqlRDBDriver σ} {c : Call} {cs : List Call} {w : Client σ}
    (h : Returns d (c :: cs) w) :
    (c.exec d w).1.code.isSome ∧ Returns d cs (c.exec d w).2 ∧
      (run d (c :: cs) w).2 = (run d cs (c.exec d w).2).2 := by
  have hrun : run d (c :: cs) w = if (c.exec d w).1.code.isNone then
      ([(c.exec d w).1], (c.exec d w).2)
    else ((c.exec d w).1 :: (run d cs (c.exec d w).2).1, (run d cs (c.exec d w).2).2) := by
    change (if (c.exec d w).1.code.isNone then pure [(c.exec d w).1]
      else do
        let replies ← run d cs
        pure ((c.exec d w).1 :: replies) : StateM (Client σ) (List Reply)) (c.exec d w).2 = _
    split <;> rfl
  rw [Returns, hrun] at h
  split at h
  case isTrue hnone =>
    have hsome := h _ (List.mem_singleton_self _)
    rw [Option.isNone_iff_eq_none.1 hnone] at hsome
    cases hsome
  case isFalse hret =>
    rw [hrun, if_neg hret]
    exact ⟨h _ (List.mem_cons_self ..), fun r hr => h r (List.mem_cons_of_mem _ hr), rfl⟩

/-- **The invariant rule.** What every call keeps holds after every run. -/
theorem run_invariant {d : SqlRDBDriver σ} {P : Client σ → Call → Prop} {I : Client σ → Prop}
    (hstep : ∀ w c, I w → P w c → (c.exec d w).1.code.isSome → I (c.exec d w).2)
    {cs : List Call} {w : Client σ} (hw : I w) (hP : Along d P w cs) (hret : Returns d cs w) :
    I (run d cs w).2 := by
  induction cs generalizing w with
  | nil => exact hw
  | cons c cs ih =>
    obtain ⟨hc, hret, hrun⟩ := returns_cons hret
    rw [hrun]
    exact ih (hstep w c hw hP.1 hc) hP.2 hret

/-- A condition on the state after each call of a run, up to the first one that does not return. -/
def AfterEach (d : SqlRDBDriver σ) (P : Client σ → Prop) : Client σ → List Call → Prop
  | _, [] => True
  | w, c :: cs => (c.exec d w).1.code.isSome → P (c.exec d w).2 ∧ AfterEach d P (c.exec d w).2 cs

/-- What every call keeps holds after each of them. -/
theorem afterEach_of_invariant {d : SqlRDBDriver σ} {I P : Client σ → Prop}
    (hstep : ∀ w (c : Call), I w → (c.exec d w).1.code.isSome → I (c.exec d w).2)
    (himp : ∀ w, I w → P w) {w : Client σ} (hw : I w) (cs : List Call) : AfterEach d P w cs := by
  induction cs generalizing w with
  | nil => exact trivial
  | cons c cs ih =>
    intro hret
    have hnext : I (c.exec d w).2 := hstep w c hw hret
    exact ⟨himp _ hnext, ih hnext⟩

end C2Sql
