import C2Sql.StoreRefinement

/-!
# Runs of the store

What one step of the store can do to its tables and its transactions, and what follows for every run
of calls on a handle.

* `Moves`: a step leaves everything alone, changes the table of one struct, opens, closes or rewinds
  a transaction;
* `StoreRun.invariant`: what every step of a run keeps is kept by the run;
* `tables_isolated`: the table of a struct that no call of a run writes is the same after it.
-/

namespace C2Sql

open SnapshotStack SqlText StateLogic

variable {dialect : C2SqlDialect} {sem : SqlSemantics} {lookup : CStr → Option SqlRDBSchema}
  {calm : Prop} {s s' : Model} {c : Call} {reply : Reply}

/-! ## What a step can do -/

/-- The struct whose rows a call may change. -/
def Call.target : Call → Option CStr
  | .write name _ _ => name
  | .writeMany name _ _ _ _ => name
  | .delete name _ _ => name
  | .writeBlobField name _ _ _ => name
  | _ => none

/-- What a step does to the tables and the open transactions. -/
inductive Moves (sem : SqlSemantics) (lookup : CStr → Option SqlRDBSchema) (s : Model) (c : Call)
    (s' : Model) : Prop
  | stays (hstore : s'.store = s.store)
  | writes {name : CStr} {schema : SqlRDBSchema} (htarget : c.target = some name)
      (hlook : lookup name = some schema)
      (hdb : ∀ n, n ≠ sem.fold schema.name → s'.db n = s.db n)
      (hframes : s'.store.frames = s.store.frames)
  | begins (name : Option CStr) (hdb : s'.db = s.db)
      (hframes : s'.store.frames = ⟨name, s.db⟩ :: s.store.frames)
  | commits {f : Frame CStr (Catalog SqlValue)} (hdb : s'.db = s.db)
      (hframes : s.store.frames = f :: s'.store.frames)
  | rewinds {f : Frame CStr (Catalog SqlValue)} {fs : List (Frame CStr (Catalog SqlValue))}
      (hc : c = .rollbackTx) (hframes : s.store.frames = f :: fs) (hdb : s'.db = f.saved)
      (hframes' : s'.store.frames = fs ∨ s'.store.frames = f :: fs)

theorem executed_frame {schema : SqlRDBSchema} {binds : Binds} {db : Catalog SqlValue}
    {res : Result SqlValue} (h : executed sem schema binds db = some res) {n : CStr}
    (hn : n ≠ sem.fold schema.name) : res.db n = db n := by
  obtain ⟨-, vs, -, hexec⟩ := executed_eq_some_iff.1 h
  exact Semantics.exec_frame hexec hn

theorem writeBatch_frame {schema : SqlRDBSchema} {batch : List Binds} {db db' : Catalog SqlValue}
    {all : Bool} (h : writeBatch sem schema batch db = (all, db')) {n : CStr}
    (hn : n ≠ sem.fold schema.name) : db' n = db n := by
  induction batch generalizing db with
  | nil =>
    cases h
    rfl
  | cons binds batch ih =>
    rw [writeBatch] at h
    cases hex : executed sem schema binds db with
    | none =>
      rw [hex] at h
      cases h
      rfl
    | some res =>
      rw [hex] at h
      rw [ih h, executed_frame hex hn]

theorem StatementYields.frame {op : C2SqlQBOp} {schema : SqlRDBSchema}
    {cond : Option SqlRDBCondition}
    {col : CStr} {vs : List SqlValue} {db : Catalog SqlValue} {res : Result SqlValue}
    (ha : StatementYields sem op schema cond col vs db res) {n : CStr}
    (hn : n ≠ sem.fold schema.name) :
    res.db n = db n := by
  have htable : (condStatement op schema cond col).table = schema.name := by
    cases op <;> rfl
  exact Semantics.exec_frame ha.exec (by rwa [htable])

theorem Meant.moves (h : Meant dialect sem lookup s c reply s') : Moves sem lookup s c s' := by
  cases h with
  | write hlook hexec => exact .writes rfl hlook (fun n hn => executed_frame hexec hn) rfl
  | writeMany hlook hn hstride hbatch hr =>
    refine .writes rfl hlook (fun n hn => ?_) rfl
    simp only [Model.db, Model.withDb]
    split_ifs
    · exact writeBatch_frame hbatch hn
    · rfl
  | delete hlook hans hn => exact .writes rfl hlook (fun n hn => hans.frame hn) rfl
  | count hlook hans => exact .stays rfl
  | read hlook hans hreply => exact .stays rfl
  | readBlobField hlook hcol htype hans hreply => exact .stays rfl
  | writeBlobField hlook hcol htype hfound hone hans =>
    exact .writes rfl hlook (fun n hn => hans.frame hn) rfl
  | notOneRow hlook hcol htype hfound hnot => exact .stays rfl
  | beginTx room => exact .begins _ rfl rfl
  | commitTx hframes => exact .commits rfl hframes
  | rollbackTx hframes => exact .rewinds rfl hframes rfl (.inl rfl)
  | setConfig cfg => exact .stays rfl
  | setLogger logger => exact .stays rfl

/-- A step that fails moves nothing, except that a batch may have written some of its rows and a
rollback may have rewound the tables. -/
theorem StoreStep.moves (h : StoreStep dialect sem lookup calm s c reply s') :
    Moves sem lookup s c s' := by
  cases h with
  | meant h => exact h.moves
  | refused hr hcalm => exact .stays rfl
  | nullsLost hcalm hlook hans hfirst hreply => exact .stays rfl
  | stopped hcalm hr hlook hframes hbatch =>
    exact .writes rfl hlook (fun n hn => writeBatch_frame hbatch hn) rfl
  | rewound hcalm hr hframes => exact .rewinds rfl hframes rfl (.inr hframes)

/-- A call that succeeds without an output does what it means. -/
theorem StoreStep.meant_of_ok (h : StoreStep dialect sem lookup calm s c (.plain .ok) s') :
    Meant dialect sem lookup s c (.plain .ok) s' := by
  generalize hreply : Reply.plain .ok = reply at h
  cases h with
  | meant h => exact h
  | refused hr hcalm => exact absurd (Option.some.inj (congrArg Reply.code hreply)).symm hr
  | nullsLost => cases hreply
  | stopped hcalm hr => exact absurd (Option.some.inj (congrArg Reply.code hreply)).symm hr
  | rewound hcalm hr => exact absurd (Option.some.inj (congrArg Reply.code hreply)).symm hr

/-- What every step of a run keeps is kept by the run. -/
theorem StoreRun.invariant {P : Model → Prop} {cs : List Call} {replies : List Reply}
    (hrun : StoreRun dialect sem lookup calm s cs replies s')
    (hstep : ∀ c ∈ cs, ∀ s reply s', StoreStep dialect sem lookup calm s c reply s' → P s → P s')
    (hs : P s) : P s' := by
  induction hrun with
  | nil => exact hs
  | cons hone hrun ih =>
    exact ih (fun c hc => hstep c (List.mem_cons_of_mem _ hc))
      (hstep _ (List.mem_cons_self ..) _ _ _ hone hs)

/-! ## Isolation -/

/-- A table has the same contents now and where a rollback leads to. -/
def Model.Frozen (n : CStr) (t : Option (Table SqlValue)) (s : Model) : Prop :=
  s.db n = t ∧ ∀ f ∈ s.store.frames, f.saved n = t

/-- A step that does not write the table of a name keeps it, in the transactions as well. -/
theorem Moves.frozen (h : Moves sem lookup s c s') {n : CStr} {t : Option (Table SqlValue)}
    (hc : ∀ name schema, c.target = some name → lookup name = some schema →
      n ≠ sem.fold schema.name) (hs : s.Frozen n t) : s'.Frozen n t := by
  obtain ⟨hdb, hsaved⟩ := hs
  cases h with
  | stays hstore => exact ⟨hdb ▸ congrArg (fun st => st.contents n) hstore, hstore ▸ hsaved⟩
  | writes htarget hlook hother hframes =>
    exact ⟨(hother n (hc _ _ htarget hlook)).trans hdb, hframes ▸ hsaved⟩
  | begins name hdb' hframes =>
    refine ⟨hdb' ▸ hdb, ?_⟩
    rw [hframes]
    exact List.forall_mem_cons.2 ⟨hdb, hsaved⟩
  | commits hdb' hframes =>
    rw [hframes] at hsaved
    exact ⟨hdb' ▸ hdb, (List.forall_mem_cons.1 hsaved).2⟩
  | rewinds hc hframes hdb' hframes' =>
    rw [hframes] at hsaved
    obtain ⟨hf, hfs⟩ := List.forall_mem_cons.1 hsaved
    refine ⟨hdb' ▸ hf, ?_⟩
    rcases hframes' with h | h
    · rw [h]
      exact hfs
    · rw [h]
      exact hsaved

/-- **Tables are isolated.** Whatever calls on rows, transactions and the configuration are made on
a handle without an open transaction, with the transactions that they open, commit and roll back and
whatever fails on the way, the table of a struct that none of them writes is the same after them.
Failures of a COMMIT or a ROLLBACK are excluded from runs with batches. -/
theorem tables_isolated {w : Client (Session (Catalog SqlValue))}
    (hserving : w.handle.Serving dialect sem) (hidle : w.handle.store.frames = [])
    {cs : List Call} (hcs : ∀ c ∈ cs, c.OnStore w.handle.ctx.conn.faults)
    (hret : Returns (driver dialect (sqlEngine sem)) cs w) {n : CStr}
    (hn : ∀ c ∈ cs, ∀ name schema, c.target = some name → w.handle.lookup name = some schema →
      n ≠ sem.fold schema.name) :
    (run (driver dialect (sqlEngine sem)) cs w).2.handle.store.contents n =
      w.handle.store.contents n := by
  have hfrozen : w.handle.model.Frozen n (w.handle.store.contents n) := by
    refine ⟨rfl, ?_⟩
    rw [show w.handle.model.store.frames = [] from hidle]
    exact List.forall_mem_nil _
  exact ((run_refines hserving hcs hret).storeRun.invariant
    (fun c hc _ _ _ hstep hs => hstep.moves.frozen (hn c hc) hs) hfrozen).1

theorem tables_isolated_rolledBackWrite :
    emptyTables.store.contents (lit "notes") = some (createdTable .sqlite notesSchema) ∧
      (run (driver .sqlite (sqlEngine plainSemantics)) rolledBackWrite
          ⟨emptyTables, []⟩).2.handle.store.contents (lit "notes") =
        emptyTables.store.contents (lit "notes") := by
  refine ⟨rfl, tables_isolated serving_emptyTables rfl
    (by simp [rolledBackWrite, Call.OnStore]) returns_rolledBackWrite ?_⟩
  intro c hc name schema htarget hlook
  obtain rfl : name = lit "persons" := by
    simp only [rolledBackWrite, List.mem_cons, List.not_mem_nil, or_false] at hc
    rcases hc with rfl | rfl | rfl | rfl | rfl <;> cases htarget
    rfl
  have hschema : emptyTables.lookup (lit "persons") = some personsSchema := rfl
  cases hschema.symm.trans hlook
  decide +kernel

end C2Sql
