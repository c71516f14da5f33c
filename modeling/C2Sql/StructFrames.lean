import C2Sql.Iteration
import C2Sql.Iterators
import C2Sql.LastError
import C2Sql.RegisterTables
import C2Sql.StoreRuns

/-!
# Structs and their tables

Two structs of a handle share rows only if their names are the same table to SQLite.

* `Registering`: the states that registrations lead to;
* `Engine.Serves`: an engine that executes the statements on rows as a semantics says;
* `Call.framed`: a successful write reaches no other table;
* `Readable`, `count_seen`, `listed_seen`: what is read of a table;
* `structs_apart`: structs whose names differ ignoring the case share no rows.
-/

namespace C2Sql

open SnapshotStack SqlText StateLogic

/-! ## Registered structs -/

section Registering

variable {σ : Type}

/-- A handle that has been opened and not been used. -/
structure SqlRDBHandle.Unused (h : SqlRDBHandle σ) : Prop where
  valid : h.valid = true
  entries : h.registry.entries = []
  cache : h.cache.Represents []
  depth : h.txn.depth = 0

/-- The states of a handle that registrations lead to, successful ones and others. -/
inductive Registering (d : SqlRDBDriver σ) (h : SqlRDBHandle σ) : SqlRDBHandle σ → Prop
  | start : Registering d h h
  | register {h₁ h₂ : SqlRDBHandle σ} {fuel : ℕ} {name : Option CStr}
      {cols : Option (List (Option SqlRDBColumnDef))} {r : SqlRDBResult}
      (hrun : Registering d h h₁)
      (hcall : sqlRDBRegisterStruct d fuel name cols h₁ = (some r, h₂)) : Registering d h h₂

/-- The statements and the transactions of a handle. -/
def SqlRDBHandle.inner (h : SqlRDBHandle σ) : SqlRDBStmtCache × SqlRDBTxnState := (h.cache, h.txn)

theorem keepsInner_of_outer {α : Type} {c : Api σ α} (hc : Keeps SqlRDBHandle.outer c) :
    Keeps SqlRDBHandle.inner c := fun h => congrArg (fun v => (v.2.1, v.2.2.1)) (hc h)

theorem background_inner (d : SqlRDBDriver σ) : Background d SqlRDBHandle.inner where
  exec _ _ := rfl
  prepare _ _ := rfl
  bind _ _ _ _ := rfl
  step _ _ := rfl
  columnInt32 _ _ _ := rfl
  columnText _ _ _ := rfl
  finalize _ _ := rfl
  malloc _ := rfl
  errSet _ _ _ := rfl
  internalLog _ _ := keepsInner_of_outer (keepsOuter_internalLog _ _)

/-- A registration uses no cached statement and opens no transaction. -/
theorem keepsInner_registerStruct (d : SqlRDBDriver σ) (fuel : ℕ) (name : Option CStr)
    (cols : Option (List (Option SqlRDBColumnDef))) :
    Keeps SqlRDBHandle.inner (sqlRDBRegisterStruct d fuel name cols) := by
  have hunlock {α : Type} (a : α) :
      Keeps SqlRDBHandle.inner (do mutexUnlock; pure a : Api σ α) :=
    (keepsInner_of_outer keepsOuter_mutexUnlock).bind fun _ => .pure _
  refine (keeps_get _).bind fun h => .ite (.pure _) ?_
  split
  · refine (keepsInner_of_outer keepsOuter_mutexLock).bind fun _ => ?_
    refine (keepsInner_of_outer (keepsOuter_internalSchemaRegister _ _)).bind fun r => ?_
    refine .ite (hunlock _) ((keeps_get _).bind fun h => ?_)
    split
    · exact hunlock _
    refine ((background_inner d).internalMigrateTable fuel _).bind fun res => ?_
    split
    · exact .pure _
    refine .ite ?_ (hunlock _)
    refine (keepsInner_of_outer (keepsOuter_internalSchemaUnregister _)).bind fun _ => ?_
    exact hunlock _
  · exact (background_inner d).errSet_pure

/-- What holds after registrations: the cache is empty, no transaction is open, and the schemas have
passed the checks. -/
structure SqlRDBHandle.Holds (h : SqlRDBHandle σ) : Prop where
  valid : h.valid = true
  schemas : ∀ s ∈ h.registry.entries, s.WellFormed
  cache : h.cache.Represents []
  depth : h.txn.depth = 0

theorem Registering.holds {d : SqlRDBDriver σ} {h h' : SqlRDBHandle σ} (hnew : h.Unused)
    (hrun : Registering d h h') : h'.Holds := by
  induction hrun with
  | start =>
    refine ⟨hnew.valid, ?_, hnew.cache, hnew.depth⟩
    rw [hnew.entries]
    exact List.forall_mem_nil _
  | @register h₁ h₂ fuel name cols r hrun hcall ih =>
    have hinner := keepsInner_registerStruct d fuel name cols h₁
    have hreg := registerStruct_registered d fuel name cols h₁
    rw [wp, hcall] at hreg
    rw [hcall] at hinner
    have hreg := hreg r rfl
    have hcache : h₂.cache = h₁.cache := congrArg Prod.fst hinner
    have htxn : h₂.txn = h₁.txn := congrArg Prod.snd hinner
    refine ⟨by rw [SqlRDBHandle.valid, hreg.magic]; exact ih.valid, ?_, hcache ▸ ih.cache,
      htxn ▸ ih.depth⟩
    by_cases hr : r = .ok
    · obtain ⟨s, hcheck, hentries⟩ := hreg.ok hr
      rw [hentries, List.forall_mem_append]
      exact ⟨ih.schemas, List.forall_mem_singleton.2
        ((SqlRDBSchema.accepted_iff s).1 ⟨_, _, _, hcheck⟩)⟩
    · rw [hreg.failed hr]
      exact ih.schemas

end Registering

/-! ## Statements and tables -/

/-- Whether a statement is refused depends on its table only. -/
def SqlSemantics.Local (sem : SqlSemantics) : Prop :=
  ∀ s vs db db', db (sem.fold s.table) = db' (sem.fold s.table) →
    sem.refuses s vs db = sem.refuses s vs db'

/-- An engine that executes the statements of the library as a semantics says; what it does with
other texts, such as those that read the catalog, is not said. -/
structure Engine.Serves (e : Engine (Catalog SqlValue)) (sem : SqlSemantics) : Prop where
  run_eq : ∀ spec sql n, spec.schema.WellFormed → internalQbBuild spec = .ok (sql, n) →
    e.run sql = (sqlEngine sem).run sql

section Statements

variable {sem : SqlSemantics} {schema : SqlRDBSchema} (hs : schema.WellFormed)
  {dialect : C2SqlDialect} {db : Catalog SqlValue} {sql : CStr} {n : ℕ} {us : List SqlValue}
  {o : Outcome (Catalog SqlValue)} (hrun : (sqlEngine sem).run sql us db = some o)

include hs hrun

/-- A statement with a condition changes no other table than that of its struct. -/
theorem cond_frame {spec : SqlRDBQuerySpec} (hschema : spec.schema = schema)
    (hop : isCondOp spec.op = true) {col : CStr}
    (hcol : isFieldOp spec.op = true → spec.targetCol = some col) (hq : byte '"' ∉ col)
    (hb : internalQbBuild spec = .ok (sql, n)) (hlen : condLeaves spec.cond < 2 ^ 31) {m : CStr}
    (hm : m ≠ sem.fold schema.name) : o.db m = db m := by
  subst hschema
  obtain ⟨-, -, res, hexec, rfl⟩ := exec_of_run hs hop hcol hq hb hlen hrun
  have htable : (condStatement spec.op spec.schema spec.cond col).table = spec.schema.name := by
    cases spec.op <;> rfl
  exact Semantics.exec_frame hexec (htable.symm ▸ hm)

/-- A write changes no other table than that of its struct. -/
theorem write_frame (hsql : sql = writeSql dialect schema) {m : CStr}
    (hm : m ≠ sem.fold schema.name) : o.db m = db m := by
  subst hsql
  obtain ⟨-, res, hexec, rfl⟩ := (run_writeSql_iff dialect hs).1 hrun
  exact Semantics.exec_frame hexec hm

/-- A query reads its table only. -/
theorem query_local (hlocal : sem.Local) {op : C2SqlQBOp} (hop : op = .select ∨ op = .count)
    {cond : Option SqlRDBCondition}
    (hb : internalQbBuild (condSpec op cond dialect schema) = .ok (sql, n))
    (hlen : (condValues cond).length < 2 ^ 31) {db' : Catalog SqlValue}
    (hdb : db (sem.fold schema.name) = db' (sem.fold schema.name)) :
    o = ⟨o.rows, db, none⟩ ∧ (sqlEngine sem).run sql us db' = some ⟨o.rows, db', none⟩ := by
  rw [length_condValues] at hlen
  have hcond : isCondOp (condSpec op cond dialect schema).op = true := by
    rcases hop with rfl | rfl <;> rfl
  have hcol : isFieldOp (condSpec op cond dialect schema).op = true →
      (condSpec op cond dialect schema).targetCol = some [] := by
    rcases hop with rfl | rfl <;> rintro ⟨⟩
  obtain ⟨-, hparsed, res, hexec, rfl⟩ :=
    exec_of_run hs hcond hcol List.not_mem_nil hb hlen hrun
  have hquery : (condStatement op schema cond []).isQuery = true := by
    rcases hop with rfl | rfl <;> rfl
  have htable : (condStatement op schema cond []).table = schema.name := by cases op <;> rfl
  rw [← htable] at hdb
  obtain ⟨hres, hexec'⟩ := Semantics.exec_query_local hquery hexec hdb (hlocal _ _ _ _ hdb)
  refine ⟨?_, sqlEngine_run_iff.2 ⟨_, _, hparsed, hexec', rfl⟩⟩
  rw [hres]
  rfl

end Statements

/-! ## Writes -/

/-- A call has left a table alone, and can be followed by others. -/
structure Framed (dialect : C2SqlDialect) (e : Engine (Catalog SqlValue)) (m : CStr)
    (h h' : TableHandle) : Prop where
  sound : CacheSound dialect e h'
  faults : h'.ctx.conn.faults = h.ctx.conn.faults
  table : h'.store.contents m = h.store.contents m

/-- A transaction command that keeps the contents. -/
theorem Conn.control_contents {Db : Type} (dialect : C2SqlDialect) (call : DriverCall)
    {f : Store CStr Db → Option (Store CStr Db)}
    (hf : ∀ s s', f s = some s' → s'.contents = s.contents) (c : Conn Db) :
    (c.control dialect call f).2.faults = c.faults ∧
      (c.control dialect call f).2.store.contents = c.store.contents := by
  simp only [Conn.control, Conn.call, Conn.fault]
  cases c.faults call c.tick with
  | some x => exact ⟨rfl, rfl⟩
  | none =>
    simp only [Conn.txn]
    cases hs : f c.store with
    | none => exact ⟨rfl, rfl⟩
    | some s => exact ⟨rfl, hf _ _ hs⟩

theorem contents_begin {Db : Type} {s s' : Store CStr Db} (h : s.begin = some s') :
    s'.contents = s.contents := by
  rw [Store.begin] at h
  split at h <;> cases h
  rfl

theorem contents_commit {Db : Type} {s s' : Store CStr Db} (h : s.commit = some s') :
    s'.contents = s.contents := by
  rw [Store.commit] at h
  split at h <;> cases h
  rfl

section Writes

variable {dialect : C2SqlDialect} {e : Engine (Catalog SqlValue)} {sem : SqlSemantics}
  (hserves : e.Serves sem) {schema : SqlRDBSchema} (hwf : schema.WellFormed) {m : CStr}
  (hm : m ≠ sem.fold schema.name) {h h' : TableHandle}

include hserves hwf hm

/-- The statement of a write on an engine that serves rows. -/
theorem Engine.Serves.write_frame {us : List SqlValue} {db : Catalog SqlValue}
    {o : Outcome (Catalog SqlValue)} (hrun : e.run (writeSql dialect schema) us db = some o) :
    o.db m = db m := by
  obtain ⟨n, hb⟩ := internalQbBuild_writeSpec dialect schema
  rw [hserves.run_eq (writeSpec dialect schema) _ n hwf hb] at hrun
  exact C2Sql.write_frame hwf hrun rfl hm

theorem writesAll_frame {batch : List Binds} {db db' : Catalog SqlValue}
    (h : writesAll e (writeSql dialect schema) batch db = some db') : db' m = db m := by
  induction batch generalizing db with
  | nil =>
    cases h
    rfl
  | cons binds batch ih =>
    simp only [writesAll, Option.bind_eq_bind, Option.bind_eq_some_iff] at h
    obtain ⟨vs, -, o, ho, hrest⟩ := h
    rw [ih hrest, hserves.write_frame hwf hm ho]

/-- A successful call on one statement with a condition. -/
theorem Operated.framed {spec : SqlRDBQuerySpec} (hschema : spec.schema = schema)
    (hop : isCondOp spec.op = true) {col : CStr}
    (hcol : isFieldOp spec.op = true → spec.targetCol = some col) (hq : byte '"' ∉ col)
    {vs : List SqlValue} (hvs : condLeaves spec.cond ≤ vs.length) {r : SqlRDBResult}
    {Out : List (List SqlValue) → Conn (Catalog SqlValue) → Prop}
    (ho : Operated dialect e spec vs h r Out h') (hr : r = .ok) : Framed dialect e m h h' := by
  obtain ⟨hs', -, ⟨hne, -⟩ | ⟨sql, n, res, hp, hran, rfl, -⟩⟩ := ho
  · exact absurd hr hne
  · cases res with
    | error r => exact absurd hr (hran.error r rfl).1
    | ok rows =>
      refine ⟨hs', hran.faults_eq, ?_⟩
      obtain ⟨o, t, hlen, hrun, -, hconn⟩ := hran.ok rows rfl
      rw [hserves.run_eq spec sql n (hschema ▸ hwf) hp.build_eq] at hrun
      rw [SqlRDBHandle.store, hconn]
      exact cond_frame hwf hrun hschema hop hcol hq hp.build_eq (hvs.trans_lt hlen) hm

/-- A look-up. -/
theorem Looked.framed {α : Type} {key : SqlRDBCondition} {col : CStr} (hq : byte '"' ∉ col)
    {old : α} {x : SqlRDBResult × α} {Out : List (List SqlValue) → SqlRDBResult × α → Prop}
    (hl : Looked dialect e (fieldSpec .selectField key col dialect schema) (condValues (some key))
      h old Out x h') : Framed dialect e m h h' := by
  obtain ⟨hs', -, ⟨-, -, hconn, -⟩ | ⟨sql, n, res, c, t, hp, hran, hconn, -, -⟩⟩ := hl
  · exact ⟨hs', by rw [hconn], by rw [SqlRDBHandle.store, hconn]; rfl⟩
  refine ⟨hs', by rw [hconn]; exact hran.faults_eq, ?_⟩
  rw [SqlRDBHandle.store, hconn]
  cases res with
  | error r =>
    obtain ⟨-, t', rfl⟩ := hran.error r rfl
    rfl
  | ok rows =>
    obtain ⟨o, t', hlen, hrun, -, rfl⟩ := hran.ok rows rfl
    rw [hserves.run_eq (fieldSpec .selectField key col dialect schema) sql n hwf hp.build_eq]
      at hrun
    refine cond_frame hwf hrun rfl rfl (fun _ => rfl) hq hp.build_eq ?_ hm
    exact (length_condValues (some key)).ge.trans_lt hlen

variable (hs : CacheSound dialect e h) (hv : h.valid = true) {name : CStr}
  (hlook : h.lookup name = some schema)

include hs hv hlook

theorem write_framed (row : Mem) (nullMap : Option Mem) :
    wp (sqlRDBWrite (driver dialect e) (some name) (some row) nullMap)
      (fun r h' => r = .ok → Framed dialect e m h h') h := by
  refine wp_mono (write_spec hs hv hlook hwf row nullMap) ?_
  rintro r h' ⟨hs', -, ⟨hne, -⟩ | ⟨res, -, hrun, rfl⟩⟩ hr
  · exact absurd hr hne
  · obtain ⟨hfaults, -, hok⟩ := h.ctx.conn.runOnce_spec e (writeSql dialect schema)
      (rowBinds row nullMap 0 schema.cols)
    rw [hrun] at hfaults hok
    cases res with
    | error r =>
      have hsound : (rowBinds row nullMap 0 schema.cols).Sound := rowBinds_sound _ _ _ _
      exact absurd hr (Conn.runOnce_ne_ok hsound (congrArg Prod.fst hrun))
    | ok rows =>
      obtain ⟨vs, o, -, ho, hdb⟩ := hok rows rfl
      refine ⟨hs', hfaults, ?_⟩
      rw [SqlRDBHandle.store, hdb]
      exact hserves.write_frame hwf hm ho

theorem writeMany_framed (hd : h.txn.depth = 0) (rows : Mem) {count stride : ℕ}
    (hcount : 0 < count) (hstride : 0 < stride) (nullMaps : Option Mem) :
    wp (sqlRDBWriteMany (driver dialect e) (some name) (some rows) count stride nullMaps)
      (fun r h' => r = .ok → Framed dialect e m h h') h := by
  refine wp_mono (sqlRDBWriteMany_spec hs hv hlook hwf hd rows hcount hstride nullMaps) ?_
  rintro r h' ⟨hs', hrun | ⟨-, hne, -⟩⟩ hr
  swap
  · exact absurd hr hne
  subst hr
  obtain ⟨hfaults, hcontents⟩ :=
    h.ctx.conn.control_contents dialect .begin fun _ _ => contents_begin
  rw [Conn.runBatch] at hrun
  generalize h.ctx.conn.control dialect .begin Store.begin = begun at hrun hfaults hcontents
  obtain ⟨r, c₁⟩ := begun
  dsimp only at hrun hfaults hcontents
  by_cases hr : r = .ok
  swap
  · rw [if_pos hr] at hrun
    exact absurd (congrArg Prod.fst hrun).symm hr
  · rw [if_neg (not_not.2 hr)] at hrun
    obtain ⟨hfaults₁, -, hok⟩ := c₁.runRows_spec e (writeSql dialect schema)
      (sound_of_mem_batchBinds schema rows stride nullMaps count 0)
    generalize c₁.runRows e (writeSql dialect schema)
      (batchBinds schema rows stride nullMaps count 0) = ran at hrun hfaults₁ hok
    obtain ⟨r', c₂⟩ := ran
    obtain ⟨rfl, hconn⟩ := Prod.mk.inj hrun
    rw [if_pos rfl] at hconn
    obtain ⟨hfaults₂, hcontents₂⟩ :=
      c₂.control_contents dialect .commit fun _ _ => contents_commit
    refine ⟨hs', ?_, ?_⟩
    · rw [hconn, hfaults₂]
      exact hfaults₁.trans hfaults
    · rw [SqlRDBHandle.store, hconn, hcontents₂, SqlRDBHandle.store, ← hcontents]
      exact writesAll_frame hserves hwf hm (hok rfl)

theorem delete_framed (cond : SqlRDBCondition) (outDeleted : Option ℕ) :
    wp (sqlRDBDelete (driver dialect e) (some name) (some cond) outDeleted)
      (fun res h' => res.1 = .ok → Framed dialect e m h h') h := by
  refine wp_mono (delete_spec hs hv hlook hwf cond outDeleted) fun res h' ho hr => ?_
  have hcol : isFieldOp .delete = true → (none : Option CStr) = some [] := by rintro ⟨⟩
  exact Operated.framed hserves hwf hm rfl rfl hcol List.not_mem_nil
    (length_condValues (some cond)).ge ho.1 hr

theorem writeBlobField_framed {key : SqlRDBCondition} {col : CStr} {c : SqlRDBColumnDef}
    (hcol : findCol schema col = some c) (htype : c.type = .blob) (bytes : List UInt8) :
    wp (sqlRDBWriteBlobField (driver dialect e) (some name) (some key) (some col) (some bytes))
      (fun r h' => r = .ok → Framed dialect e m h h') h := by
  have hlook₁ : ({ h with mutex := h.mutex.lock }).lookup name = some schema := hlook
  have hq : byte '"' ∉ col := quote_not_mem_of_findCol hwf hcol
  simp only [sqlRDBWriteBlobField, wp_bind, wp_get, hv, Bool.not_true, Bool.false_eq_true, if_false,
    wp_mutexLock, hlook₁, hcol, htype, ne_eq, not_true_eq_false]
  refine wp_mono
    (countMatchingRows_spec (h := { h with mutex := h.mutex.lock }) hwf hs col key) ?_
  rintro ⟨r, k⟩ h₁ hlooked
  have hf₁ := Looked.framed hserves hwf hm hq hlooked
  by_cases hr : r = .ok
  swap
  · rw [wp_ite, if_pos hr, wp_bind, wp_mutexUnlock, wp_pure]
    exact fun h => absurd h hr
  rw [wp_ite, if_neg (not_not.2 hr), wp_ite]
  split_ifs with hnone hmany
  · rw [wp_bind, wp_mutexUnlock, wp_pure]
    exact SqlRDBResult.noConfusion
  · rw [wp_bind, wp_mutexUnlock, wp_pure]
    exact SqlRDBResult.noConfusion
  refine wp_mono (updateField_spec hwf hf₁.sound key col bytes) fun r' h' ho hr' => ?_
  have hf := Operated.framed hserves hwf hm rfl rfl (fun _ => rfl) hq
    ((length_condValues (some key)).ge.trans (Nat.le_succ _)) ho hr'
  exact ⟨hf.sound, hf.faults.trans hf₁.faults, hf.table.trans hf₁.table⟩

end Writes

/-- A successful call that writes a struct leaves every other table alone. -/
theorem Call.framed {dialect : C2SqlDialect} {e : Engine (Catalog SqlValue)} {sem : SqlSemantics}
    (hserves : e.Serves sem) {h : TableHandle} (hs : CacheSound dialect e h)
    (hv : h.valid = true) (hd : h.txn.depth = 0) {name : CStr} {schema : SqlRDBSchema}
    (hlook : h.lookup name = some schema) (hwf : schema.WellFormed) {m : CStr}
    (hm : m ≠ sem.fold schema.name) {c : Call} (hc : c.target = some name)
    {its : List SqlRDBStmt}
    (hok : (c.exec (driver dialect e) ⟨h, its⟩).1.code = some .ok) :
    Framed dialect e m h (c.exec (driver dialect e) ⟨h, its⟩).2.handle := by
  have hrefusal : c.refusal h.lookup = none := by
    cases hr : c.refusal h.lookup with
    | none => rfl
    | some r =>
      obtain ⟨err, mutex, hexec⟩ := exec_refusal (driver dialect e) (w := ⟨h, its⟩) hv hr
      rw [hexec] at hok
      cases hok
      exact absurd hr c.refusal_ne_ok
  cases c with
  | write n row nullMap =>
    obtain rfl : n = some name := hc
    rw [Call.refusal] at hrefusal
    obtain ⟨hrow, -⟩ := refuse_eq_none hrefusal
    obtain ⟨row, rfl⟩ := Option.isSome_iff_exists.1 hrow
    exact write_framed hserves hwf hm hs hv hlook row nullMap (Option.some.inj hok)
  | writeMany n rows count stride nullMaps =>
    obtain rfl : n = some name := hc
    rw [Call.refusal] at hrefusal
    obtain ⟨hgiven, -⟩ := refuse_eq_none hrefusal
    simp only [Bool.and_eq_true, bne_iff_ne, ne_eq] at hgiven
    obtain ⟨⟨hrows, hcount⟩, hstride⟩ := hgiven
    obtain ⟨rows, rfl⟩ := Option.isSome_iff_exists.1 hrows
    exact writeMany_framed hserves hwf hm hs hv hlook hd rows (Nat.pos_of_ne_zero hcount)
      (Nat.pos_of_ne_zero hstride) nullMaps (Option.some.inj hok)
  | delete n cond out =>
    obtain rfl : n = some name := hc
    rw [Call.refusal] at hrefusal
    obtain ⟨hcond, -⟩ := refuse_eq_none hrefusal
    obtain ⟨cond, rfl⟩ := Option.isSome_iff_exists.1 hcond
    exact delete_framed hserves hwf hm hs hv hlook cond out (Option.some.inj hok)
  | writeBlobField n key col bytes =>
    obtain rfl : n = some name := hc
    rw [Call.refusal] at hrefusal
    obtain ⟨hgiven, hcolumn⟩ := Option.or_eq_none_iff.1 hrefusal
    obtain ⟨hgiven, -⟩ := refuse_eq_none hgiven
    simp only [Bool.and_eq_true] at hgiven
    obtain ⟨⟨hkey, hcol⟩, hbytes⟩ := hgiven
    obtain ⟨key, rfl⟩ := Option.isSome_iff_exists.1 hkey
    obtain ⟨col, rfl⟩ := Option.isSome_iff_exists.1 hcol
    obtain ⟨bytes, rfl⟩ := Option.isSome_iff_exists.1 hbytes
    obtain ⟨cdef, hcdef, htype⟩ := refuseColumn_eq_none hlook hcolumn
    exact writeBlobField_framed hserves hwf hm hs hv hlook hcdef htype bytes
      (Option.some.inj hok)
  | _ => cases hc

/-! ## Reads -/

/-- What `SqlRDBReadMany` and calls of `SqlRDBStmtNext` with the given memory return. -/
def listed {σ : Type} (d : SqlRDBDriver σ) (name : CStr) (cond : Option SqlRDBCondition)
    (bs : List RowBuffers) : Api σ (Option (List (SqlRDBResult × ReadOut))) := do
  let (_, it) ← sqlRDBReadMany d (some name) cond true
  match it with
  | none => pure none
  | some it =>
    let replies ← nextAll d it bs
    pure (some replies)

/-- A handle on which the struct `name` can be read without failures. -/
structure Readable (dialect : C2SqlDialect) (e : Engine (Catalog SqlValue)) (name : CStr)
    (ptr : SchemaPtr) (schema : SqlRDBSchema) (h : TableHandle) : Prop where
  sound : CacheSound dialect e h
  valid : h.valid = true
  calm : h.Calm
  lookup_eq : h.lookup name = some schema
  ptr_eq : h.lookupPtr name = some ptr
  deref_eq : h.deref ptr = schema

/-- A step on a statement that the engine refuses. -/
theorem Stmt.step_refused {Db : Type} {dialect : C2SqlDialect} {e : Engine Db} {st : Stmt}
    {c : Conn Db} (hcur : st.cursor = .ready ∨ dialect = .sqlite ∧ st.cursor = .done)
    (hnone : e.run st.sql st.values c.store.contents = none)
    (hf : c.faults .step c.tick = none) :
    st.step dialect e c = (.errDriver,
      { st with cursor := if dialect = .sqlite then .done else .ready },
      { c with tick := c.tick + 1 }) := by
  have hstart : ∀ k, st.start dialect e { c with tick := k } =
      (.errDriver, { st with cursor := if dialect = .sqlite then .done else .ready },
        { c with tick := k }) := by
    intro k
    rw [Stmt.start, Conn.execute, hnone]
    rfl
  rw [Stmt.step, Conn.fault, hf]
  dsimp only
  obtain hready | ⟨rfl, hdone⟩ := hcur
  · simp only [Stmt.advance, hready]
    exact hstart _
  · simp only [Stmt.advance, hdone]
    exact hstart _

/-- An iterator on a statement that the engine refuses. -/
theorem nextAll_refused {Db : Type} {dialect : C2SqlDialect} {e : Engine Db}
    {h : SqlRDBHandle (Session Db)} {it : SqlRDBStmt} {st : Stmt}
    (hst : h.ctx.stmts it.rawStmt = some st)
    (hcur : st.cursor = .ready ∨ dialect = .sqlite ∧ st.cursor = .done)
    (hnone : e.run st.sql st.values h.store.contents = none)
    (hf : ∀ call k, h.ctx.conn.faults call k = none) (bs : List RowBuffers) :
    (nextAll (driver dialect e) it bs h).1 = bs.map fun b => (.errDriver, b.out) := by
  induction bs generalizing h st with
  | nil => rfl
  | cons b bs ih =>
    obtain ⟨reply, h', hnext⟩ : ∃ reply h',
        sqlRDBStmtNext (driver dialect e) (some it) b.out h = (reply, h') := ⟨_, _, rfl⟩
    obtain ⟨hreply, -, -, hctx⟩ := (stmtNext_spec hst it.schema rfl).of_eq hnext
    rw [Stmt.step_refused hcur hnone (hf _ _)] at hreply hctx
    have hrest := ih (h := h') (hctx ▸ Session.stmts_put ..) ?_ ?_ ?_
    · rw [nextAll, bind_of_run hnext]
      change reply :: (nextAll (driver dialect e) it bs h').1 = _
      rw [hrest, hreply]
      rfl
    · cases dialect with
      | sqlite => exact .inr ⟨rfl, rfl⟩
      | postgres => exact .inl rfl
    · rw [SqlRDBHandle.store, hctx]
      exact hnone
    · rw [hctx]
      exact hf

/-- The replies of the iterator of a query on some contents, if it can be opened. -/
def ListedAs (dialect : C2SqlDialect) (e : Engine (Catalog SqlValue)) (schema : SqlRDBSchema)
    (cond : Option SqlRDBCondition) (bs : List RowBuffers) (db : Catalog SqlValue)
    (out : Option (List (SqlRDBResult × ReadOut))) : Prop :=
  (out = none ∧ ∀ sql n, Prepares dialect e (condSpec .select cond dialect schema) sql n →
      ¬(condValues cond).length < 2 ^ 31) ∨
    ∃ sql n, Prepares dialect e (condSpec .select cond dialect schema) sql n ∧
      (condValues cond).length < 2 ^ 31 ∧
      ((e.run sql (storedValues (condValues cond)) db = none ∧
          out = some (bs.map fun b => (.errDriver, b.out))) ∨
        ∃ rows, e.run sql (storedValues (condValues cond)) db = some ⟨rows, db, none⟩ ∧
          out = some (replies dialect e schema rows rows bs))

section Reads

variable {dialect : C2SqlDialect} {e : Engine (Catalog SqlValue)} {sem : SqlSemantics}
  (hserves : e.Serves sem) (hlocal : sem.Local) {schema : SqlRDBSchema} (hwf : schema.WellFormed)
  {name : CStr} {ptr : SchemaPtr} {h h' : TableHandle}
  (hr : Readable dialect e name ptr schema h) (hr' : Readable dialect e name ptr schema h')
  (htable : h.store.contents (sem.fold schema.name) = h'.store.contents (sem.fold schema.name))

include hserves hlocal hwf

theorem Engine.Serves.query_local {op : C2SqlQBOp} (hop : op = .select ∨ op = .count)
    {cond : Option SqlRDBCondition} {sql : CStr} {n : ℕ}
    (hb : internalQbBuild (condSpec op cond dialect schema) = .ok (sql, n))
    (hlen : (condValues cond).length < 2 ^ 31) {us : List SqlValue} {db db' : Catalog SqlValue}
    (hdb : db (sem.fold schema.name) = db' (sem.fold schema.name))
    {o : Outcome (Catalog SqlValue)} (hrun : e.run sql us db = some o) :
    o = ⟨o.rows, db, none⟩ ∧ e.run sql us db' = some ⟨o.rows, db', none⟩ := by
  rw [hserves.run_eq (condSpec op cond dialect schema) sql n hwf hb] at hrun ⊢
  exact C2Sql.query_local hwf hrun hlocal hop hb hlen hdb

include hr hr' htable

/-- A count of the same table gives the same number. -/
theorem count_seen {cond : Option SqlRDBCondition} {old : ℕ} {k : Option ℕ}
    (hcount : (sqlRDBCount (driver dialect e) (some name) cond (some old) h).1 = (.ok, k)) :
    (sqlRDBCount (driver dialect e) (some name) cond (some old) h').1 = (.ok, k) := by
  have hspec := count_spec hr.sound hr.valid hr.lookup_eq hwf cond old
  have hspec' := count_spec hr'.sound hr'.valid hr'.lookup_eq hwf cond old
  rw [wp] at hspec hspec'
  rw [hcount] at hspec
  obtain ⟨⟨-, -, ⟨hne, -⟩ | ⟨sql, n, res, hp, hran, hres, hout⟩⟩, -⟩ := hspec
  · exact absurd rfl hne
  cases res with
  | error r => exact absurd hres.symm (hran.error r rfl).1
  | ok rows =>
    obtain ⟨o, t, hlen, hrun, rfl, -⟩ := hran.ok rows rfl
    obtain ⟨-, hrun'⟩ := hserves.query_local hlocal hwf (.inr rfl) hp.build_eq hlen htable hrun
    obtain ⟨⟨-, -, ⟨-, -, hu⟩ | ⟨sql', n', res', hp', hran', hres', hout'⟩⟩, -⟩ := hspec'
    · exact (hu.elim hp (hr'.calm.faults .prepare) hr'.calm.heap).elim
    cases hp.build_eq.symm.trans hp'.build_eq
    obtain ⟨rows', rfl⟩ := hran'.runs hr'.calm.faults hlen _ hrun'
    obtain ⟨o', t', -, hrun'', rfl, -⟩ := hran'.ok rows' rfl
    cases hrun'.symm.trans hrun''
    exact Prod.ext hres' ((hout' _ rfl).trans (hout _ rfl).symm)

omit hr' htable in
theorem listedAs_listed (cond : Option SqlRDBCondition) (bs : List RowBuffers) :
    ListedAs dialect e schema cond bs h.store.contents
      (listed (driver dialect e) name cond bs h).1 := by
  obtain ⟨res, h₁, hread⟩ : ∃ res h₁, sqlRDBReadMany (driver dialect e) (some name) cond true h =
      (res, h₁) := ⟨_, _, rfl⟩
  have hwf' : (h.deref ptr).WellFormed := hr.deref_eq ▸ hwf
  obtain ⟨-, hframe, ⟨tick, hconn⟩, hres⟩ :=
    (readMany_spec hr.sound hr.valid hr.ptr_eq hwf' cond).of_eq hread
  rw [hr.deref_eq] at hres
  rw [listed, bind_of_run hread]
  obtain ⟨-, hnone, hwhy⟩ | ⟨sql, n, id, st, hp, hlen, rfl, hst, rfl, hvalues, hcur⟩ := hres
  · obtain ⟨r, it⟩ := res
    obtain rfl : it = none := hnone
    exact .inl ⟨rfl, fun sql n hp hlen => hwhy sql n hp hlen hr.calm⟩
  have hfaults : ∀ call k, h₁.ctx.conn.faults call k = none := by
    rw [hconn]
    exact hr.calm.faults
  have hcontents : h₁.store.contents = h.store.contents := by
    rw [SqlRDBHandle.store, hconn]
    rfl
  refine .inr ⟨st.sql, n, hp, hlen, ?_⟩
  rw [← hvalues]
  change (_ ∧ some (nextAll (driver dialect e) ⟨id, ptr⟩ bs h₁).1 = _) ∨
    ∃ rows, _ ∧ some (nextAll (driver dialect e) ⟨id, ptr⟩ bs h₁).1 = _
  cases hrun : e.run st.sql st.values h.store.contents with
  | none =>
    rw [← hcontents] at hrun
    exact .inl ⟨rfl, congrArg some (nextAll_refused hst (.inl hcur) hrun hfaults bs)⟩
  | some o =>
    obtain ⟨ho, -⟩ := hserves.query_local hlocal hwf (.inl rfl) hp.build_eq hlen rfl hrun
    refine .inr ⟨o.rows, congrArg some ho, congrArg some ?_⟩
    have hsel : st.Selects e h₁.ctx.conn.store.contents o.rows := by
      rw [Stmt.Selects, show h₁.ctx.conn.store.contents = h.store.contents from hcontents, hrun]
      exact congrArg some ho
    rw [nextAll_eq hst hsel hfaults bs, hcur, Cursor.left, SqlRDBHandle.deref_of_frame hframe,
      hr.deref_eq]

/-- An iterator over the same table gives the same rows. -/
theorem listed_seen (cond : Option SqlRDBCondition) (bs : List RowBuffers) :
    (listed (driver dialect e) name cond bs h').1 =
      (listed (driver dialect e) name cond bs h).1 := by
  obtain ⟨hnone, hwhy⟩ | ⟨sql, n, hp, hlen, hout⟩ := listedAs_listed hserves hlocal hwf hr cond bs
  · obtain ⟨hnone', -⟩ | ⟨sql, n, hp, hlen, -⟩ := listedAs_listed hserves hlocal hwf hr' cond bs
    · rw [hnone, hnone']
    · exact absurd hlen (hwhy sql n hp)
  · obtain ⟨-, hwhy⟩ | ⟨sql', n', hp', -, hout'⟩ := listedAs_listed hserves hlocal hwf hr' cond bs
    · exact absurd hlen (hwhy sql n hp)
    cases hp.build_eq.symm.trans hp'.build_eq
    obtain ⟨hrun, hout⟩ | ⟨rows, hrun, hout⟩ := hout
    · obtain ⟨-, hout'⟩ | ⟨rows, hrun', -⟩ := hout'
      · rw [hout, hout']
      · obtain ⟨-, hrun''⟩ :=
          hserves.query_local hlocal hwf (.inl rfl) hp.build_eq hlen htable.symm hrun'
        cases hrun''.symm.trans hrun
    · obtain ⟨-, hrun''⟩ := hserves.query_local hlocal hwf (.inl rfl) hp.build_eq hlen htable hrun
      obtain ⟨hrun', -⟩ | ⟨rows', hrun', hout'⟩ := hout'
      · cases hrun''.symm.trans hrun'
      · cases hrun''.symm.trans hrun'
        rw [hout, hout']

end Reads

/-! ## Two structs -/

/-- A name as SQLite compares it. -/
def foldCase (s : CStr) : CStr := s.map toupper

theorem Call.changesCore_of_target {c : Call} {name : CStr} (hc : c.target = some name) :
    c.changesCore = false := by
  cases c <;> first | rfl | cases hc

/-- A struct that can be read before a call can be read after it. -/
theorem Readable.exec {dialect : C2SqlDialect} {e : Engine (Catalog SqlValue)} {a b m : CStr}
    {ptr : SchemaPtr} {schema : SqlRDBSchema} {h h' : TableHandle}
    (hr : Readable dialect e b ptr schema h) {c : Call} (hc : c.target = some a)
    {its its' : List SqlRDBStmt} {reply : Reply}
    (hexec : c.exec (driver dialect e) ⟨h, its⟩ = (reply, ⟨h', its'⟩))
    (hf : Framed dialect e m h h') : Readable dialect e b ptr schema h' := by
  have hcore := bracketed_exec (driver dialect e) (Call.changesCore_of_target hc) ⟨h, its⟩
  rw [hexec] at hcore
  have hview {γ : Type} (V : SqlRDBHandle Unit → γ)
      (hV : V h.core.locked.unlocked = V h.core) : V h'.core = V h.core := by
    obtain hcore | hcore := hcore
    · exact congrArg V hcore
    · exact (congrArg V hcore).trans hV
  exact ⟨hf.sound, (hview (fun v => v.valid) rfl).trans hr.valid,
    ⟨fun call k => by rw [hf.faults]; exact hr.calm.faults call k,
      fun k => (congrFun (hview (fun v => v.heap.fails) rfl) k).trans (hr.calm.heap k)⟩,
    (hview (fun v => v.lookup b) rfl).trans hr.lookup_eq,
    (hview (fun v => v.lookupPtr b) rfl).trans hr.ptr_eq,
    (hview (fun v => v.deref ptr) rfl).trans hr.deref_eq⟩

/-- The semantics of the samples, with names as SQLite compares them. -/
def foldedSemantics : SqlSemantics := { plainSemantics with fold := foldCase }

/-- What `PRAGMA table_info` reports of a declared column. -/
def declInfo (i : ℕ) (c : ColumnDecl) : ColumnInfo :=
  ⟨BitVec.ofNat 64 i, c.name, (c.type.head?).getD [], if c.notNull then 1 else 0, .null,
    if c.primaryKey then 1 else 0⟩

/-- An engine that answers `PRAGMA table_info` about the tables of some names, and other PRAGMAs
with no rows. -/
def pragmaEngine (names : List CStr) : Engine (Catalog SqlValue) :=
  { sqlEngine foldedSemantics with
    compiles := fun sql => sql.head? == some 80 || (sqlEngine foldedSemantics).compiles sql
    run := fun sql values db =>
      if sql.head? = some 80 then
        let table := do
          let name ← names.find? fun n => sql == pragmaSql "PRAGMA table_info(\"" n
          db (foldCase name)
        some ⟨((table.map fun t => t.columns.mapIdx declInfo).getD []).map ColumnInfo.row, db, none⟩
      else (sqlEngine foldedSemantics).run sql values db }

theorem head_append_ne {l rest : CStr} {x : UInt8} (h : l.head? = some x) (hx : x ≠ 80) :
    (l ++ rest).head? ≠ some 80 := by
  rw [List.head?_append, h]
  exact fun heq => hx (Option.some.inj heq)

theorem head_buildInsert (s : SqlRDBSchema) (d : C2SqlDialect) (n : ℕ) :
    (buildInsert s d n).1.head? = some 73 := by
  simp only [buildInsert, List.append_assoc]
  exact List.head?_append.trans rfl

/-- No text of the builder is a PRAGMA. -/
theorem head_of_build {spec : SqlRDBQuerySpec} {sql : CStr} {n : ℕ}
    (hb : internalQbBuild spec = .ok (sql, n)) : sql.head? ≠ some 80 := by
  have hcond (hop : isCondOp spec.op = true) {col : CStr}
      (hcol : isFieldOp spec.op = true → spec.targetCol = some col) {x : UInt8}
      (hhead : (headText spec.op spec.schema spec.dialect col).1.head? = some x) (hx : x ≠ 80) :
      sql.head? ≠ some 80 := by
    rw [internalQbBuild_eq hop hcol] at hb
    split_ifs at hb
    cases hb
    exact head_append_ne hhead hx
  obtain ⟨op, schema, cond, newCol, targetCol, d⟩ := spec
  have hnone (hf : isFieldOp op = false) : isFieldOp op = true → targetCol = some [] := by
    rw [hf]
    rintro ⟨⟩
  cases op with
  | create =>
    cases hb
    simp only [buildCreate, List.append_assoc]
    exact head_append_ne (x := 67) rfl (by decide)
  | alterAdd =>
    cases newCol with
    | none => cases hb
    | some col =>
      cases hb
      simp only [buildAlterAdd, List.append_assoc]
      exact head_append_ne (x := 65) rfl (by decide)
  | insert =>
    have hsql : _ = sql := congrArg Prod.fst (Except.ok.inj hb)
    rw [← hsql, head_buildInsert]
    decide
  | upsert =>
    have hsql : _ = sql := congrArg Prod.fst (Except.ok.inj hb)
    rw [← hsql]
    simp only [buildUpsert, List.append_assoc]
    exact head_append_ne (head_buildInsert _ _ _) (by decide)
  | select =>
    refine hcond rfl (hnone rfl) (x := 83) ?_ (by decide)
    simp only [headText, List.append_assoc]
    exact List.head?_append.trans rfl
  | count =>
    refine hcond rfl (hnone rfl) (x := 83) ?_ (by decide)
    simp only [headText, List.append_assoc]
    exact List.head?_append.trans rfl
  | delete =>
    refine hcond rfl (hnone rfl) (x := 68) ?_ (by decide)
    simp only [headText, List.append_assoc]
    exact List.head?_append.trans rfl
  | updateField =>
    cases targetCol with
    | none => cases hb
    | some col =>
      refine hcond rfl (fun _ => rfl) (x := 85) ?_ (by decide)
      simp only [headText, List.append_assoc]
      exact List.head?_append.trans rfl
  | selectField =>
    cases targetCol with
    | none => cases hb
    | some col =>
      refine hcond rfl (fun _ => rfl) (x := 83) ?_ (by decide)
      simp only [headText, List.append_assoc]
      exact List.head?_append.trans rfl

theorem serves_pragmaEngine (names : List CStr) : (pragmaEngine names).Serves foldedSemantics where
  run_eq spec sql n _ hb := by
    funext values db
    exact if_neg (head_of_build hb)

theorem local_foldedSemantics : foldedSemantics.Local := fun _ _ _ _ _ => rfl

/-- A new handle on a database without tables. -/
def noTables : TableHandle :=
  freshHandle ⟨⟨⟨fun _ => none, []⟩, 0, fun _ _ => none, 0⟩, fun _ => none, 1, 0⟩
    ⟨fun _ => false, fun _ => false, 0, 1, ⟨[], [], none⟩, false⟩

/-- The handle after the struct of the persons has been registered under the names. -/
def registerNames (names : List CStr) : List (Option SqlRDBResult) × TableHandle :=
  names.foldl (fun acc n =>
    let res := sqlRDBRegisterStruct (driver .sqlite (pragmaEngine names)) 8 (some n)
      (some (personsCols.map some)) acc.2
    (acc.1 ++ [res.1], res.2)) ([], noTables)

/-- Two names that differ in the case. -/
def twoCases : List CStr := [lit "persons", lit "Persons"]

/-- Two names that differ in more than the case. -/
def twoNames : List CStr := [lit "persons", lit "people"]

theorem Registering.of_isSome {σ : Type} {d : SqlRDBDriver σ} {h h₁ : SqlRDBHandle σ}
    (hrun : Registering d h h₁) {fuel : ℕ} {name : Option CStr}
    {cols : Option (List (Option SqlRDBColumnDef))}
    (hsome : (sqlRDBRegisterStruct d fuel name cols h₁).1.isSome = true) :
    Registering d h (sqlRDBRegisterStruct d fuel name cols h₁).2 := by
  obtain ⟨r, hr⟩ := Option.isSome_iff_exists.1 hsome
  exact hrun.register (Prod.ext hr rfl)

theorem unused_noTables : noTables.Unused := ⟨rfl, rfl, SqlRDBStmtCache.represents_nil _ _, rfl⟩

theorem registering_twoNames :
    Registering (driver .sqlite (pragmaEngine twoNames)) noTables (registerNames twoNames).2 := by
  simp only [registerNames, twoNames, List.foldl]
  refine .of_isSome (.of_isSome .start ?_) ?_ <;> decide +kernel

/-- A call that writes a person. -/
def writePerson : Call := .write (some (lit "persons")) (some fun _ => 0) none

end C2Sql
