import C2Sql.PgCatalog
import C2Sql.Registration
import C2Sql.StrictOption
import C2Sql.UniqueFlags
import Mathlib.Algebra.Order.BigOperators.Group.List

/-!
# Table synchronisation

`c2sql_internal_migrate_table` against a database whose catalog reports the layout of a table.

* `ColumnMatches`, `CommonMatch`: the comparison of a layout with a schema;
* `ReadsAs`: the layout that `read_existing` returns;
* `AltersAppend`: every ALTER TABLE appends its column to the layout;
* `migrate_accepts_iff`: when the synchronisation succeeds, and what it executes.
-/

namespace C2Sql

open StateLogic

variable {Db : Type} {dialect : C2SqlDialect} {e : Engine Db} {schema : SqlRDBSchema}

/-! ## The comparison -/

/-- A column of a table is as a schema wants it. -/
structure ColumnMatches (sc : SqlRDBColumnDef) (dc : DbCol) : Prop where
  name : sc.name = dc.name
  typeClass : schemaTypeClass sc.type = dc.typeClass
  notnull : (!sc.nullable) = dc.notnull
  pk : sc.pk = dc.pk
  unique : sc.unique = true → sc.pk = false → dc.isUnique = true

theorem compareColumns_eq_zero_iff {sc : SqlRDBColumnDef} {dc : DbCol} :
    compareColumns sc dc = 0 ↔ ColumnMatches sc dc := by
  unfold compareColumns
  constructor
  · intro h
    split_ifs at h with hname htype hnull hpk huniq
    refine ⟨not_not.1 hname, not_not.1 htype, not_not.1 hnull, not_not.1 hpk, ?_⟩
    intro hu hp
    simpa [hu, hp] using huniq
  · rintro ⟨hname, htype, hnull, hpk, huniq⟩
    rw [if_neg (not_not.2 hname), if_neg (not_not.2 htype), if_neg (not_not.2 hnull),
      if_neg (not_not.2 hpk), if_neg]
    intro h
    simp only [Bool.and_eq_true, Bool.not_eq_true'] at h
    rw [huniq h.1.1 h.1.2] at h
    exact Bool.noConfusion h.2

/-- Every position that the schema and the layout have in common matches. -/
def CommonMatch (cols : List SqlRDBColumnDef) (dbCols : List DbCol) : Prop :=
  ∀ p ∈ cols.zip dbCols, ColumnMatches p.1 p.2

theorem firstDiff_eq_none_iff (i : ℕ) (cols : List SqlRDBColumnDef) (dbCols : List DbCol) :
    firstDiff i cols dbCols = none ↔ CommonMatch cols dbCols := by
  induction cols generalizing i dbCols with
  | nil => simp [firstDiff, CommonMatch]
  | cons sc scs ih =>
    cases dbCols with
    | nil => simp [firstDiff, CommonMatch]
    | cons dc dcs =>
      have hzip : CommonMatch (sc :: scs) (dc :: dcs) ↔
          ColumnMatches sc dc ∧ CommonMatch scs dcs := by
        simp only [CommonMatch, List.zip_cons_cons, List.forall_mem_cons]
      rw [firstDiff, hzip, ← compareColumns_eq_zero_iff, ← ih (i + 1) dcs]
      by_cases h : compareColumns sc dc = 0
      · simp [h]
      · simp [h]

/-- A layout of the length of the schema matches everywhere. -/
theorem commonMatch_iff_forall₂ {cols : List SqlRDBColumnDef} {dbCols : List DbCol}
    (hlen : dbCols.length = cols.length) :
    CommonMatch cols dbCols ↔ List.Forall₂ ColumnMatches cols dbCols := by
  rw [List.forall₂_iff_zip]
  simp only [CommonMatch, Prod.forall, hlen, true_and]

/-- What the synchronisation accepts. -/
structure SyncAccepts (config : SqlRDBConfig) (isStrict : Bool) (cols : List SqlRDBColumnDef)
    (dbCols : List DbCol) : Prop where
  strict : isStrict = true ∨ config.requireStrict = false
  common : CommonMatch cols dbCols
  length : dbCols.length = cols.length ∨ dbCols.length < cols.length ∧ config.autoMigrate = true

/-! ## Layouts -/

/-- `read_existing` returns the layout, if nothing fails on its own. -/
def ReadsAs (dialect : C2SqlDialect) (e : Engine Db) (table : CStr) (db : Db)
    (dbCols : List DbCol) : Prop :=
  ∃ rows, ∀ fuel ≥ rows, ∀ h : SqlRDBHandle (Session Db), h.store.contents = db →
    wp (readExisting (driver dialect e) fuel table) (Produces h dbCols) h

/-- `check_strict` finds the option, if nothing fails on its own. PostgreSQL is not asked. -/
def DetectsStrict (dialect : C2SqlDialect) (e : Engine Db) (table : CStr) (db : Db)
    (isStrict : Bool) : Prop :=
  match dialect with
  | .postgres => isStrict = true
  | .sqlite => ∀ h : SqlRDBHandle (Session Db), h.store.contents = db →
      wp (checkStrict (driver .sqlite e) table) (fun res h' => h.SameWorld h' ∧
        (res = some isStrict ∨ ¬h.Calm ∧ res = some false)) h

/-- The type class that is read for a column which was declared with the type. PostgreSQL reports
the names of the types in lower case. -/
def declaredClass (dialect : C2SqlDialect) (t : SqlRDBType) : SqlRDBType :=
  match dialect with
  | .sqlite => typeClassFromStr (typeToSqlStr t .sqlite)
  | .postgres => typeClassFromPg ((typeToSqlStr t .postgres).map tolower)

/-- The type is one of the header. -/
def SqlRDBType.Known (t : SqlRDBType) : Prop := ∀ v, t ≠ .other v

theorem declaredClass_eq_iff {t : SqlRDBType} :
    schemaTypeClass t = declaredClass dialect t ↔ t.Known := by
  cases dialect <;> cases t
  all_goals first
    | exact iff_of_true (by decide) (fun v => SqlRDBType.noConfusion)
    | exact iff_of_false (fun h => SqlRDBType.noConfusion h) (fun h => h _ rfl)

/-- A column of a layout as its declaration says. -/
structure DeclaredAs (dialect : C2SqlDialect) (col : SqlRDBColumnDef) (dc : DbCol) : Prop where
  name : dc.name = copyFit migMaxName (some col.name)
  typeClass : dc.typeClass = declaredClass dialect col.type
  notnull : dc.notnull = !col.nullable
  pk : dc.pk = col.pk
  unique : dc.isUnique = (col.unique && !col.pk)

theorem copyFit_eq_self {n : ℕ} {s : CStr} (hlen : s.length < n) (h0 : 0 ∉ s) :
    copyFit n (some s) = s := by
  rw [copyFit, if_pos hlen, cstr, List.takeWhile_eq_self_iff]
  intro c hc
  exact decide_eq_true fun h => h0 (h ▸ hc)

/-- The column can be added: its name fits the buffer of the catalog reader, and its type is one of
the header. -/
def Addable (col : SqlRDBColumnDef) : Prop := col.name.length < migMaxName ∧ col.type.Known

/-- A column that has been added matches, if it can be added. -/
theorem DeclaredAs.matches_iff {col : SqlRDBColumnDef} {dc : DbCol}
    (h : DeclaredAs dialect col dc) (hid : identifierValid col.name = true) :
    ColumnMatches col dc ↔ Addable col := by
  have hident := (isIdentifier_iff col.name).2 hid
  constructor
  · intro hm
    refine ⟨?_, declaredClass_eq_iff.1 (hm.typeClass.trans h.typeClass)⟩
    by_contra hlong
    have hname : col.name = [] := by
      rw [hm.name, h.name, copyFit, if_neg hlong]
    have hpos := hident.length_pos
    rw [hname] at hpos
    exact absurd hpos (by decide)
  · rintro ⟨hlen, hknown⟩
    refine ⟨?_, ?_, h.notnull.symm, h.pk.symm, fun hu hp => ?_⟩
    · rw [h.name, copyFit_eq_self hlen (zero_notMem_of_isIdentifier hident)]
    · rw [h.typeClass, declaredClass_eq_iff.2 hknown]
    · rw [h.unique, hu, hp]
      rfl

/-- The layout after the columns have been added. -/
theorem commonMatch_append_iff {cols : List SqlRDBColumnDef} {dbCols added : List DbCol}
    (hid : ∀ c ∈ cols, identifierValid c.name = true) (hle : dbCols.length ≤ cols.length)
    (hadded : List.Forall₂ (DeclaredAs dialect) (cols.drop dbCols.length) added) :
    CommonMatch cols (dbCols ++ added) ↔
      CommonMatch cols dbCols ∧ ∀ c ∈ cols.drop dbCols.length, Addable c := by
  have hnew : (∀ p ∈ (cols.drop dbCols.length).zip added, ColumnMatches p.1 p.2) ↔
      ∀ c ∈ cols.drop dbCols.length, Addable c := by
    have hid' : ∀ c ∈ cols.drop dbCols.length, identifierValid c.name = true :=
      fun c hc => hid c (List.mem_of_mem_drop hc)
    generalize cols.drop dbCols.length = missing at hadded hid'
    induction hadded with
    | nil => simp
    | cons hdc _ ih =>
      obtain ⟨hfirst, hrest⟩ := List.forall_mem_cons.1 hid'
      rw [List.zip_cons_cons, List.forall_mem_cons, List.forall_mem_cons]
      exact and_congr (hdc.matches_iff hfirst) (ih hrest)
  have htake : (cols.take dbCols.length).zip dbCols = cols.zip dbCols := by
    symm
    rw [List.zip_eq_zip_take_min, Nat.min_eq_right hle, List.take_length]
  have hsplit : cols.zip (dbCols ++ added) =
      cols.zip dbCols ++ (cols.drop dbCols.length).zip added := by
    conv_lhs => rw [← List.take_append_drop dbCols.length cols]
    rw [List.zip_append (by rw [List.length_take, Nat.min_eq_left hle]), htake]
  rw [CommonMatch, hsplit, List.forall_mem_append, hnew]
  rfl

/-! ## Statements that are executed -/

/-- The database after statements that are executed in turn. -/
def executes (e : Engine Db) : List CStr → Db → Option Db
  | [], db => some db
  | sql :: sqls, db => (e.run sql [] db).bind fun o => executes e sqls o.db

/-- Each ALTER TABLE succeeds, and appends its column to the layout. -/
def AltersAppend (dialect : C2SqlDialect) (e : Engine Db) (schema : SqlRDBSchema) :
    List SqlRDBColumnDef → Db → List DbCol → Prop
  | [], _, _ => True
  | col :: cols, db, dbCols => ∃ o dc, e.run (buildAlterAdd schema dialect col) [] db = some o ∧
      DeclaredAs dialect col dc ∧ ReadsAs dialect e schema.name o.db (dbCols ++ [dc]) ∧
      AltersAppend dialect e schema cols o.db (dbCols ++ [dc])

/-- A later state of a handle on a database with other contents. -/
structure SqlRDBHandle.Reached (h h' : SqlRDBHandle (Session Db)) (db : Db) : Prop where
  faults : h'.ctx.conn.faults = h.ctx.conn.faults
  contents : h'.store.contents = db
  fails : h'.heap.fails = h.heap.fails
  core : h'.core = h.core

section Reached

variable {h h' h'' : SqlRDBHandle (Session Db)} {db db' : Db}

theorem SqlRDBHandle.Reached.trans (hr : h.Reached h' db) (hr' : h'.Reached h'' db') :
    h.Reached h'' db' where
  faults := hr'.faults.trans hr.faults
  contents := hr'.contents
  fails := hr'.fails.trans hr.fails
  core := hr'.core.trans hr.core

theorem SqlRDBHandle.Reached.calm (hr : h.Reached h' db) (hc : h.Calm) : h'.Calm where
  faults := hr.faults ▸ hc.faults
  heap := hr.fails ▸ hc.heap

theorem SqlRDBHandle.Reached.config (hr : h.Reached h' db) : h'.config = h.config :=
  congrArg (fun v => v.config) hr.core

theorem SqlRDBHandle.SameWorld.reached (hw : h.SameWorld h') (hcore : h'.core = h.core) :
    h.Reached h' h.store.contents :=
  ⟨hw.faults, hw.contents, hw.fails, hcore⟩

end Reached

/-- The query builder builds a text, or there is no memory for it. -/
theorem qbBuild_reached {spec : SqlRDBQuerySpec} {sql : CStr} {n : ℕ}
    (hbuild : internalQbBuild spec = .ok (sql, n)) (h : SqlRDBHandle (Session Db)) :
    wp (qbBuild spec) (fun res h' => h.Reached h' h.store.contents ∧
      (res = .ok (sql, n) ∨ ¬h.Calm ∧ res = .error .errNoMemory)) h := by
  simp only [qbBuild, wp_bind, wp_malloc, wp_pure]
  refine ⟨⟨rfl, rfl, rfl, rfl⟩, ?_⟩
  cases hf : h.heap.fails h.heap.tick with
  | false => exact .inl hbuild
  | true => exact .inr ⟨fun hcalm => by simp [hcalm.heap] at hf, rfl⟩

/-- A statement is executed, or it fails without effect. -/
theorem exec_reached (sql : CStr) (h : SqlRDBHandle (Session Db)) :
    wp (drv ((driver dialect e).exec sql)) (fun r h' =>
      (r ≠ .ok ∧ h.Reached h' h.store.contents ∧
        (h.Calm → e.run sql [] h.store.contents = none)) ∨
      r = .ok ∧ ∃ o, e.run sql [] h.store.contents = some o ∧ h.Reached h' o.db) h := by
  rw [wp_drv, wp]
  simp only [driver, onConn, Conn.call, Conn.fault]
  cases hf : h.ctx.conn.faults .exec h.ctx.conn.tick with
  | some f =>
    refine .inl ⟨f.code_ne_ok, ⟨rfl, rfl, rfl, rfl⟩, fun hcalm => ?_⟩
    rw [hcalm.faults] at hf
    cases hf
  | none =>
    simp only [Conn.execute]
    cases hrun : e.run sql [] h.ctx.conn.store.contents with
    | none => exact .inl ⟨SqlRDBResult.noConfusion, ⟨rfl, rfl, rfl, rfl⟩, fun _ => hrun⟩
    | some o => exact .inr ⟨rfl, o, hrun, rfl, rfl, rfl, rfl⟩

/-- The layout after the ALTER TABLE loop. -/
theorem AltersAppend.executes {cols : List SqlRDBColumnDef} {db : Db} {dbCols : List DbCol}
    (hread : ReadsAs dialect e schema.name db dbCols)
    (halter : AltersAppend dialect e schema cols db dbCols) :
    ∃ db' added, C2Sql.executes e (cols.map (buildAlterAdd schema dialect)) db = some db' ∧
      List.Forall₂ (DeclaredAs dialect) cols added ∧
      ReadsAs dialect e schema.name db' (dbCols ++ added) := by
  induction cols generalizing db dbCols with
  | nil =>
    refine ⟨db, [], rfl, .nil, ?_⟩
    rw [List.append_nil]
    exact hread
  | cons col cols ih =>
    obtain ⟨o, dc, hrun, hdc, hread', hrest⟩ := halter
    obtain ⟨db', added, hexec, hadded, hfinal⟩ := ih hread' hrest
    refine ⟨db', dc :: added, ?_, .cons hdc hadded, ?_⟩
    · rw [List.map_cons, C2Sql.executes, hrun, Option.bind_some, hexec]
    · rw [List.append_assoc, List.singleton_append] at hfinal
      exact hfinal

/-- **The ALTER TABLE loop** executes its statements. -/
theorem alterAdd_executes {cols : List SqlRDBColumnDef} {h : SqlRDBHandle (Session Db)}
    (hcalm : h.Calm) {db : Db}
    (hexec : executes e (cols.map (buildAlterAdd schema dialect)) h.store.contents = some db) :
    wp (alterAdd (driver dialect e) schema cols) (fun r h' => r = .ok ∧ h.Reached h' db) h := by
  induction cols generalizing h with
  | nil =>
    cases hexec
    exact ⟨rfl, rfl, rfl, rfl, rfl⟩
  | cons col cols ih =>
    obtain ⟨o, hrun, hrest⟩ := Option.bind_eq_some_iff.1 hexec
    rw [alterAdd, wp_bind]
    refine wp_mono (qbBuild_reached rfl h) ?_
    rintro _ h₁ ⟨hr₁, rfl | ⟨hnot, -⟩⟩
    swap
    · exact absurd hcalm hnot
    dsimp only
    rw [wp_bind]
    refine wp_mono (exec_reached _ h₁) ?_
    rw [hr₁.contents, show (driver dialect e).dialect = dialect from rfl, hrun]
    rintro r h₂ (⟨-, -, hnone⟩ | ⟨rfl, _, ho, hr₂⟩)
    · cases hnone (hr₁.calm hcalm)
    cases ho
    have hr := hr₁.trans hr₂
    rw [if_neg (not_not.2 rfl)]
    rw [← hr.contents] at hrest
    refine wp_mono (ih (hr.calm hcalm) hrest) ?_
    rintro r h₃ ⟨rfl, hr₃⟩
    exact ⟨rfl, hr.trans hr₃⟩

/-! ## The decision -/

/-- What a reader of the catalog produces when nothing fails on its own. -/
theorem Produces.calm {α : Type} {h h' : SqlRDBHandle (Session Db)} {x : α}
    {res : Option (SqlRDBResult × α)} (hp : Produces h x res h') (hcalm : h.Calm) :
    res = some (.ok, x) :=
  hp.2.resolve_right fun hf => hf.1 hcalm

/-- `read_existing` on a handle on which nothing fails. -/
theorem readExisting_calm {h : SqlRDBHandle (Session Db)} (hcalm : h.Calm) {fuel : ℕ}
    {dbCols : List DbCol}
    (hread : wp (readExisting (driver dialect e) fuel schema.name) (Produces h dbCols) h) :
    wp (readExisting (driver dialect e) fuel schema.name)
      (fun res h' => res = some (.ok, dbCols) ∧ h.Reached h' h.store.contents) h :=
  ⟨hread.calm hcalm, hread.1.reached ((background_core _).readExisting fuel _ h)⟩

/-- The comparison after the ALTER TABLE loop. -/
theorem revalidate_calm {h : SqlRDBHandle (Session Db)} (hcalm : h.Calm) {fuel : ℕ}
    {dbCols : List DbCol}
    (hread : wp (readExisting (driver dialect e) fuel schema.name) (Produces h dbCols) h) :
    wp (revalidate (driver dialect e) fuel schema) (fun res h' =>
      h.Reached h' h.store.contents ∧ ∃ r, res = some r ∧ (r = .ok ∨ r = .errSchemaMismatch) ∧
        (r = .ok ↔ dbCols.length = schema.cols.length ∧ CommonMatch schema.cols dbCols)) h := by
  rw [revalidate, wp_bind]
  refine wp_mono (readExisting_calm hcalm hread) ?_
  rintro _ h' ⟨rfl, hr⟩
  dsimp only
  rw [if_neg (not_not.2 rfl), ← firstDiff_eq_none_iff 0]
  by_cases hlen : dbCols.length = schema.cols.length
  · rw [if_neg (not_not.2 hlen)]
    cases hdiff : firstDiff 0 schema.cols dbCols with
    | some d =>
      refine ⟨⟨hr.faults, hr.contents, hr.fails, hr.core⟩, _, rfl, .inr rfl,
        iff_of_false SqlRDBResult.noConfusion ?_⟩
      rintro ⟨-, ⟨⟩⟩
    | none => exact ⟨hr, _, rfl, .inl rfl, iff_of_true rfl ⟨hlen, rfl⟩⟩
  · rw [if_pos hlen]
    exact ⟨⟨hr.faults, hr.contents, hr.fails, hr.core⟩, _, rfl, .inr rfl,
      iff_of_false SqlRDBResult.noConfusion fun h => hlen h.1⟩

/-- What the synchronisation returns, and the contents that it leaves: the new ones if the first
comparison accepts the table, else the old ones. -/
def SyncOutcome (accepts addable : Prop) (old new : Db) (h : SqlRDBHandle (Session Db))
    (res : Option SqlRDBResult) (h' : SqlRDBHandle (Session Db)) : Prop :=
  ∃ r db, res = some r ∧ h.Reached h' db ∧ (r = .ok ∨ r = .errSchemaMismatch) ∧
    (r = .ok ↔ accepts ∧ addable) ∧ (accepts → db = new) ∧ (¬accepts → db = old)

theorem SyncOutcome.rejected {accepts addable : Prop} {old new : Db}
    {h h' : SqlRDBHandle (Session Db)} (hnot : ¬accepts) (hr : h.Reached h' old) :
    SyncOutcome accepts addable old new h (some .errSchemaMismatch) h' :=
  ⟨.errSchemaMismatch, old, rfl, hr, .inr rfl,
    iff_of_false SqlRDBResult.noConfusion fun ha => hnot ha.1, fun ha => absurd ha hnot,
    fun _ => rfl⟩

/-- The comparison, and the migration that it calls for. -/
theorem syncColumns_calm {h : SqlRDBHandle (Session Db)} (hcalm : h.Calm) {fuel : ℕ}
    {dbCols added : List DbCol} (hid : ∀ c ∈ schema.cols, identifierValid c.name = true) {db : Db}
    (hexec : executes e ((schema.cols.drop dbCols.length).map (buildAlterAdd schema dialect))
      h.store.contents = some db)
    (hadded : List.Forall₂ (DeclaredAs dialect) (schema.cols.drop dbCols.length) added)
    (hread : ∀ h' : SqlRDBHandle (Session Db), h'.store.contents = db →
      wp (readExisting (driver dialect e) fuel schema.name) (Produces h' (dbCols ++ added)) h') :
    wp (syncColumns (driver dialect e) fuel schema dbCols)
      (SyncOutcome (SyncAccepts h.config true schema.cols dbCols)
        (∀ c ∈ schema.cols.drop dbCols.length, Addable c) h.store.contents db h) h := by
  rw [syncColumns]
  cases hdiff : firstDiff 0 schema.cols dbCols with
  | some d =>
    refine .rejected (fun ha => ?_) ⟨rfl, rfl, rfl, rfl⟩
    rw [(firstDiff_eq_none_iff 0 _ _).2 ha.common] at hdiff
    cases hdiff
  | none =>
    have hcommon := (firstDiff_eq_none_iff 0 _ _).1 hdiff
    dsimp only
    rcases lt_trichotomy dbCols.length schema.cols.length with hlt | heq | hgt
    · rw [if_neg hlt.not_gt, if_pos hlt, wp_bind, wp_get]
      cases hauto : h.config.autoMigrate with
      | false =>
        refine .rejected (fun ha => ?_) ⟨rfl, rfl, rfl, rfl⟩
        rcases ha.length with hl | ⟨-, hl⟩
        · exact hlt.ne hl
        · rw [hauto] at hl
          cases hl
      | true =>
        have haccepts : SyncAccepts h.config true schema.cols dbCols :=
          ⟨.inl rfl, hcommon, .inr ⟨hlt, hauto⟩⟩
        rw [Bool.not_true, if_neg Bool.false_ne_true, wp_bind]
        refine wp_mono (alterAdd_executes hcalm hexec) ?_
        rintro _ h₁ ⟨rfl, hr₁⟩
        rw [if_neg (not_not.2 rfl)]
        refine wp_mono (revalidate_calm (hr₁.calm hcalm) (hread h₁ hr₁.contents)) ?_
        rintro _ h₂ ⟨hr₂, r, rfl, hcode, hiff⟩
        have hlen : (dbCols ++ added).length = schema.cols.length := by
          rw [List.length_append, ← hadded.length_eq, List.length_drop]
          omega
        refine ⟨r, db, rfl, hr₁.contents ▸ hr₁.trans hr₂, hcode, ?_, fun _ => rfl,
          fun ha => absurd haccepts ha⟩
        rw [hiff, commonMatch_append_iff hid hlt.le hadded]
        exact ⟨fun hm => ⟨haccepts, hm.2.2⟩, fun ha => ⟨hlen, hcommon, ha.2⟩⟩
    · rw [if_neg (by omega), if_neg (by omega)]
      have haccepts : SyncAccepts h.config true schema.cols dbCols :=
        ⟨.inl rfl, hcommon, .inl heq⟩
      rw [heq, List.drop_length] at hexec ⊢
      cases hexec
      exact ⟨.ok, _, rfl, ⟨rfl, rfl, rfl, rfl⟩, .inl rfl,
        iff_of_true rfl ⟨haccepts, List.forall_mem_nil _⟩, fun _ => rfl, fun _ => rfl⟩
    · rw [if_pos hgt]
      refine .rejected (fun ha => ?_) ⟨rfl, rfl, rfl, rfl⟩
      rcases ha.length with hl | ⟨hl, -⟩ <;> omega

theorem SyncAccepts.of_strict {config : SqlRDBConfig} {isStrict : Bool}
    {cols : List SqlRDBColumnDef} {dbCols : List DbCol}
    (hstrict : isStrict = true ∨ config.requireStrict = false) :
    SyncAccepts config isStrict cols dbCols ↔ SyncAccepts config true cols dbCols :=
  ⟨fun ha => ⟨.inl rfl, ha.common, ha.length⟩, fun ha => ⟨hstrict, ha.common, ha.length⟩⟩

/-- The part of `c2sql_internal_migrate_table` after the STRICT option has been looked for. -/
def checkedSync {σ : Type} (d : SqlRDBDriver σ) (fuel : ℕ) (schema : SqlRDBSchema)
    (dbCols : List DbCol) (isStrict : Bool) : Api σ (Option SqlRDBResult) := do
  let h ← get
  if !isStrict && h.config.requireStrict then
    errSet .errSchemaMismatch (lit "Migrate: '" ++ schema.name ++
      lit "' is non-STRICT but require_strict=true")
    pure (some .errSchemaMismatch)
  else
    if !isStrict then internalLog .ok (lit "Migrate: table is non-STRICT (allowed)")
    syncColumns d fuel schema dbCols

theorem SyncOutcome.of_reached {accepts addable : Prop} {old new db : Db}
    {h h' h'' : SqlRDBHandle (Session Db)} {res : Option SqlRDBResult}
    (ho : SyncOutcome accepts addable old new h' res h'') (hr : h.Reached h' db) :
    SyncOutcome accepts addable old new h res h'' := by
  obtain ⟨r, db', hres, hr', hcode⟩ := ho
  exact ⟨r, db', hres, hr.trans hr', hcode⟩

theorem internalLog_reached (code : SqlRDBResult) (message : CStr)
    (h : SqlRDBHandle (Session Db)) :
    wp (internalLog code message) (fun _ h' => h.Reached h' h.store.contents) h := by
  rw [wp, internalLog]
  dsimp only
  split
  · exact ⟨rfl, rfl, rfl, rfl⟩
  · exact ⟨rfl, rfl, rfl, rfl⟩

/-- The option is compared with the configuration before the columns are. -/
theorem checkedSync_calm {h : SqlRDBHandle (Session Db)} (hcalm : h.Calm) {fuel : ℕ}
    {dbCols added : List DbCol} (hid : ∀ c ∈ schema.cols, identifierValid c.name = true) {db : Db}
    (hexec : executes e ((schema.cols.drop dbCols.length).map (buildAlterAdd schema dialect))
      h.store.contents = some db)
    (hadded : List.Forall₂ (DeclaredAs dialect) (schema.cols.drop dbCols.length) added)
    (hread : ∀ h' : SqlRDBHandle (Session Db), h'.store.contents = db →
      wp (readExisting (driver dialect e) fuel schema.name) (Produces h' (dbCols ++ added)) h')
    (isStrict : Bool) :
    wp (checkedSync (driver dialect e) fuel schema dbCols isStrict)
      (SyncOutcome (SyncAccepts h.config isStrict schema.cols dbCols)
        (∀ c ∈ schema.cols.drop dbCols.length, Addable c) h.store.contents db h) h := by
  have hsync : ∀ h₁ : SqlRDBHandle (Session Db), h.Reached h₁ h.store.contents →
      wp (syncColumns (driver dialect e) fuel schema dbCols)
        (SyncOutcome (SyncAccepts h.config true schema.cols dbCols)
          (∀ c ∈ schema.cols.drop dbCols.length, Addable c) h.store.contents db h) h₁ := by
    intro h₁ hr₁
    rw [← hr₁.contents] at hexec
    have hstep := syncColumns_calm (hr₁.calm hcalm) hid hexec hadded hread
    rw [hr₁.config, hr₁.contents] at hstep
    exact wp_mono hstep fun res h₂ hout => hout.of_reached hr₁
  rw [checkedSync, wp_bind, wp_get]
  cases isStrict with
  | true => exact hsync h ⟨rfl, rfl, rfl, rfl⟩
  | false =>
    cases hrequire : h.config.requireStrict with
    | true =>
      refine .rejected (fun ha => ?_) ⟨rfl, rfl, rfl, rfl⟩
      rcases ha.strict with hs | hs
      · cases hs
      · rw [hrequire] at hs
        cases hs
    | false =>
      rw [SyncAccepts.of_strict (.inr hrequire)]
      change wp (internalLog _ _ >>= fun _ => syncColumns (driver dialect e) fuel schema dbCols) _ h
      rw [wp_bind]
      exact wp_mono (internalLog_reached _ _ h) fun _ h₁ hr₁ => hsync h₁ hr₁

/-- The synchronisation of a table. -/
theorem migrate_calm (hid : ∀ c ∈ schema.cols, identifierValid c.name = true)
    {h : SqlRDBHandle (Session Db)} (hcalm : h.Calm) {o : Outcome Db}
    (hcreate : e.run (buildCreate schema dialect) [] h.store.contents = some o)
    {dbCols added : List DbCol} (hne : dbCols ≠ []) {fuel : ℕ}
    (hfirst : ∀ h' : SqlRDBHandle (Session Db), h'.store.contents = o.db →
      wp (readExisting (driver dialect e) fuel schema.name) (Produces h' dbCols) h')
    {isStrict : Bool} (hstrict : DetectsStrict dialect e schema.name o.db isStrict) {db : Db}
    (hexec : executes e ((schema.cols.drop dbCols.length).map (buildAlterAdd schema dialect))
      o.db = some db)
    (hadded : List.Forall₂ (DeclaredAs dialect) (schema.cols.drop dbCols.length) added)
    (hsecond : ∀ h' : SqlRDBHandle (Session Db), h'.store.contents = db →
      wp (readExisting (driver dialect e) fuel schema.name) (Produces h' (dbCols ++ added)) h') :
    wp (internalMigrateTable (driver dialect e) fuel schema)
      (SyncOutcome (SyncAccepts h.config isStrict schema.cols dbCols)
        (∀ c ∈ schema.cols.drop dbCols.length, Addable c) o.db db h) h := by
  rw [internalMigrateTable, wp_bind]
  refine wp_mono (qbBuild_reached rfl h) ?_
  rintro _ h₁ ⟨hr₁, rfl | ⟨hnot, -⟩⟩
  swap
  · exact absurd hcalm hnot
  dsimp only
  rw [wp_bind]
  refine wp_mono (exec_reached _ h₁) ?_
  rw [hr₁.contents, show (driver dialect e).dialect = dialect from rfl, hcreate]
  rintro r h₂ (⟨-, -, hnone⟩ | ⟨rfl, _, ho, hr₂⟩)
  · cases hnone (hr₁.calm hcalm)
  cases ho
  have hr₂ := hr₁.trans hr₂
  rw [if_neg (not_not.2 rfl), wp_bind]
  refine wp_mono (readExisting_calm (hr₂.calm hcalm) (hfirst h₂ hr₂.contents)) ?_
  rintro _ h₃ ⟨rfl, hr₃⟩
  have hr₃ := hr₂.trans (hr₂.contents ▸ hr₃)
  have hlen : dbCols.length ≠ 0 := fun hzero => hne (List.length_eq_zero_iff.1 hzero)
  have hafter : ∀ h₄ : SqlRDBHandle (Session Db), h.Reached h₄ o.db →
      wp (checkedSync (driver dialect e) fuel schema dbCols isStrict)
        (SyncOutcome (SyncAccepts h.config isStrict schema.cols dbCols)
          (∀ c ∈ schema.cols.drop dbCols.length, Addable c) o.db db h) h₄ := by
    intro h₄ hr₄
    rw [← hr₄.contents] at hexec
    have hsync := checkedSync_calm (hr₄.calm hcalm) hid hexec hadded hsecond isStrict
    rw [hr₄.config, hr₄.contents] at hsync
    exact wp_mono hsync fun res h₅ hout => hout.of_reached hr₄
  dsimp only
  rw [if_neg (not_not.2 rfl), if_neg hlen]
  cases dialect with
  | postgres =>
    obtain rfl : isStrict = true := hstrict
    exact hafter h₃ hr₃
  | sqlite =>
    rw [wp_bind]
    obtain ⟨hw, hres⟩ := hstrict h₃ hr₃.contents
    have hr₄ := hw.reached ((background_core (driver .sqlite e)).checkStrict schema.name h₃)
    refine wp_mono (Q := fun res h' => res = some isStrict ∧ h.Reached h' o.db)
      ⟨hres.resolve_right fun hf => hf.1 (hr₃.calm hcalm), hr₃.trans (hr₃.contents ▸ hr₄)⟩ ?_
    rintro _ h₄ ⟨rfl, hr₄⟩
    exact hafter h₄ hr₄

/-- **When the synchronisation succeeds.** Let CREATE TABLE leave a table whose layout is not empty,
and every ALTER TABLE append its column to the layout. If no call and no allocation fails on its
own, the table is accepted exactly if it is STRICT or need not be, every common position matches,
the missing columns are none or may be added, and they have names that fit and types of the header;
its layout matches the schema then. The statements that are executed are CREATE TABLE, and one
ALTER TABLE for each missing column in turn if the first comparison accepts the table; else there
are no others, and the code says so. -/
theorem migrate_accepts_iff (hacc : schema.Accepted) {h : SqlRDBHandle (Session Db)}
    (hcalm : h.Calm) {o : Outcome Db}
    (hcreate : e.run (buildCreate schema dialect) [] h.store.contents = some o)
    {dbCols : List DbCol} (hne : dbCols ≠ []) (hread : ReadsAs dialect e schema.name o.db dbCols)
    {isStrict : Bool} (hstrict : DetectsStrict dialect e schema.name o.db isStrict)
    (halter : AltersAppend dialect e schema (schema.cols.drop dbCols.length) o.db dbCols) :
    ∃ rows, ∀ fuel ≥ rows, ∃ r db,
      (internalMigrateTable (driver dialect e) fuel schema h).1 = some r ∧
      (internalMigrateTable (driver dialect e) fuel schema h).2.store.contents = db ∧
      (r = .ok ↔ SyncAccepts h.config isStrict schema.cols dbCols ∧
        ∀ c ∈ schema.cols.drop dbCols.length, Addable c) ∧
      (r = .ok → ∃ final, ReadsAs dialect e schema.name db final ∧
        List.Forall₂ ColumnMatches schema.cols final) ∧
      (SyncAccepts h.config isStrict schema.cols dbCols →
        executes e (buildCreate schema dialect ::
          (schema.cols.drop dbCols.length).map (buildAlterAdd schema dialect))
            h.store.contents = some db) ∧
      (¬SyncAccepts h.config isStrict schema.cols dbCols → r = .errSchemaMismatch ∧
        executes e [buildCreate schema dialect] h.store.contents = some db) := by
  have hid := ((SqlRDBSchema.accepted_iff schema).1 hacc).col_valid
  obtain ⟨db, added, hexec, hadded, hread'⟩ := halter.executes hread
  obtain ⟨rows, hrows⟩ := id hread
  obtain ⟨rows', hrows'⟩ := id hread'
  refine ⟨max rows rows', fun fuel hfuel => ?_⟩
  obtain ⟨r, db', hres, hr, hcode, hiff, hnew, hold⟩ := migrate_calm hid hcalm hcreate hne
    (hrows fuel ((le_max_left rows rows').trans hfuel)) hstrict hexec hadded
    (hrows' fuel ((le_max_right rows rows').trans hfuel))
  refine ⟨r, db', hres, hr.contents, hiff, fun hok => ?_, fun ha => ?_, fun ha => ⟨?_, ?_⟩⟩
  · obtain ⟨haccepts, haddable⟩ := hiff.1 hok
    have hle : dbCols.length ≤ schema.cols.length :=
      haccepts.length.elim (fun heq => heq.le) fun hlt => hlt.1.le
    have hlen : (dbCols ++ added).length = schema.cols.length := by
      rw [List.length_append, ← hadded.length_eq, List.length_drop]
      omega
    refine ⟨dbCols ++ added, hnew haccepts ▸ hread', (commonMatch_iff_forall₂ hlen).1 ?_⟩
    exact (commonMatch_append_iff hid hle hadded).2 ⟨haccepts.common, haddable⟩
  · rw [executes, hcreate, Option.bind_some, hexec, hnew ha]
  · exact hcode.resolve_left fun hok => ha (hiff.1 hok).1
  · rw [executes, hcreate, Option.bind_some, executes, hold ha]

/-! ## The catalog of SQLite -/

section Sqlite

variable {table : CStr} {cat : TableCatalog table} {db : Db}

/-- The query of `check_strict`. -/
def strictSql (table : CStr) : CStr :=
  lit "SELECT sql FROM sqlite_schema WHERE type='table' AND name='" ++ table ++ lit "'"

/-- Enough rows for every loop over the catalog. -/
def TableCatalog.rowBound (cat : TableCatalog table) : ℕ :=
  cat.columns.length + cat.indexes.length +
    (cat.indexes.map fun idx => idx.columns.length).sum + 1

theorem TableCatalog.fits_of_le {fuel : ℕ} (hfuel : cat.rowBound ≤ fuel) : cat.Fits fuel := by
  rw [rowBound] at hfuel
  refine ⟨by omega, by omega, fun idx hidx => ?_⟩
  have hle := List.single_le_sum (fun _ _ => Nat.zero_le _) _
    (List.mem_map_of_mem (f := fun idx : IndexInfo => idx.columns.length) hidx)
  omega

/-- What the PRAGMAs report is what `read_existing` returns. -/
theorem Reports.readsAs (hrep : Reports e db table cat) (hid : identifierValid table = true) :
    ReadsAs .sqlite e table db
      (flaggedBy (fun name => cat.kept.any fun idx => idx.shortNames == [name]) cat.columns) := by
  refine ⟨cat.rowBound, fun fuel hfuel h hdb => ?_⟩
  rw [← hdb] at hrep
  exact readExisting_spec hrep ((isIdentifier_iff table).2 hid) (TableCatalog.fits_of_le hfuel)

/-- The text of the table is what `check_strict` scans. -/
theorem detectsStrict_of_answers (hid : identifierValid table = true) {text : CStr}
    {isStrict : Bool} (ha : Answers e db (strictSql table) [[.text text]])
    (htoText : ∀ s, e.toText (.text s) = s) (hscan : strictOfText text = some isStrict) :
    DetectsStrict .sqlite e table db isStrict := by
  intro h hdb
  have hlen : table.length ≤ 128 := ((isIdentifier_iff table).2 hid).length_le
  have hsql : sql256 (strictSql table) = strictSql table := by
    refine List.take_of_length_le ?_
    have hhead : (lit "SELECT sql FROM sqlite_schema WHERE type='table' AND name='").length = 59 :=
      by decide
    have hlast : (lit "'").length = 1 := by decide
    rw [strictSql, List.length_append, List.length_append, hhead, hlast]
    omega
  rw [← hdb] at ha
  rw [checkStrict, ← strictSql, hsql, wp_bind]
  refine wp_mono (prepare_answers ha) ?_
  rintro ⟨r, id⟩ h₁ ⟨hw₁, ⟨hne, hnot⟩ | ⟨hr, hserves⟩⟩
  · dsimp only
    rw [if_pos hne]
    exact ⟨hw₁, .inr ⟨hnot, rfl⟩⟩
  · dsimp only at hr hserves ⊢
    subst hr
    rw [if_neg (not_not.2 rfl), wp_bind]
    refine wp_mono (step_serves hserves) ?_
    rintro ⟨r, hasRow⟩ h₂ ⟨hw₂, ⟨hne, hnot⟩ | ⟨hres, hrow⟩⟩
    · dsimp only
      rw [if_pos (.inl hne)]
      exact ⟨(hw₁.trans hw₂).trans ⟨rfl, rfl, rfl⟩, .inr ⟨hnot ∘ hw₁.calm, rfl⟩⟩
    · cases hres
      dsimp only
      rw [if_neg (by simp)]
      have htext : columnText .sqlite e (cell [.text text] 0) = some text :=
        congrArg some (htoText text)
      have hread := columnText_onRow hrow 0
      rw [htext] at hread
      refine .of_run (bind_of_run hread) ?_
      dsimp only
      rw [hscan]
      exact ⟨(hw₁.trans hw₂).trans ⟨rfl, rfl, rfl⟩, .inl rfl⟩

end Sqlite

/-! ## Samples -/

/-- What `PRAGMA table_info` reports of a column that was created for a member of a struct. -/
def createdInfo (i : ℕ) (c : SqlRDBColumnDef) : ColumnInfo :=
  ⟨BitVec.ofNat 64 i, c.name, typeToSqlStr c.type .sqlite, if c.nullable then 0 else 1, .null,
    if c.pk then 1 else 0⟩

/-- The answers of a database that holds the first `n` columns of the table of a struct without
UNIQUE columns. -/
def layoutAnswer (s : SqlRDBSchema) (n : ℕ) (sql : CStr) : Option (Outcome ℕ) :=
  if sql = pragmaSql "PRAGMA table_info(\"" s.name then
    some ⟨((s.cols.mapIdx createdInfo).take n).map ColumnInfo.row, n, none⟩
  else if sql = pragmaSql "PRAGMA index_list(\"" s.name then some ⟨[], n, none⟩
  else if sql = strictSql s.name then
    some ⟨if n = 0 then [] else [[.text (buildCreate s .sqlite)]], n, none⟩
  else if sql = buildCreate s .sqlite then some ⟨[], if n = 0 then s.cols.length else n, none⟩
  else if n ≠ 0 ∧ (s.cols[n]?).map (buildAlterAdd s .sqlite) = some sql then
    some ⟨[], n + 1, none⟩
  else none

/-- An engine with these answers. -/
def layoutEngine (s : SqlRDBSchema) : Engine ℕ where
  compiles _ := true
  run sql _ n := layoutAnswer s n sql
  toInt64
    | .int v => v
    | _ => 0
  toReal _ := 0
  toText
    | .text s => s
    | _ => []
  toBlob _ := []

theorem run_layoutEngine (s : SqlRDBSchema) (sql : CStr) (values : List SqlValue) (n : ℕ) :
    (layoutEngine s).run sql values n = layoutAnswer s n sql := rfl

theorem map_createdInfo {β : Type} {f : ColumnInfo → β} {g : SqlRDBColumnDef → β}
    (hfg : ∀ i c, f (createdInfo i c) = g c) (cols : List SqlRDBColumnDef) :
    (cols.mapIdx createdInfo).map f = cols.map g := by
  refine List.ext_getElem? fun i => ?_
  rw [List.getElem?_map, List.getElem?_mapIdx, List.getElem?_map, Option.map_map]
  exact congrArg (fun k => Option.map k cols[i]?) (funext (hfg i))

theorem map_name_createdInfo (cols : List SqlRDBColumnDef) :
    (cols.mapIdx createdInfo).map ColumnInfo.name = cols.map fun c => c.name :=
  map_createdInfo (fun _ _ => rfl) cols

/-- The catalog of that database. -/
def layoutCatalog (s : SqlRDBSchema) (hs : s.WellFormed) (n : ℕ) : TableCatalog s.name :=
  have hnames : ∀ c ∈ (s.cols.mapIdx createdInfo).take n, identifierValid c.name = true := by
    intro c hc
    have hmem : c.name ∈ s.cols.map fun c => c.name := by
      rw [← map_name_createdInfo]
      exact List.mem_map_of_mem (List.mem_of_mem_take hc)
    obtain ⟨col, hcol, hname⟩ := List.mem_map.1 hmem
    exact hname ▸ hs.col_valid col hcol
  { columns := (s.cols.mapIdx createdInfo).take n
    indexes := []
    nodup := by
      rw [List.map_take, map_name_createdInfo]
      exact hs.nodup.sublist (List.take_sublist n _)
    name_ne_nil := by
      rintro c hc hnil
      have hpos := ((isIdentifier_iff c.name).2 (hnames c hc)).length_pos
      rw [hnil] at hpos
      cases hpos
    zero_notMem := fun c hc =>
      zero_notMem_of_isIdentifier ((isIdentifier_iff c.name).2 (hnames c hc))
    indexed := fun _ hidx => by cases hidx
    constraint := fun _ hidx => by cases hidx }

theorem reports_layoutEngine {s : SqlRDBSchema} (hs : s.WellFormed) (n : ℕ) :
    Reports (layoutEngine s) n s.name (layoutCatalog s hs n) where
  tableInfo := by
    refine ⟨rfl, fun _ => ?_⟩
    rw [run_layoutEngine, layoutAnswer]
    exact if_pos rfl
  indexList := by
    refine ⟨rfl, fun _ => ?_⟩
    have hne := pragmaSql_ne (p := "PRAGMA index_list(\"") (q := "PRAGMA table_info(\"") (by decide)
      (by decide) s.name s.name
    rw [run_layoutEngine, layoutAnswer, if_neg hne]
    exact if_pos rfl
  indexInfo _ hidx := by cases hidx
  toInt64 _ := rfl
  toText _ := rfl

/-- The layout of that database. -/
theorem readsAs_layoutEngine {s : SqlRDBSchema} (hs : s.WellFormed) (n : ℕ) :
    ReadsAs .sqlite (layoutEngine s) s.name n
      (((s.cols.mapIdx createdInfo).take n).map ColumnInfo.dbCol) := by
  have hread := (reports_layoutEngine hs n).readsAs hs.name_valid
  have hnone : (layoutCatalog s hs n).kept = [] := rfl
  rw [hnone] at hread
  exact hread

theorem strictSql_ne_pragmaSql {p : String} (hp : (lit p).head? = some 80) (table name : CStr) :
    strictSql table ≠ pragmaSql p name := by
  intro h
  have hhead := congrArg List.head? h
  simp only [strictSql, pragmaSql, List.append_assoc, List.head?_append, hp] at hhead
  cases hhead

/-- A text that ends in the STRICT option. -/
theorem strictOfText_append (text : CStr) : strictOfText (text ++ lit ") STRICT") = some true := by
  refine (strictOfText_eq text (lit " STRICT") true).2 ?_
  rw [afterParen_eq_self (by decide)]
  exact (scanStrict_iff (Nat.lt_succ_self _) true).1 (by decide)

/-- The table of that database is STRICT. -/
theorem answers_strictSql {s : SqlRDBSchema} {n : ℕ} (hn : n ≠ 0) :
    Answers (layoutEngine s) n (strictSql s.name) [[.text (buildCreate s .sqlite)]] := by
  refine ⟨rfl, fun _ => ?_⟩
  rw [run_layoutEngine, layoutAnswer, if_neg (strictSql_ne_pragmaSql (by decide) _ _),
    if_neg (strictSql_ne_pragmaSql (by decide) _ _), if_pos rfl, if_neg hn]

theorem detectsStrict_layoutEngine {s : SqlRDBSchema} (hs : s.WellFormed) {n : ℕ} (hn : n ≠ 0) :
    DetectsStrict .sqlite (layoutEngine s) s.name n true :=
  detectsStrict_of_answers hs.name_valid (answers_strictSql hn) (fun _ => rfl)
    (strictOfText_append _)

/-- A struct with two members, the second one of the given type. -/
def pairSchema (t : SqlRDBType) : SqlRDBSchema :=
  ⟨lit "t", [⟨lit "a", .int32, 0, 4, 0⟩, ⟨lit "b", t, 8, 16, flagNullable⟩], none⟩

/-- A handle with `auto_migrate` on a database with the first columns of a table. -/
def layoutHandle (n : ℕ) (faults : DriverCall → ℕ → Option Fault) (fails : ℕ → Bool) :
    SqlRDBHandle (Session ℕ) :=
  { freshHandle ⟨⟨⟨n, []⟩, 0, faults, 0⟩, fun _ => none, 1, 0⟩
      ⟨fails, fun _ => false, 0, 1, ⟨[], [], none⟩, false⟩ with
    config := { defaultConfig with autoMigrate := true } }

/-- That handle, where nothing fails. -/
def calmLayout (n : ℕ) : SqlRDBHandle (Session ℕ) :=
  layoutHandle n (fun _ _ => none) fun _ => false

theorem calm_calmLayout (n : ℕ) : (calmLayout n).Calm := ⟨fun _ _ => rfl, fun _ => rfl⟩

section Pair

variable {t : SqlRDBType} (ht : t = .text ∨ t = .other 77)

include ht

theorem pairSchema_accepted : (pairSchema t).Accepted :=
  ⟨[], some (lit "t"), some ((pairSchema t).cols.map some), by rcases ht with rfl | rfl <;> rfl⟩

theorem altersAppend_pairSchema :
    AltersAppend .sqlite (layoutEngine (pairSchema t)) (pairSchema t)
      [⟨lit "b", t, 8, 16, flagNullable⟩] 1
      [(createdInfo 0 ⟨lit "a", .int32, 0, 4, 0⟩).dbCol] := by
  have hs := (SqlRDBSchema.accepted_iff _).1 (pairSchema_accepted ht)
  refine ⟨⟨[], 2, none⟩, (createdInfo 1 ⟨lit "b", t, 8, 16, flagNullable⟩).dbCol, ?_, ?_,
    readsAs_layoutEngine hs 2, trivial⟩
  · rcases ht with rfl | rfl <;> rfl
  · rcases ht with rfl | rfl <;> exact ⟨rfl, rfl, rfl, rfl, rfl⟩

theorem syncAccepts_pairSchema :
    SyncAccepts (calmLayout 1).config true (pairSchema t).cols
      [(createdInfo 0 ⟨lit "a", .int32, 0, 4, 0⟩).dbCol] where
  strict := .inl rfl
  common := by
    intro p hp
    obtain rfl := List.mem_singleton.1 hp
    exact compareColumns_eq_zero_iff.1 (by decide)
  length := .inr ⟨by rcases ht with rfl | rfl <;> decide, rfl⟩

end Pair

/-- The second column is added. -/
theorem migrate_accepts_iff_pair :
    (internalMigrateTable (driver .sqlite (layoutEngine (pairSchema .text))) 4 (pairSchema .text)
      (calmLayout 1)).2.store.contents = 2 ∧
    ∃ rows, ∀ fuel ≥ rows,
      (internalMigrateTable (driver .sqlite (layoutEngine (pairSchema .text))) fuel
        (pairSchema .text) (calmLayout 1)).1 = some .ok := by
  have ht : SqlRDBType.text = .text ∨ SqlRDBType.text = .other 77 := .inl rfl
  have hs := (SqlRDBSchema.accepted_iff _).1 (pairSchema_accepted ht)
  refine ⟨by decide +kernel, ?_⟩
  obtain ⟨rows, hrows⟩ := migrate_accepts_iff (h := calmLayout 1) (o := ⟨[], 1, none⟩)
    (pairSchema_accepted ht) (calm_calmLayout 1) rfl (List.cons_ne_nil _ _)
    (readsAs_layoutEngine hs 1) (detectsStrict_layoutEngine hs one_ne_zero)
    (altersAppend_pairSchema ht)
  refine ⟨rows, fun fuel hfuel => ?_⟩
  obtain ⟨r, db, hres, -, hiff, -⟩ := hrows fuel hfuel
  have hok : r = .ok := by
    refine hiff.2 ⟨syncAccepts_pairSchema ht, fun c hc => ?_⟩
    obtain rfl := List.mem_singleton.1 hc
    exact ⟨by decide, fun v => SqlRDBType.noConfusion⟩
  rw [hres, hok]

/-- A missing column with a type that is not in the header: the ALTER TABLE succeeds, and the
synchronisation fails. A missing column of type TEXT, and no memory for the text of CREATE TABLE. -/
theorem migrate_rejects_unknown_type :
    (pairSchema (.other 77)).Accepted ∧
      ReadsAs .sqlite (layoutEngine (pairSchema (.other 77))) (lit "t") 1
        [(createdInfo 0 ⟨lit "a", .int32, 0, 4, 0⟩).dbCol] ∧
      AltersAppend .sqlite (layoutEngine (pairSchema (.other 77))) (pairSchema (.other 77))
        [⟨lit "b", .other 77, 8, 16, flagNullable⟩] 1
        [(createdInfo 0 ⟨lit "a", .int32, 0, 4, 0⟩).dbCol] ∧
      SyncAccepts (calmLayout 1).config true (pairSchema (.other 77)).cols
        [(createdInfo 0 ⟨lit "a", .int32, 0, 4, 0⟩).dbCol] ∧
      (internalMigrateTable (driver .sqlite (layoutEngine (pairSchema (.other 77)))) 4
        (pairSchema (.other 77)) (calmLayout 1)).1 = some .errSchemaMismatch ∧
      (internalMigrateTable (driver .sqlite (layoutEngine (pairSchema .text))) 4 (pairSchema .text)
        (layoutHandle 1 (fun _ _ => none) fun _ => true)).1 = some .errNoMemory := by
  have ht : SqlRDBType.other 77 = .text ∨ SqlRDBType.other 77 = .other 77 := .inr rfl
  have hs := (SqlRDBSchema.accepted_iff _).1 (pairSchema_accepted ht)
  exact ⟨pairSchema_accepted ht, readsAs_layoutEngine hs 1, altersAppend_pairSchema ht,
    syncAccepts_pairSchema ht, by decide +kernel, by decide +kernel⟩

end C2Sql
