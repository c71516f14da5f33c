import C2Sql.Api.Calls
import C2Sql.NestedBatches
import C2Sql.ReadCalls
import C2Sql.Selection

/-!
# A store of tables

What the library is for: a store of tables with nested transactions, on which each call has a
meaning of its own. The store knows neither texts nor statements of a driver, neither a cache nor a
mutex; a call means a statement of SQL, with the values that it binds.

* `Model`: the tables with the open transactions, and the configuration;
* `StatementYields`, `executed`, `writeBatch`: what the statement of a call yields;
* `Meant`: what a call means, with its reply;
* `StoreStep`, `StoreRun`: a call does what it means, or is refused and changes nothing. If no
  failure of the driver or the allocator is scheduled, only a call without a meaning is refused; if
  some are, a batch inside a transaction may stop between two rows, a rollback may have rewound
  without closing its savepoint, and a read may return its row without its null bits.
-/

namespace C2Sql

open SnapshotStack SqlText StateLogic

/-! ## The statements of the calls -/

/-- The statement of an operation with a condition is executed with the values `vs`, and yields
`res`. -/
structure StatementYields (sem : SqlSemantics) (op : C2SqlQBOp) (schema : SqlRDBSchema)
    (cond : Option SqlRDBCondition) (col : CStr) (vs : List SqlValue) (db : Catalog SqlValue)
    (res : Result SqlValue) : Prop where
  root : RootOnly cond
  known : knownCols schema (condCols cond) = true
  target : isFieldOp op = true → schemaHasColumn schema col = true
  length_lt : vs.length < 2 ^ 31
  leaves_lt : condLeaves cond < 2 ^ 31
  exec : sem.exec (condStatement op schema cond col) (storedValues vs) db = some res

/-- The statement of a write to a table with a key needs another column that it can set. -/
def SqlRDBSchema.Settable (schema : SqlRDBSchema) : Prop :=
  schema.pkIndex.isSome = true → nonPkCols schema ≠ []

instance (schema : SqlRDBSchema) : Decidable schema.Settable := by
  unfold SqlRDBSchema.Settable
  infer_instance

/-- What the statement of a write yields with the values that are bound. -/
def executed (sem : SqlSemantics) (schema : SqlRDBSchema) (binds : Binds) (db : Catalog SqlValue) :
    Option (Result SqlValue) :=
  if schema.Settable then binds.values.bind fun vs => sem.exec (writeStatement schema) vs db
  else none

theorem executed_eq_some_iff {sem : SqlSemantics} {schema : SqlRDBSchema} {binds : Binds}
    {db : Catalog SqlValue} {res : Result SqlValue} :
    executed sem schema binds db = some res ↔ schema.Settable ∧
      ∃ vs, binds.values = some vs ∧ sem.exec (writeStatement schema) vs db = some res := by
  unfold executed
  split_ifs with hset
  · rw [Option.bind_eq_some_iff]
    exact (and_iff_right hset).symm
  · exact ⟨by rintro ⟨⟩, fun h => absurd h.1 hset⟩

/-- The rows of a batch are written up to the first one that fails: whether all of them are, and
the tables after that. -/
def writeBatch (sem : SqlSemantics) (schema : SqlRDBSchema) :
    List Binds → Catalog SqlValue → Bool × Catalog SqlValue
  | [], db => (true, db)
  | binds :: batch, db =>
    match executed sem schema binds db with
    | none => (false, db)
    | some res => writeBatch sem schema batch res.db

theorem StatementYields.unique {sem : SqlSemantics} {op : C2SqlQBOp} {schema : SqlRDBSchema}
    {cond : Option SqlRDBCondition} {col : CStr} {vs : List SqlValue} {db : Catalog SqlValue}
    {res res' : Result SqlValue} (h : StatementYields sem op schema cond col vs db res)
    (h' : StatementYields sem op schema cond col vs db res') : res = res' :=
  Option.some.inj (h.exec.symm.trans h'.exec)

section Statements

variable {dialect : C2SqlDialect} {sem : SqlSemantics} {spec : SqlRDBQuerySpec}
  (hs : spec.schema.WellFormed) (hop : isCondOp spec.op = true) {col : CStr}
  (hcol : isFieldOp spec.op = true → spec.targetCol = some col) (hq : byte '"' ∉ col)
  {vs : List SqlValue} {db : Catalog SqlValue}

include hs hop hcol hq

/-- A text that the engine runs is executed as the statement of its operation. -/
theorem yields_of_run {sql : CStr} {n : ℕ} (hp : Prepares dialect (sqlEngine sem) spec sql n)
    (hlen : vs.length < 2 ^ 31) (hleaves : condLeaves spec.cond < 2 ^ 31)
    {o : Outcome (Catalog SqlValue)}
    (hrun : (sqlEngine sem).run sql (storedValues vs) db = some o) :
    ∃ res, StatementYields sem spec.op spec.schema spec.cond col vs db res ∧
      o = ⟨res.rows, res.db, res.changes.map Int.ofNat⟩ := by
  have hb := hp.build_eq
  rw [internalQbBuild_eq hop hcol] at hb
  split_ifs at hb with hknown
  rw [Bool.and_eq_true] at hknown
  cases hb
  obtain ⟨st, res, hparsed, hexec, rfl⟩ := sqlEngine_run_iff.1 hrun
  have hroot := rootOnly_of_parsed hs spec.dialect hop hq hknown.2 hleaves hparsed
  rw [parsed_condText hs spec.dialect hop hq hroot hknown.2 hleaves] at hparsed
  cases hparsed
  refine ⟨res, ⟨hroot, hknown.2, fun hf => ?_, hlen, hleaves, hexec⟩, rfl⟩
  simpa [hf] using hknown.1

/-- The statement of an operation that can be executed makes its call succeed. -/
theorem StatementYields.executes {res : Result SqlValue}
    (ha : StatementYields sem spec.op spec.schema spec.cond col vs db res) :
    Executes dialect sem spec vs db :=
  .of_statement hs hop (fun hf => ⟨hcol hf, ha.target hf⟩) hq ha.known ha.root ha.leaves_lt
    ha.length_lt ha.exec

end Statements

/-! ## The meaning of the calls -/

/-- The tables with the open transactions, and the configuration. -/
structure Model where
  store : Store CStr (Catalog SqlValue)
  config : SqlRDBConfig

/-- The tables as they are now. -/
def Model.db (s : Model) : Catalog SqlValue := s.store.contents

/-- The model with other tables. -/
def Model.withDb (s : Model) (db : Catalog SqlValue) : Model :=
  { s with store := { s.store with contents := db } }

/-- Whether a read returns the first of several rows. -/
def Model.takesFirst (s : Model) (opts : Option SqlRDBReadOpts) : Bool :=
  (opts.map fun o => o.allowMulti).getD false || s.config.multirowDefault == 1

/-- A reply with nothing but a code. -/
def Reply.plain (r : SqlRDBResult) : Reply := ⟨some r, .nothing⟩

/-- What a call means for the model, with its reply. A write or a deletion executes its statement; a
batch inside a transaction keeps the rows before the one that fails; a count and a read are of the
rows that the condition selects; a BLOB field is set in the one row that its key selects. -/
inductive Meant (dialect : C2SqlDialect) (sem : SqlSemantics)
    (lookup : CStr → Option SqlRDBSchema) (s : Model) : Call → Reply → Model → Prop
  | write {name : CStr} {schema : SqlRDBSchema} {row : Mem} {nullMap : Option Mem}
      {res : Result SqlValue} (hlook : lookup name = some schema)
      (hexec : executed sem schema (rowBinds row nullMap 0 schema.cols) s.db = some res) :
      Meant dialect sem lookup s (.write (some name) (some row) nullMap) (.plain .ok)
        (s.withDb res.db)
  | writeMany {name : CStr} {schema : SqlRDBSchema} {rows : Mem} {n stride : ℕ}
      {nullMaps : Option Mem} {all : Bool} {db : Catalog SqlValue} {r : SqlRDBResult}
      (hlook : lookup name = some schema) (hn : 0 < n) (hstride : 0 < stride)
      (hbatch : writeBatch sem schema (batchBinds schema rows stride nullMaps n 0) s.db = (all, db))
      (hr : r = .ok ↔ all = true) :
      Meant dialect sem lookup s (.writeMany (some name) (some rows) n stride nullMaps) (.plain r)
        (s.withDb (if all = true ∨ s.store.frames ≠ [] then db else s.db))
  | delete {name : CStr} {schema : SqlRDBSchema} {cond : SqlRDBCondition} {out : Option ℕ}
      {res : Result SqlValue} {n : ℕ} (hlook : lookup name = some schema)
      (hans : StatementYields sem .delete schema (some cond) [] (condValues (some cond)) s.db res)
      (hn : res.changes = some n) :
      Meant dialect sem lookup s (.delete (some name) (some cond) out)
        ⟨some .ok, .number (out.map fun _ => n)⟩ (s.withDb res.db)
  | count {name : CStr} {schema : SqlRDBSchema} {cond : Option SqlRDBCondition} {old : ℕ}
      {res : Result SqlValue} (hlook : lookup name = some schema)
      (hans : StatementYields sem .count schema cond [] (condValues cond) s.db res) :
      Meant dialect sem lookup s (.count (some name) cond (some old))
        ⟨some .ok, .number (some (countOf (sqlEngine sem) old res.rows))⟩ s
  | read {name : CStr} {schema : SqlRDBSchema} {cond : Option SqlRDBCondition} {row : Buffer}
      {nullMap : Option Mem} {opts : Option SqlRDBReadOpts} {res : Result SqlValue}
      {r : SqlRDBResult} {out : ReadOut} (hlook : lookup name = some schema)
      (hans : StatementYields sem .select schema cond [] (condValues cond) s.db res)
      (hreply : readReply dialect (sqlEngine sem) schema (s.takesFirst opts) row nullMap res.rows =
        (r, out)) :
      Meant dialect sem lookup s (.read (some name) cond ⟨some row, nullMap⟩ opts)
        ⟨some r, .row out⟩ s
  | readBlobField {name col : CStr} {schema : SqlRDBSchema} {c : SqlRDBColumnDef}
      {key : SqlRDBCondition} {old : Option (List UInt8)} {res : Result SqlValue}
      {r : SqlRDBResult} {out : Option (Option (List UInt8))} (hlook : lookup name = some schema)
      (hcol : findCol schema col = some c) (htype : c.type = .blob)
      (hans : StatementYields sem .selectField schema (some key) col
        (condValues (some key)) s.db res)
      (hreply : fieldReply (sqlEngine sem) old res.rows = (r, out)) :
      Meant dialect sem lookup s (.readBlobField (some name) (some key) (some col) (some old))
        ⟨some r, .blob out⟩ s
  | writeBlobField {name col : CStr} {schema : SqlRDBSchema} {c : SqlRDBColumnDef}
      {key : SqlRDBCondition} {bytes : List UInt8} {found res : Result SqlValue}
      (hlook : lookup name = some schema)
      (hcol : findCol schema col = some c) (htype : c.type = .blob)
      (hfound : StatementYields sem .selectField schema (some key) col
        (condValues (some key)) s.db found)
      (hone : found.rows.length = 1)
      (hans : StatementYields sem .updateField schema (some key) col
        (.blob bytes :: condValues (some key)) s.db res) :
      Meant dialect sem lookup s (.writeBlobField (some name) (some key) (some col) (some bytes))
        (.plain .ok) (s.withDb res.db)
  | notOneRow {name col : CStr} {schema : SqlRDBSchema} {c : SqlRDBColumnDef}
      {key : SqlRDBCondition} {bytes : List UInt8} {found : Result SqlValue}
      (hlook : lookup name = some schema)
      (hcol : findCol schema col = some c) (htype : c.type = .blob)
      (hfound : StatementYields sem .selectField schema (some key) col
        (condValues (some key)) s.db found)
      (hnot : found.rows.length ≠ 1) :
      Meant dialect sem lookup s (.writeBlobField (some name) (some key) (some col) (some bytes))
        (.plain (if found.rows = [] then .errNotFound else .errMultipleRows)) s
  | beginTx (room : s.store.frames.length < maxTxDepth) :
      Meant dialect sem lookup s .beginTx (.plain .ok) { s with store := { s.store with
        frames := ⟨frameName s.store.frames.length, s.db⟩ :: s.store.frames } }
  | commitTx {f : Frame CStr (Catalog SqlValue)} {fs : List (Frame CStr (Catalog SqlValue))}
      (hframes : s.store.frames = f :: fs) :
      Meant dialect sem lookup s .commitTx (.plain .ok)
        { s with store := { s.store with frames := fs } }
  | rollbackTx {f : Frame CStr (Catalog SqlValue)} {fs : List (Frame CStr (Catalog SqlValue))}
      (hframes : s.store.frames = f :: fs) :
      Meant dialect sem lookup s .rollbackTx (.plain .ok) { s with store := ⟨f.saved, fs⟩ }
  | setConfig (cfg : SqlRDBConfig) :
      Meant dialect sem lookup s (.setConfig (some cfg)) (.plain .ok) { s with config := cfg }
  | setLogger (logger : SqlRDBLoggerCtx) :
      Meant dialect sem lookup s (.setLogger logger) (.plain .ok) s

/-- The variables of the caller that a call can write to, as they are before it. -/
def Call.outputs : Call → Output
  | .read _ _ out _ => .row out
  | .stmtNext _ out => .row out
  | .delete _ _ out => .number out
  | .count _ _ out => .number out
  | .readBlobField _ _ _ out => .blob out
  | _ => .nothing

/-- A step of the store; `calm` says that no failure of the driver or the allocator is scheduled,
neither for this call nor for another one. A call that is refused leaves the tables, the open
transactions, the configuration and the caller's variables as they are. -/
inductive StoreStep (dialect : C2SqlDialect) (sem : SqlSemantics)
    (lookup : CStr → Option SqlRDBSchema) (calm : Prop) (s : Model) : Call → Reply → Model → Prop
  | meant {c : Call} {reply : Reply} {s' : Model} (h : Meant dialect sem lookup s c reply s') :
      StoreStep dialect sem lookup calm s c reply s'
  | refused {c : Call} {r : SqlRDBResult} (hr : r ≠ .ok)
      (hcalm : calm → ∀ reply s', ¬Meant dialect sem lookup s c reply s') :
      StoreStep dialect sem lookup calm s c ⟨some r, c.outputs⟩ s
  /-- There is no memory for the temporary null map: the row is returned as if the caller had given
  no null map. -/
  | nullsLost {name : CStr} {schema : SqlRDBSchema} {cond : Option SqlRDBCondition} {row : Buffer}
      {nullMap : Option Mem} {opts : Option SqlRDBReadOpts} {res : Result SqlValue}
      {r : SqlRDBResult} {out : ReadOut} (hcalm : ¬calm) (hlook : lookup name = some schema)
      (hans : StatementYields sem .select schema cond [] (condValues cond) s.db res)
      (hfirst : s.takesFirst opts = false)
      (hreply : readReply dialect (sqlEngine sem) schema false row none res.rows = (r, out)) :
      StoreStep dialect sem lookup calm s (.read (some name) cond ⟨some row, nullMap⟩ opts)
        ⟨some r, .row ⟨out.row, nullMap⟩⟩ s
  /-- A batch inside a transaction stops where the driver fails, and keeps the rows before that. -/
  | stopped {name : CStr} {schema : SqlRDBSchema} {rows : Mem} {n stride k : ℕ}
      {nullMaps : Option Mem} {db : Catalog SqlValue} {r : SqlRDBResult} (hcalm : ¬calm)
      (hr : r ≠ .ok) (hlook : lookup name = some schema) (hframes : s.store.frames ≠ [])
      (hbatch : writeBatch sem schema ((batchBinds schema rows stride nullMaps n 0).take k) s.db =
        (true, db)) :
      StoreStep dialect sem lookup calm s (.writeMany (some name) (some rows) n stride nullMaps)
        (.plain r) (s.withDb db)
  /-- A nested rollback whose second driver call fails has rewound to its savepoint. -/
  | rewound {r : SqlRDBResult} {f : Frame CStr (Catalog SqlValue)}
      {fs : List (Frame CStr (Catalog SqlValue))} (hcalm : ¬calm) (hr : r ≠ .ok)
      (hframes : s.store.frames = f :: fs) :
      StoreStep dialect sem lookup calm s .rollbackTx (.plain r) (s.withDb f.saved)

/-- A run of the store: the calls with their replies, and the last state. -/
inductive StoreRun (dialect : C2SqlDialect) (sem : SqlSemantics)
    (lookup : CStr → Option SqlRDBSchema) (calm : Prop) :
    Model → List Call → List Reply → Model → Prop
  | nil (s : Model) : StoreRun dialect sem lookup calm s [] [] s
  | cons {s s₁ s' : Model} {c : Call} {cs : List Call} {reply : Reply} {replies : List Reply}
      (hstep : StoreStep dialect sem lookup calm s c reply s₁)
      (hrun : StoreRun dialect sem lookup calm s₁ cs replies s') :
      StoreRun dialect sem lookup calm s (c :: cs) (reply :: replies) s'

end C2Sql
