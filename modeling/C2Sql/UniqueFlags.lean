import C2Sql.Identifiers
import C2Sql.Operations

/-!
# UNIQUE flags of an existing table

`read_table_info` and `apply_unique_flags` on SQLite, against the catalog that the PRAGMAs report.
Names go through arrays of fixed sizes, and what does not fit is dropped.

* `Produces`: a function that reads the catalog returns a value, or fails because a call failed;
* `collectCols_spec`, `collectNames_spec`: the loops over the rows of a PRAGMA;
* `TableCatalog`: what the PRAGMAs report of a table;
* `TableCatalog.flagged`, `readExisting_spec`: the flags that are set;
* `unique_flags_iff`: the catalogs for which they are exact.
-/

namespace C2Sql

open SqlText StateLogic

variable {Db : Type} {e : Engine Db}

/-! ## Reading from the catalog -/

/-- The database, and what is going to fail, are the same. -/
structure SqlRDBHandle.SameWorld (h h' : SqlRDBHandle (Session Db)) : Prop where
  faults : h'.ctx.conn.faults = h.ctx.conn.faults
  contents : h'.ctx.conn.store.contents = h.ctx.conn.store.contents
  fails : h'.heap.fails = h.heap.fails

section Worlds

variable {h h' h'' : SqlRDBHandle (Session Db)}

theorem SqlRDBHandle.SameWorld.refl : h.SameWorld h := ⟨rfl, rfl, rfl⟩

theorem SqlRDBHandle.SameWorld.trans (hw : h.SameWorld h') (hw' : h'.SameWorld h'') :
    h.SameWorld h'' where
  faults := hw'.faults.trans hw.faults
  contents := hw'.contents.trans hw.contents
  fails := hw'.fails.trans hw.fails

theorem SqlRDBHandle.SameWorld.calm (hw : h.SameWorld h') (hc : h.Calm) : h'.Calm where
  faults := hw.faults ▸ hc.faults
  heap := hw.fails ▸ hc.heap

end Worlds

/-- A function that reads the catalog returns `x`, or an error because a call failed. -/
def Produces {α : Type} (h : SqlRDBHandle (Session Db)) (x : α) (res : Option (SqlRDBResult × α))
    (h' : SqlRDBHandle (Session Db)) : Prop :=
  h.SameWorld h' ∧ (res = some (.ok, x) ∨ ¬h.Calm ∧ ∃ r y, r ≠ .ok ∧ res = some (r, y))

/-- What is produced in a later state of the same world. -/
theorem Produces.of_same {α : Type} {h h₁ h' : SqlRDBHandle (Session Db)} {x : α}
    {res : Option (SqlRDBResult × α)} (hw : h.SameWorld h₁) (hp : Produces h₁ x res h') :
    Produces h x res h' :=
  ⟨hw.trans hp.1, hp.2.imp_right fun hf => ⟨hf.1 ∘ hw.calm, hf.2⟩⟩

/-- The statement is going to deliver the rows. -/
def Serves (e : Engine Db) (s : Session Db) (id : StmtId) (rows : List (List SqlValue)) : Prop :=
  ∃ st result, s.stmts id = some st ∧ st.Selects e s.conn.store.contents result ∧
    st.cursor ≠ .done ∧ st.cursor.left .sqlite result = rows

/-- The statement is on a row, and going to deliver the others. -/
def OnRow (e : Engine Db) (s : Session Db) (id : StmtId) (row : List SqlValue)
    (rows : List (List SqlValue)) : Prop :=
  Serves e s id rows ∧ ∃ st, s.stmts id = some st ∧ ∀ i, st.column i = (row[i]?).getD .null

/-- What a step returns that delivers the first of the rows, or their end. -/
def StepDelivers (e : Engine Db) (s : Session Db) (id : StmtId) (res : SqlRDBResult × Bool) :
    List (List SqlValue) → Prop
  | [] => res = (.ok, false)
  | row :: rows => res = (.ok, true) ∧ OnRow e s id row rows

theorem step_eq_withStmt (id : StmtId) :
    (driver .sqlite e).step id = withStmt id (SqlRDBResult.errDriver, false) fun st conn =>
      let (r, st, conn) := st.step .sqlite e conn
      ((r, r == .ok && st.cursor.hasRow), st, conn) := rfl

/-- A step on a statement that delivers rows. -/
theorem step_serves {h : SqlRDBHandle (Session Db)} {id : StmtId} {rows : List (List SqlValue)}
    (hs : Serves e h.ctx id rows) :
    wp (drv ((driver .sqlite e).step id)) (fun res h' => h.SameWorld h' ∧
      ((res.1 ≠ .ok ∧ ¬h.Calm) ∨ StepDelivers e h'.ctx id res rows)) h := by
  obtain ⟨st, result, hst, hsel, hnot, rfl⟩ := hs
  rw [wp_drv, step_eq_withStmt]
  refine .of_run (withStmt_eq hst (SqlRDBResult.errDriver, false) _) ?_
  dsimp only
  cases hf : h.ctx.conn.faults .step h.ctx.conn.tick with
  | some f =>
    simp only [Stmt.step, Conn.fault, hf]
    refine ⟨⟨rfl, rfl, rfl⟩, .inl ⟨f.code_ne_ok, fun hu => ?_⟩⟩
    rw [hu.faults] at hf
    cases hf
  | none =>
    rw [Stmt.step_eq hsel hf]
    refine ⟨⟨rfl, rfl, rfl⟩, .inr ?_⟩
    cases hl : st.cursor.left .sqlite result with
    | nil => rfl
    | cons row rest =>
      refine ⟨rfl, ⟨_, result, Session.stmts_put .., hsel, (by rintro ⟨⟩), rfl⟩, _,
        Session.stmts_put .., ?_⟩
      exact fun i => rfl

theorem growCols_spec (n cap : ℕ) (h : SqlRDBHandle (Session Db)) :
    wp (growCols n cap) (fun res h' => h.SameWorld h' ∧ h'.ctx = h.ctx ∧
      (res.1 = false → ¬h.Calm)) h := by
  by_cases hfull : n = cap
  · rw [growCols, if_pos hfull]
    refine ⟨⟨rfl, rfl, rfl⟩, rfl, fun hfail hu => ?_⟩
    have hok : (!h.heap.fails h.heap.tick) = false := hfail
    rw [hu.heap] at hok
    cases hok
  · rw [growCols, if_neg hfull]
    exact ⟨.refl, rfl, nofun⟩

section Loops

variable {id : StmtId} {ι : Type} {row : ι → List SqlValue}

/-- **The loop of `read_table_info`** collects the columns of the rows. -/
theorem collectCols_spec {readRow : ℕ → Api (Session Db) DbCol} {f : ι → DbCol}
    (hread : ∀ n (h : SqlRDBHandle (Session Db)) i rows, OnRow e h.ctx id (row i) rows →
      readRow n h = (f i, h))
    {items : List ι} {fuel : ℕ} (hfuel : items.length < fuel) (cap : ℕ)
    (cols : List DbCol) {h : SqlRDBHandle (Session Db)} (hs : Serves e h.ctx id (items.map row)) :
    wp (collectCols (driver .sqlite e) id readRow fuel cap cols)
      (Produces h (cols ++ items.map f)) h := by
  induction fuel generalizing items cap cols h with
  | zero => omega
  | succ fuel ih =>
    rw [collectCols, wp_bind]
    refine wp_mono (step_serves hs) fun ⟨r, hasRow⟩ h₁ ⟨hw, hstep⟩ => ?_
    obtain ⟨hne, hu⟩ | hdel := hstep
    · dsimp only
      rw [if_pos (.inl hne), if_pos hne]
      exact ⟨hw.trans ⟨rfl, rfl, rfl⟩, .inr ⟨hu, r, [], hne, rfl⟩⟩
    · cases items with
      | nil =>
        cases hdel
        refine ⟨hw.trans ⟨rfl, rfl, rfl⟩, .inl ?_⟩
        rw [List.map_nil, List.append_nil]
        rfl
      | cons i items =>
        obtain ⟨heq, hrow⟩ := hdel
        cases heq
        dsimp only
        rw [if_neg (by simp), wp_bind]
        refine wp_mono (growCols_spec cols.length cap h₁) fun ⟨ok, cap'⟩ h₂ ⟨hw₂, hctx, hok⟩ => ?_
        cases ok with
        | false =>
          refine ⟨(hw.trans hw₂).trans ⟨rfl, rfl, rfl⟩, .inr ⟨?_, .errNoMemory, [], nofun, rfl⟩⟩
          exact hok rfl ∘ hw.calm
        | true =>
          rw [← hctx] at hrow
          have hone := hread cols.length h₂ i _ hrow
          have hrest := ih (Nat.lt_of_succ_lt_succ hfuel) cap' (cols ++ [f i]) hrow.1
          rw [List.append_assoc] at hrest
          refine .of_run (bind_of_run hone) ?_
          exact (hrest.of_eq rfl).of_same (hw.trans hw₂)

/-- The names that are kept: as many as there is room for, of those that are short enough. -/
def keepNames (max len : ℕ) (names : List (List UInt8)) : List CStr :=
  ((names.filter fun s => s.length < len).map cstr).take max

theorem keepNames_concat (max len : ℕ) (names : List (List UInt8)) (s : List UInt8) :
    keepNames max len (names ++ [s]) =
      if (keepNames max len names).length < max ∧ s.length < len then
        keepNames max len names ++ [cstr s]
      else keepNames max len names := by
  unfold keepNames
  rw [List.filter_append, List.map_append, List.take_append]
  generalize (names.filter fun s => s.length < len).map cstr = kept
  by_cases hs : s.length < len
  · rw [List.filter_singleton, decide_eq_true hs, cond_true, List.map_singleton, List.length_take]
    by_cases hroom : kept.length < max
    · have hone : [cstr s].length ≤ max - kept.length := by
        rw [List.length_singleton]
        omega
      rw [if_pos ⟨by omega, hs⟩, List.take_of_length_le hroom.le, List.take_of_length_le hone]
    · rw [if_neg (by omega), show max - kept.length = 0 by omega, List.take_zero, List.append_nil]
  · rw [List.filter_singleton, decide_eq_false hs, if_neg fun h => hs h.2]
    simp

/-- **The loops that collect names** keep the names that fit. -/
theorem collectNames_spec {pick : Api (Session Db) (Option (List UInt8))}
    {f : ι → Option (List UInt8)}
    (hpick : ∀ (h : SqlRDBHandle (Session Db)) i rows, OnRow e h.ctx id (row i) rows →
      pick h = (f i, h))
    (max len : ℕ) {items : List ι} {fuel : ℕ} (hfuel : items.length < fuel)
    (before : List (List UInt8)) {h : SqlRDBHandle (Session Db)}
    (hs : Serves e h.ctx id (items.map row)) :
    wp (collectNames (driver .sqlite e) id pick max len fuel (keepNames max len before))
      (Produces h (keepNames max len (before ++ items.filterMap f))) h := by
  induction fuel generalizing items before h with
  | zero => omega
  | succ fuel ih =>
    rw [collectNames, wp_bind]
    refine wp_mono (step_serves hs) fun ⟨r, hasRow⟩ h₁ ⟨hw, hstep⟩ => ?_
    obtain ⟨hne, hu⟩ | hdel := hstep
    · dsimp only
      rw [if_pos (.inl hne)]
      exact ⟨hw.trans ⟨rfl, rfl, rfl⟩, .inr ⟨hu, r, _, hne, rfl⟩⟩
    · cases items with
      | nil =>
        cases hdel
        refine ⟨hw.trans ⟨rfl, rfl, rfl⟩, .inl ?_⟩
        rw [List.filterMap_nil, List.append_nil]
        rfl
      | cons i items =>
        obtain ⟨heq, hrow⟩ := hdel
        cases heq
        dsimp only
        rw [if_neg (by simp)]
        have hnext : ∀ before, wp (collectNames (driver .sqlite e) id pick max len fuel
            (keepNames max len before))
              (Produces h (keepNames max len (before ++ items.filterMap f))) h₁ := fun before =>
          (ih (Nat.lt_of_succ_lt_succ hfuel) before hrow.1).of_same hw
        refine .of_run (bind_of_run (hpick h₁ i _ hrow)) ?_
        cases hf : f i with
        | none =>
          rw [List.filterMap_cons_none hf]
          exact hnext before
        | some s =>
          rw [List.filterMap_cons_some hf, List.append_cons]
          have hgoal := hnext (before ++ [s])
          rw [keepNames_concat] at hgoal
          exact hgoal

end Loops

/-! ## Statements of the catalog -/

/-- SQLite answers the statement with the rows. -/
structure Answers (e : Engine Db) (db : Db) (sql : CStr) (rows : List (List SqlValue)) : Prop where
  compiles : e.compiles sql = true
  run : ∀ values, e.run sql values db = some ⟨rows, db, none⟩

/-- The preparation of a statement of the catalog. -/
theorem prepare_answers {h : SqlRDBHandle (Session Db)} {sql : CStr} {rows : List (List SqlValue)}
    (ha : Answers e h.ctx.conn.store.contents sql rows) :
    wp (drv ((driver .sqlite e).prepare sql)) (fun res h' => h.SameWorld h' ∧
      ((res.1 ≠ .ok ∧ ¬h.Calm) ∨ (res.1 = .ok ∧ Serves e h'.ctx res.2 rows))) h := by
  rw [wp_drv]
  refine wp_mono (prepare_spec .sqlite e sql h.ctx) fun res s' ⟨t, hres⟩ => ?_
  obtain ⟨hne, rfl, hwhy⟩ | ⟨rfl, -, rfl⟩ := hres
  · refine ⟨⟨rfl, rfl, rfl⟩, .inl ⟨hne, fun hu => ?_⟩⟩
    have hno := (hwhy (hu.faults .prepare)).2.2
    rw [ha.compiles] at hno
    cases hno
  · exact ⟨⟨rfl, rfl, rfl⟩, .inr ⟨rfl, _, rows, Function.update_self .., ha.run _, nofun, rfl⟩⟩

/-- What follows the preparation of a statement of the catalog. -/
theorem query_spec {α : Type} {h : SqlRDBHandle (Session Db)} {sql : CStr}
    {rows : List (List SqlValue)} (ha : Answers e h.ctx.conn.store.contents sql rows) {x : α}
    {k : SqlRDBResult × StmtId → Api (Session Db) (Option (SqlRDBResult × α))}
    (herr : ∀ r id h₁, r ≠ .ok → ∃ y, k (r, id) h₁ = (some (r, y), h₁))
    (hk : ∀ id h₁, h.SameWorld h₁ → Serves e h₁.ctx id rows →
      wp (k (.ok, id)) (Produces h₁ x) h₁) :
    wp (drv ((driver .sqlite e).prepare sql) >>= k) (Produces h x) h := by
  rw [wp_bind]
  refine wp_mono (prepare_answers ha) fun ⟨r, id⟩ h₁ ⟨hw, hres⟩ => ?_
  obtain ⟨hne, hu⟩ | ⟨rfl, hs⟩ := hres
  · obtain ⟨y, hrun⟩ := herr r id h₁ hne
    exact .of_run hrun ⟨hw, .inr ⟨hu, r, y, hne, rfl⟩⟩
  · exact (hk id h₁ hw hs).of_same hw

/-- What follows a function that reads the catalog. -/
theorem Produces.bind {α β : Type} {h : SqlRDBHandle (Session Db)} {x : α} {y : β}
    {c : Api (Session Db) (Option (SqlRDBResult × α))}
    {k : Option (SqlRDBResult × α) → Api (Session Db) (Option (SqlRDBResult × β))}
    (hc : wp c (Produces h x) h)
    (hk : ∀ h₁, h.SameWorld h₁ → wp (k (some (.ok, x))) (Produces h₁ y) h₁)
    (herr : ∀ r x h₁, r ≠ .ok → ∃ y, k (some (r, x)) h₁ = (some (r, y), h₁)) :
    wp (c >>= k) (Produces h y) h := by
  rw [wp_bind]
  refine wp_mono hc fun res h₁ ⟨hw, hres⟩ => ?_
  obtain rfl | ⟨hu, r, x', hne, rfl⟩ := hres
  · exact (hk h₁ hw).of_same hw
  · obtain ⟨y', hrun⟩ := herr r x' h₁ hne
    exact .of_run hrun ⟨hw, .inr ⟨hu, r, y', hne, rfl⟩⟩

/-! ## What the PRAGMAs report -/

/-- A row of `PRAGMA table_info`. -/
structure ColumnInfo where
  cid : BitVec 64
  name : CStr
  type : CStr
  notnull : BitVec 64
  dflt : SqlValue
  pk : BitVec 64

/-- The origins of an index: CREATE INDEX, a UNIQUE constraint, a PRIMARY KEY. -/
inductive IndexOrigin
  | create
  | unique
  | primaryKey
  deriving DecidableEq

/-- A row of `PRAGMA index_info`; an expression has no name. -/
structure IndexColumn where
  seqno : BitVec 64
  cid : BitVec 64
  name : Option CStr

/-- A row of `PRAGMA index_list`, and the columns of the index. -/
structure IndexInfo where
  seq : BitVec 64
  name : CStr
  unique : Bool
  origin : IndexOrigin
  isPartial : BitVec 64
  columns : List IndexColumn

/-- The values of a row of `PRAGMA table_info`. -/
def ColumnInfo.row (c : ColumnInfo) : List SqlValue :=
  [.int c.cid, .text c.name, .text c.type, .int c.notnull, c.dflt, .int c.pk]

/-- The values of a row of `PRAGMA index_info`. -/
def IndexColumn.row (c : IndexColumn) : List SqlValue :=
  [.int c.seqno, .int c.cid, (c.name.map SqlValue.text).getD .null]

/-- The text of an origin. -/
def IndexOrigin.text : IndexOrigin → CStr
  | .create => lit "c"
  | .unique => lit "u"
  | .primaryKey => lit "pk"

theorem IndexOrigin.text_eq_iff {o : IndexOrigin} : o.text = lit "u" ↔ o = .unique := by
  cases o <;> decide

/-- The values of a row of `PRAGMA index_list`. -/
def IndexInfo.row (idx : IndexInfo) : List SqlValue :=
  [.int idx.seq, .text idx.name, .int (if idx.unique then 1 else 0), .text idx.origin.text,
    .int idx.isPartial]

/-- The names of the columns of an index. -/
def IndexInfo.names (idx : IndexInfo) : List CStr := idx.columns.filterMap IndexColumn.name

/-- The column is the only one of the index. -/
def IndexInfo.OnlyColumn (idx : IndexInfo) (name : CStr) : Prop :=
  idx.columns.map IndexColumn.name = [some name]

/-- `sqlite_autoindex_<table>_<k>`. -/
def autoindexName (table : CStr) (k : ℕ) : CStr :=
  lit "sqlite_autoindex_" ++ table ++ lit "_" ++ decimalBytes k

/-- What the PRAGMAs report of a table: the names of the columns are different, an index is on
columns of the table, and the index of a UNIQUE constraint is a unique one with the name that
SQLite gives it. -/
structure TableCatalog (table : CStr) where
  columns : List ColumnInfo
  indexes : List IndexInfo
  nodup : (columns.map ColumnInfo.name).Nodup
  name_ne_nil : ∀ c ∈ columns, c.name ≠ []
  zero_notMem : ∀ c ∈ columns, 0 ∉ c.name
  indexed : ∀ idx ∈ indexes, ∀ name ∈ idx.names, name ∈ columns.map ColumnInfo.name
  constraint : ∀ idx ∈ indexes, idx.origin = .unique →
    idx.unique = true ∧ ∃ k, idx.name = autoindexName table k

/-- The text of a PRAGMA, from its beginning up to the quotation mark. -/
def pragmaSql (pragma : String) (name : CStr) : CStr := lit pragma ++ name ++ lit "\")"

/-- The engine answers the PRAGMAs about the table from the catalog. -/
structure Reports (e : Engine Db) (db : Db) (table : CStr) (cat : TableCatalog table) : Prop where
  tableInfo : Answers e db (pragmaSql "PRAGMA table_info(\"" table) (cat.columns.map ColumnInfo.row)
  indexList : Answers e db (pragmaSql "PRAGMA index_list(\"" table) (cat.indexes.map IndexInfo.row)
  indexInfo : ∀ idx ∈ cat.indexes,
    Answers e db (pragmaSql "PRAGMA index_info(\"" idx.name) (idx.columns.map IndexColumn.row)
  toInt64 : ∀ v, e.toInt64 (.int v) = v
  toText : ∀ s, e.toText (.text s) = s

/-! ## Reading the rows -/

section Rows

variable {h : SqlRDBHandle (Session Db)} {id : StmtId} {row : List SqlValue}
  {rows : List (List SqlValue)} (hrow : OnRow e h.ctx id row rows)

/-- A column of a row. -/
def cell (row : List SqlValue) (i : ℕ) : SqlValue := (row[i]?).getD .null

include hrow

theorem columnText_onRow (i : ℕ) :
    drv ((driver .sqlite e).columnText id i) h =
      ((.ok, columnText .sqlite e (cell row i)), h) := by
  obtain ⟨-, st, hst, hcell⟩ := hrow
  rw [drv, show (driver .sqlite e).columnText id i h.ctx = _ from onColumn_eq hst i _ _, hcell]
  rfl

theorem columnInt32_onRow (i : ℕ) :
    drv ((driver .sqlite e).columnInt32 id i) h =
      ((.ok, (e.toInt64 (cell row i)).setWidth 32), h) := by
  obtain ⟨-, st, hst, hcell⟩ := hrow
  have hcall := onColumn_eq hst i 0 fun v => (e.toInt64 v).setWidth 32
  rw [drv, show (driver .sqlite e).columnInt32 id i h.ctx = _ from hcall, hcell]
  rfl

/-- The column that a row of `PRAGMA table_info` describes. -/
theorem readTableInfoRow_onRow :
    readTableInfoRow (driver .sqlite e) id h =
      (⟨((e.toInt64 (cell row 0)).setWidth 32).toInt,
        copyFit migMaxName (columnText .sqlite e (cell row 1)),
        typeClassFromStr (copyFit 32 (columnText .sqlite e (cell row 2))),
        (e.toInt64 (cell row 3)).setWidth 32 != 0, (e.toInt64 (cell row 5)).setWidth 32 != 0,
        false⟩, h) := by
  simp only [readTableInfoRow, bind_of_run (columnInt32_onRow hrow _),
    bind_of_run (columnText_onRow hrow _)]
  rfl

/-- The name that a row of `PRAGMA index_list` contributes. -/
theorem pickIndexName_onRow :
    pickIndexName (driver .sqlite e) id h =
      (if (e.toInt64 (cell row 2)).setWidth 32 = 0 then none
        else if columnText .sqlite e (cell row 3) ≠ some (lit "u") then none
        else columnText .sqlite e (cell row 1), h) := by
  rw [pickIndexName, bind_of_run (columnInt32_onRow hrow 2)]
  dsimp only
  split_ifs with huniq horigin
  · rfl
  · rw [bind_of_run (columnText_onRow hrow 3)]
    dsimp only
    rw [if_pos horigin]
    rfl
  · rw [bind_of_run (columnText_onRow hrow 3)]
    dsimp only
    rw [if_neg horigin, bind_of_run (columnText_onRow hrow 1)]
    rfl

theorem pickText_onRow (i : ℕ) :
    pickText (driver .sqlite e) id i h = (columnText .sqlite e (cell row i), h) := by
  rw [pickText, bind_of_run (columnText_onRow hrow i)]
  rfl

end Rows

/-- The column of a table as `read_table_info` returns it. -/
def ColumnInfo.dbCol (c : ColumnInfo) : DbCol :=
  ⟨(c.cid.setWidth 32).toInt, copyFit migMaxName (some c.name),
    typeClassFromStr (copyFit 32 (some c.type)), c.notnull.setWidth 32 != 0,
    c.pk.setWidth 32 != 0, false⟩

/-- The text of a PRAGMA fits the buffer. -/
theorem sql256_pragmaSql {pragma : String} {name : CStr}
    (hlen : (lit pragma).length + name.length ≤ 253) :
    sql256 (lit pragma ++ name ++ lit "\")") = pragmaSql pragma name := by
  have hend : (lit "\")").length = 2 := rfl
  rw [sql256, pragmaSql, List.take_of_length_le]
  rw [List.length_append, List.length_append]
  omega

/-! ## The flags -/

/-- The flag that an index sets, from the names of its columns that were kept. -/
def flagOnly (refCols : List CStr) (cols : List DbCol) : List DbCol :=
  match refCols with
  | [name] => markUnique name cols
  | _ => cols

/-- The columns of a table, with the flag on those whose names have a property. -/
def flaggedBy (p : CStr → Bool) (columns : List ColumnInfo) : List DbCol :=
  columns.map fun c => { c.dbCol with isUnique := p c.name }

/-- A name that is kept is that of a column, if it fits. -/
theorem dbCol_name {c : ColumnInfo} (hc : 0 ∉ c.name) {name : CStr} (hne : name ≠ [])
    (hlen : name.length < migMaxName) : c.dbCol.name = name ↔ c.name = name := by
  rw [ColumnInfo.dbCol, copyFit]
  split_ifs with hfit
  · rw [cstr_of_notMem hc]
  · constructor
    · rintro rfl
      exact absurd rfl hne
    · rintro rfl
      exact absurd hlen hfit

/-- The mark on the column of a name. -/
theorem markUnique_flaggedBy {columns : List ColumnInfo}
    (hnodup : (columns.map ColumnInfo.name).Nodup) (hzero : ∀ c ∈ columns, 0 ∉ c.name)
    {name : CStr} (hne : name ≠ []) (hlen : name.length < migMaxName) (p : CStr → Bool) :
    markUnique name (flaggedBy p columns) = flaggedBy (fun n => p n || name == n) columns := by
  induction columns with
  | nil => rfl
  | cons c columns ih =>
    rw [List.map_cons, List.nodup_cons] at hnodup
    have hname := dbCol_name (hzero c List.mem_cons_self) hne hlen
    simp only [flaggedBy, List.map_cons, markUnique]
    by_cases hc : c.name = name
    · rw [if_pos (hname.2 hc)]
      congr 1
      · simp [hc]
      · -- no other column has the name
        refine List.map_congr_left fun c' hc' => ?_
        have hother : c'.name ≠ name := by
          rintro rfl
          exact hnodup.1 (hc ▸ List.mem_map_of_mem hc')
        simp [hother.symm]
    · rw [if_neg (hname.not.2 hc)]
      congr 1
      · simp [Ne.symm hc]
      · exact ih hnodup.2 fun c' hc' => hzero c' (List.mem_cons_of_mem _ hc')

namespace TableCatalog

variable {table : CStr} (cat : TableCatalog table)

/-- The indexes of the UNIQUE constraints. -/
def uniques : List IndexInfo := cat.indexes.filter fun idx => idx.origin = .unique

/-- Those that `apply_unique_flags` keeps: the first 64 whose names have less than 96 bytes. -/
def kept : List IndexInfo := (cat.uniques.filter fun idx => idx.name.length < 96).take 64

/-- The rows that the loops look at suffice. -/
structure Fits (fuel : ℕ) : Prop where
  columns : cat.columns.length < fuel
  indexes : cat.indexes.length < fuel
  indexColumns : ∀ idx ∈ cat.indexes, idx.columns.length < fuel

end TableCatalog

/-- The names of the columns of an index that fit: those with less than 128 bytes. -/
def IndexInfo.shortNames (idx : IndexInfo) : List CStr :=
  idx.names.filter fun name => name.length < migMaxName

section Catalog

variable {table : CStr} {cat : TableCatalog table}

theorem TableCatalog.mem_indexes {idx : IndexInfo} (h : idx ∈ cat.kept) : idx ∈ cat.indexes :=
  List.mem_of_mem_filter (List.mem_of_mem_filter (List.mem_of_mem_take h))

theorem TableCatalog.mem_uniques {idx : IndexInfo} :
    idx ∈ cat.uniques ↔ idx ∈ cat.indexes ∧ idx.origin = .unique := by
  rw [uniques, List.mem_filter, decide_eq_true_iff]

theorem zero_notMem_of_isIdentifier (hid : IsIdentifier table) : 0 ∉ table := by
  intro h0
  cases table with
  | nil => cases h0
  | cons c cs =>
    obtain rfl | hcs := List.mem_cons.1 h0
    · exact absurd (hid.first 0 rfl) (by decide)
    · exact absurd (hid.rest 0 hcs) (by decide)

theorem zero_notMem_autoindexName (hid : IsIdentifier table) (k : ℕ) :
    0 ∉ autoindexName table k := by
  simp only [autoindexName, List.mem_append, not_or]
  refine ⟨⟨⟨by decide, zero_notMem_of_isIdentifier hid⟩, by decide⟩, fun h0 => ?_⟩
  exact absurd (isDigit_of_mem_decimalBytes h0) (by decide)

/-- The names that the loop over `PRAGMA index_list` keeps. -/
theorem TableCatalog.keepNames_indexes (cat : TableCatalog table) (hid : IsIdentifier table) :
    keepNames 64 96 (cat.indexes.filterMap fun idx =>
      if idx.unique = true ∧ idx.origin = .unique then some idx.name else none) =
        cat.kept.map IndexInfo.name := by
  have huniques : (cat.indexes.filterMap fun idx =>
      if idx.unique = true ∧ idx.origin = .unique then some idx.name else none) =
        cat.uniques.map IndexInfo.name := by
    rw [uniques, ← List.filterMap_eq_map, List.filterMap_filter]
    refine List.filterMap_congr fun idx hidx => ?_
    by_cases ho : idx.origin = .unique
    · simp [ho, (cat.constraint idx hidx ho).1]
    · simp [ho]
  rw [huniques, keepNames, kept, List.filter_map, List.map_map, List.map_take]
  congr 1
  refine List.map_congr_left fun idx hidx => ?_
  obtain ⟨hmem, ho⟩ := mem_uniques.1 (List.mem_of_mem_filter hidx)
  obtain ⟨-, k, hname⟩ := cat.constraint idx hmem ho
  rw [Function.comp_apply, hname, cstr_of_notMem (zero_notMem_autoindexName hid k)]

/-- The names that the loop over `PRAGMA index_info` keeps. -/
theorem TableCatalog.keepNames_names {idx : IndexInfo} (hidx : idx ∈ cat.indexes) :
    keepNames 8 migMaxName idx.names = idx.shortNames.take 8 := by
  rw [keepNames, IndexInfo.shortNames]
  congr 1
  refine (List.map_congr_left fun name hname => ?_).trans (List.map_id _)
  obtain ⟨c, hc, rfl⟩ := List.mem_map.1 (cat.indexed idx hidx name (List.mem_of_mem_filter hname))
  exact cstr_of_notMem (cat.zero_notMem c hc)

variable {h : SqlRDBHandle (Session Db)}
  (hrep : Reports e h.ctx.conn.store.contents table cat)

include hrep

theorem readTableInfo_spec (htable : table.length ≤ 128) {fuel : ℕ}
    (hfuel : cat.columns.length < fuel) :
    wp (readTableInfo (driver .sqlite e) fuel table)
      (Produces h (cat.columns.map ColumnInfo.dbCol)) h := by
  have hlen : (lit "PRAGMA table_info(\"").length = 19 := rfl
  rw [readTableInfo, sql256_pragmaSql (by omega)]
  refine query_spec hrep.tableInfo (fun r id h₁ hne => ⟨[], ?_⟩) fun id h₁ _ hs => ?_
  · dsimp only
    rw [if_pos hne]
    rfl
  · refine collectCols_spec (fun _ h c rows hrow => ?_) hfuel 0 [] hs
    rw [readTableInfoRow_onRow hrow]
    simp [ColumnInfo.dbCol, ColumnInfo.row, cell, columnText, hrep.toInt64, hrep.toText]

theorem Reports.of_same {h' : SqlRDBHandle (Session Db)} (hw : h.SameWorld h') :
    Reports e h'.ctx.conn.store.contents table cat := by
  rwa [hw.contents]

theorem Reports.pickText_indexInfo (id : StmtId) (h' : SqlRDBHandle (Session Db)) (c : IndexColumn)
    (rows : List (List SqlValue)) (hrow : OnRow e h'.ctx id c.row rows) :
    pickText (driver .sqlite e) id 2 h' = (c.name, h') := by
  rw [pickText_onRow hrow]
  cases hc : c.name with
  | none => simp [IndexColumn.row, cell, columnText, hc]
  | some name => simp [IndexColumn.row, cell, columnText, hc, hrep.toText]

theorem Reports.pickIndexName_indexList (id : StmtId) (h' : SqlRDBHandle (Session Db))
    (idx : IndexInfo) (rows : List (List SqlValue)) (hrow : OnRow e h'.ctx id idx.row rows) :
    pickIndexName (driver .sqlite e) id h' =
      (if idx.unique = true ∧ idx.origin = .unique then some idx.name else none, h') := by
  rw [pickIndexName_onRow hrow]
  cases hu : idx.unique with
  | false => simp [IndexInfo.row, cell, hu, hrep.toInt64]
  | true =>
    by_cases ho : idx.origin = .unique <;>
      simp [IndexInfo.row, cell, columnText, hu, ho, hrep.toInt64, hrep.toText,
        IndexOrigin.text_eq_iff]

/-- **The second loop of `apply_unique_flags`.** -/
theorem applyIndexes_spec {fuel : ℕ} (hfits : cat.Fits fuel) {idxs : List IndexInfo}
    (hidxs : ∀ idx ∈ idxs, idx ∈ cat.indexes ∧ idx.name.length < 96) (cols : List DbCol) :
    wp (applyIndexes (driver .sqlite e) fuel (idxs.map IndexInfo.name) cols)
      (Produces h (idxs.foldl (fun cols idx => flagOnly (idx.shortNames.take 8) cols) cols)) h := by
  induction idxs generalizing cols h with
  | nil => exact ⟨.refl, .inl rfl⟩
  | cons idx idxs ih =>
    obtain ⟨hmem, hlen⟩ := hidxs idx List.mem_cons_self
    have hopen : (lit "PRAGMA index_info(\"").length = 19 := rfl
    rw [List.map_cons, applyIndexes, sql256_pragmaSql (by omega)]
    refine query_spec (hrep.indexInfo idx hmem) (fun r id h₁ hne => ⟨cols, ?_⟩)
      fun id h₁ hw hs => ?_
    · dsimp only
      rw [if_pos hne]
      rfl
    dsimp only
    rw [if_neg (not_not.2 rfl)]
    refine Produces.bind (x := idx.shortNames.take 8) ?_ (fun h₂ hw₂ => ?_)
      fun r refCols h₂ hne => ⟨cols, ?_⟩
    · rw [← cat.keepNames_names hmem]
      exact collectNames_spec (hrep.pickText_indexInfo id) 8 migMaxName
        (hfits.indexColumns idx hmem) [] hs
    · exact ih (hrep.of_same (hw.trans hw₂)) (fun idx' hidx' =>
        hidxs idx' (List.mem_cons_of_mem _ hidx')) _
    · dsimp only
      rw [if_pos hne]
      rfl

/-- **The flags that `apply_unique_flags` sets.** -/
theorem applyUniqueFlags_spec (hid : IsIdentifier table) {fuel : ℕ} (hfits : cat.Fits fuel)
    (cols : List DbCol) :
    wp (applyUniqueFlags (driver .sqlite e) fuel table cols)
      (Produces h (cat.kept.foldl (fun cols idx => flagOnly (idx.shortNames.take 8) cols) cols))
        h := by
  have hopen : (lit "PRAGMA index_list(\"").length = 19 := rfl
  have hlen := hid.length_le
  rw [applyUniqueFlags, sql256_pragmaSql (by omega)]
  refine query_spec hrep.indexList (fun r id h₁ hne => ⟨cols, ?_⟩) fun id h₁ hw hs => ?_
  · dsimp only
    rw [if_pos hne]
    rfl
  dsimp only
  rw [if_neg (not_not.2 rfl)]
  refine Produces.bind (x := cat.kept.map IndexInfo.name) ?_ (fun h₂ hw₂ => ?_)
    fun r names h₂ hne => ⟨cols, ?_⟩
  · rw [← cat.keepNames_indexes hid]
    exact collectNames_spec (hrep.pickIndexName_indexList id) 64 96 hfits.indexes [] hs
  · refine applyIndexes_spec (hrep.of_same (hw.trans hw₂)) hfits (fun idx hidx => ?_) cols
    have hshort := (List.mem_filter.1 (List.mem_of_mem_take hidx)).2
    exact ⟨TableCatalog.mem_indexes hidx, decide_eq_true_iff.1 hshort⟩
  · dsimp only
    rw [if_pos hne]
    rfl

omit hrep in
/-- The flags as a property of the names of the columns. -/
theorem TableCatalog.foldl_flagOnly {idxs : List IndexInfo}
    (hidxs : ∀ idx ∈ idxs, idx ∈ cat.indexes) (p : CStr → Bool) :
    idxs.foldl (fun cols idx => flagOnly (idx.shortNames.take 8) cols) (flaggedBy p cat.columns) =
      flaggedBy (fun name => p name || idxs.any fun idx => idx.shortNames == [name])
        cat.columns := by
  induction idxs generalizing p with
  | nil => simp
  | cons idx idxs ih =>
    have hstep : flagOnly (idx.shortNames.take 8) (flaggedBy p cat.columns) =
        flaggedBy (fun name => p name || idx.shortNames == [name]) cat.columns := by
      match hs : idx.shortNames with
      | [] => simp [flagOnly]
      | [name] =>
        have hshort : name ∈ idx.shortNames := by simp [hs]
        obtain ⟨hname, hlen⟩ := List.mem_filter.1 hshort
        obtain ⟨c, hc, rfl⟩ := List.mem_map.1
          (cat.indexed idx (hidxs idx List.mem_cons_self) name hname)
        have hmark := markUnique_flaggedBy cat.nodup cat.zero_notMem (cat.name_ne_nil c hc)
          (decide_eq_true_iff.1 hlen) p
        simpa [flagOnly] using hmark
      | n₁ :: n₂ :: ns => simp [flagOnly]
    rw [List.foldl_cons, hstep, ih fun idx' hidx' => hidxs idx' (List.mem_cons_of_mem _ hidx')]
    simp [Bool.or_assoc]

/-- **The columns that are read**, with the flags that are set. -/
theorem readExisting_spec (hid : IsIdentifier table) {fuel : ℕ} (hfits : cat.Fits fuel) :
    wp (readExisting (driver .sqlite e) fuel table)
      (Produces h (flaggedBy (fun name => cat.kept.any fun idx => idx.shortNames == [name])
        cat.columns)) h := by
  have hread := readTableInfo_spec hrep hid.length_le hfits.columns
  refine Produces.bind hread (fun h₁ hw => ?_) fun r cols h₁ hne => ⟨[], ?_⟩
  · dsimp only
    rw [if_neg (not_not.2 rfl)]
    have hflags := applyUniqueFlags_spec (hrep.of_same hw) hid hfits
      (cat.columns.map ColumnInfo.dbCol)
    have hnone : cat.columns.map ColumnInfo.dbCol = flaggedBy (fun _ => false) cat.columns := rfl
    rw [hnone, cat.foldl_flagOnly fun idx hidx => TableCatalog.mem_indexes hidx] at hflags
    refine Produces.bind hflags (fun h₂ _ => ?_) fun r cols h₂ hne => ⟨[], ?_⟩
    · simp only [Bool.false_or]
      exact ⟨.refl, .inl rfl⟩
    · dsimp only
      rw [if_pos hne]
      rfl
  · dsimp only
    rw [if_pos hne]
    rfl

end Catalog

/-! ## Exactness -/

section Exactness

variable {table : CStr} (cat : TableCatalog table)

/-- The column is the only one of a UNIQUE constraint. -/
def TableCatalog.IsUnique (name : CStr) : Prop := ∃ idx ∈ cat.uniques, idx.OnlyColumn name

/-- Every column has the flag exactly if it is the only one of a UNIQUE constraint. -/
def ExactFlags (cols : List DbCol) : Prop :=
  List.Forall₂ (fun c dc => dc.isUnique = true ↔ cat.IsUnique c.name) cat.columns cols

/-- No constraint is missed: for one of a single column, an index is kept whose only name that fits
is that column's. -/
def TableCatalog.NoneMissed : Prop :=
  ∀ name, cat.IsUnique name → ∃ idx ∈ cat.kept, idx.shortNames = [name]

/-- No flag is false: an index that is kept and has one name that fits is of that column only, or
the column has a constraint of its own. -/
def TableCatalog.NoneFalse : Prop :=
  ∀ idx ∈ cat.kept, ∀ name, idx.shortNames = [name] → cat.IsUnique name

theorem IndexInfo.OnlyColumn.names {idx : IndexInfo} {name : CStr} (h : idx.OnlyColumn name) :
    idx.names = [name] := by
  have hmap : idx.names = (idx.columns.map IndexColumn.name).filterMap id := by
    rw [IndexInfo.names, List.filterMap_map]
    rfl
  rw [hmap, h]
  rfl

theorem exactFlags_flaggedBy_iff :
    ExactFlags cat (flaggedBy (fun name => cat.kept.any fun idx => idx.shortNames == [name])
      cat.columns) ↔ cat.NoneMissed ∧ cat.NoneFalse := by
  have hany : ∀ name, ((cat.kept.any fun idx => idx.shortNames == [name]) = true) ↔
      ∃ idx ∈ cat.kept, idx.shortNames = [name] := by
    simp
  rw [ExactFlags, flaggedBy, List.forall₂_map_right_iff, List.forall₂_same]
  simp only [hany]
  constructor
  · intro h
    constructor
    · intro name huniq
      obtain ⟨idx, hidx, honly⟩ := id huniq
      have hname : name ∈ idx.names := by simp [honly.names]
      obtain ⟨c, hc, rfl⟩ := List.mem_map.1
        (cat.indexed idx (TableCatalog.mem_uniques.1 hidx).1 name hname)
      exact (h c hc).2 huniq
    · intro idx hidx name hshort
      have hname : name ∈ idx.shortNames := by simp [hshort]
      obtain ⟨c, hc, rfl⟩ := List.mem_map.1
        (cat.indexed idx (TableCatalog.mem_indexes hidx) name (List.mem_of_mem_filter hname))
      exact (h c hc).1 ⟨idx, hidx, hshort⟩
  · rintro ⟨hmissed, hfalse⟩ c -
    exact ⟨fun ⟨idx, hidx, hshort⟩ => hfalse idx hidx _ hshort, hmissed c.name⟩

/-- **The exactness of the UNIQUE flags.** For every catalog of a table: reading the table succeeds
unless a call of the driver or an allocation fails. The loop keeps the first 64 UNIQUE constraints
whose index has a name of less than 96 bytes, and of each the column names of less than 128 bytes;
the flags are exact if and only if every constraint on one column has a kept index with just that
name, and every kept index with just one name is on a column that has a constraint of its own. -/
theorem unique_flags_iff {h : SqlRDBHandle (Session Db)} (hid : identifierValid table = true)
    (hrep : Reports e h.ctx.conn.store.contents table cat) {fuel : ℕ} (hfits : cat.Fits fuel) :
    ∃ r cols, (readExisting (driver .sqlite e) fuel table h).1 = some (r, cols) ∧
      (h.Calm → r = .ok) ∧
      (r = .ok → (ExactFlags cat cols ↔ cat.NoneMissed ∧ cat.NoneFalse)) := by
  obtain ⟨-, hok | ⟨hu, r, cols, hne, hres⟩⟩ :=
    readExisting_spec hrep ((isIdentifier_iff table).2 hid) hfits
  · exact ⟨_, _, hok, fun _ => rfl, fun _ => exactFlags_flaggedBy_iff cat⟩
  · exact ⟨r, cols, hres, fun h => absurd h hu, fun h => absurd h hne⟩

end Exactness

theorem IndexInfo.map_name {idx : IndexInfo} (h : ∀ c ∈ idx.columns, c.name ≠ none) :
    idx.columns.map IndexColumn.name = idx.names.map some := by
  rw [names]
  generalize idx.columns = columns at h ⊢
  induction columns with
  | nil => rfl
  | cons c columns ih =>
    obtain ⟨name, hname⟩ := Option.ne_none_iff_exists'.1 (h c List.mem_cons_self)
    rw [List.map_cons, List.filterMap_cons_some hname, List.map_cons, hname,
      ih fun c' hc' => h c' (List.mem_cons_of_mem _ hc')]

/-- Small catalogs are read exactly: all names fit, there are at most 64 UNIQUE constraints, and
they are on columns only. -/
theorem TableCatalog.exact_of_small {table : CStr} {cat : TableCatalog table}
    (hcount : cat.uniques.length ≤ 64) (hidx : ∀ idx ∈ cat.uniques, idx.name.length < 96)
    (hcols : ∀ c ∈ cat.columns, c.name.length < migMaxName)
    (hnamed : ∀ idx ∈ cat.uniques, ∀ c ∈ idx.columns, c.name ≠ none) :
    cat.NoneMissed ∧ cat.NoneFalse := by
  have hkept : cat.kept = cat.uniques := by
    rw [kept, List.filter_eq_self.2 fun idx h => decide_eq_true (hidx idx h),
      List.take_of_length_le hcount]
  have hshort : ∀ idx ∈ cat.uniques, idx.shortNames = idx.names := by
    intro idx h
    refine List.filter_eq_self.2 fun name hname => decide_eq_true ?_
    obtain ⟨c, hc, rfl⟩ := List.mem_map.1 (cat.indexed idx (mem_uniques.1 h).1 name hname)
    exact hcols c hc
  rw [NoneMissed, NoneFalse, hkept]
  constructor
  · rintro name ⟨idx, h, honly⟩
    exact ⟨idx, h, (hshort idx h).trans honly.names⟩
  · intro idx h name hname
    rw [hshort idx h] at hname
    refine ⟨idx, h, ?_⟩
    rw [IndexInfo.OnlyColumn, IndexInfo.map_name (hnamed idx h), hname]
    rfl

/-! ## Samples -/

/-- The answers from a catalog. -/
def catalogAnswer {table : CStr} (cat : TableCatalog table) (sql : CStr) : Option (Outcome Unit) :=
  if sql = pragmaSql "PRAGMA table_info(\"" table then
    some ⟨cat.columns.map ColumnInfo.row, (), none⟩
  else if sql = pragmaSql "PRAGMA index_list(\"" table then
    some ⟨cat.indexes.map IndexInfo.row, (), none⟩
  else
    (cat.indexes.find? fun idx => sql = pragmaSql "PRAGMA index_info(\"" idx.name).map fun idx =>
      ⟨idx.columns.map IndexColumn.row, (), none⟩

/-- An engine with these answers. -/
def catalogEngine {table : CStr} (cat : TableCatalog table) : Engine Unit where
  compiles _ := true
  run sql _ _ := catalogAnswer cat sql
  toInt64
    | .int v => v
    | _ => 0
  toReal _ := 0
  toText
    | .text s => s
    | _ => []
  toBlob _ := []

theorem run_catalogEngine {table : CStr} (cat : TableCatalog table) (sql : CStr)
    (values : List SqlValue) : (catalogEngine cat).run sql values () = catalogAnswer cat sql := rfl

/-- A handle on a new connection. -/
def catalogHandle : SqlRDBHandle (Session Unit) :=
  freshHandle ⟨⟨⟨(), []⟩, 0, fun _ _ => none, 0⟩, fun _ => none, 1, 0⟩
    ⟨fun _ => false, fun _ => false, 0, 1, ⟨[], [], none⟩, false⟩

/-- The catalog of a table with one UNIQUE constraint on all its columns. -/
def oneConstraint (table : CStr) (names : List CStr) (hnodup : names.Nodup)
    (hnames : ∀ n ∈ names, n ≠ [] ∧ 0 ∉ n) : TableCatalog table where
  columns := names.map fun n => ⟨0, n, lit "TEXT", 0, .null, 0⟩
  indexes := [⟨0, autoindexName table 1, true, .unique, 0, names.map fun n => ⟨0, 0, some n⟩⟩]
  nodup := by simpa [Function.comp_def] using hnodup
  name_ne_nil := by simpa using fun n hn => (hnames n hn).1
  zero_notMem := by simpa using fun n hn => (hnames n hn).2
  indexed := by simp [IndexInfo.names, Function.comp_def]
  constraint := by
    simp only [List.mem_singleton, forall_eq, true_and]
    exact fun _ => ⟨1, rfl⟩

theorem pragmaSql_ne {p q : String} (hlen : (lit p).length = (lit q).length)
    (hne : lit p ≠ lit q) (n m : CStr) : pragmaSql p n ≠ pragmaSql q m :=
  fun h => hne (List.append_inj (List.append_cancel_right h) hlen).1

theorem reports_oneConstraint (table : CStr) (names : List CStr) (hnodup : names.Nodup)
    (hnames : ∀ n ∈ names, n ≠ [] ∧ 0 ∉ n) :
    Reports (catalogEngine (oneConstraint table names hnodup hnames)) () table
      (oneConstraint table names hnodup hnames) where
  tableInfo := by
    refine ⟨rfl, fun _ => ?_⟩
    rw [run_catalogEngine, catalogAnswer]
    exact if_pos rfl
  indexList := by
    refine ⟨rfl, fun _ => ?_⟩
    have hne := pragmaSql_ne (p := "PRAGMA index_list(\"") (q := "PRAGMA table_info(\"") (by decide)
      (by decide) table table
    rw [run_catalogEngine, catalogAnswer, if_neg hne]
    exact if_pos rfl
  indexInfo idx hidx := by
    refine ⟨rfl, fun _ => ?_⟩
    obtain rfl := List.mem_singleton.1 hidx
    have hinfo := pragmaSql_ne (p := "PRAGMA index_info(\"") (q := "PRAGMA table_info(\"")
      (by decide) (by decide) (autoindexName table 1) table
    have hlist := pragmaSql_ne (p := "PRAGMA index_info(\"") (q := "PRAGMA index_list(\"")
      (by decide) (by decide) (autoindexName table 1) table
    rw [run_catalogEngine, catalogAnswer, if_neg hinfo, if_neg hlist]
    simp [oneConstraint]
  toInt64 _ := rfl
  toText _ := rfl

/-- The column of a table `users` with a UNIQUE constraint. -/
theorem unique_flags_users :
    let cat := oneConstraint (lit "users") [lit "x"] (by decide) (by decide)
    ∃ cols, (readExisting (driver .sqlite (catalogEngine cat)) 2 (lit "users") catalogHandle).1 =
      some (.ok, cols) ∧ ExactFlags cat cols := by
  intro cat
  have hfits : cat.Fits 2 := ⟨by decide, by decide, by decide⟩
  obtain ⟨r, cols, hres, hok, hiff⟩ :=
    unique_flags_iff cat (h := catalogHandle) (by decide) (reports_oneConstraint ..) hfits
  obtain rfl := hok ⟨fun _ _ => rfl, fun _ => rfl⟩
  refine ⟨cols, hres, (hiff rfl).2 (TableCatalog.exact_of_small ?_ ?_ ?_ ?_)⟩
  all_goals decide +kernel

/-- A table with a name of 80 bytes: the constraint on its column is missed. A table with a UNIQUE
constraint on the columns x and one with a name of 128 bytes: x is flagged. -/
theorem unique_flags_fail :
    let longTable := List.replicate 80 (byte 'a')
    let long := oneConstraint longTable [lit "x"] (by decide) (by decide)
    let wide := oneConstraint (lit "t") [lit "x", List.replicate 128 (byte 'b')] (by decide)
      (by decide)
    identifierValid longTable = true ∧ long.IsUnique (lit "x") ∧ ¬wide.IsUnique (lit "x") ∧
      (readExisting (driver .sqlite (catalogEngine long)) 3 longTable catalogHandle).1.map
        (fun res => (res.1, res.2.map DbCol.isUnique)) = some (.ok, [false]) ∧
      (readExisting (driver .sqlite (catalogEngine wide)) 3 (lit "t") catalogHandle).1.map
        (fun res => (res.1, res.2.map DbCol.isUnique)) = some (.ok, [true, false]) := by
  refine ⟨by decide +kernel, ⟨_, List.mem_singleton_self _, rfl⟩, ?_, by decide +kernel,
    by decide +kernel⟩
  rintro ⟨idx, hidx, honly⟩
  obtain rfl := List.mem_singleton.1 hidx
  cases honly

end C2Sql
