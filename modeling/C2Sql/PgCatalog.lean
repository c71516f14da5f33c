import C2Sql.Lib.StateLogic
import C2Sql.Api.Handles
import C2Sql.Migration
import C2Sql.QueryText

/-!
# The relation of a struct on PostgreSQL

The name of a struct reaches a PostgreSQL server as a quoted identifier, as a text that is compared
with a column of `information_schema`, and as the input of `regclass`. Each way has rules of its
own for letter case and length.

* `tracer`: a driver that keeps the statements it is given with the values bound to them;
* `pgStatements`: what registering a struct sends to the server;
* `PgServer.target`: the relation that a statement is about;
* `one_relation_iff`: all of them are about one relation iff the name is `Plain`.
-/

namespace C2Sql

open SqlText

/-! ## The statements of a registration -/

/-- A PostgreSQL driver whose calls succeed and find no rows. Its context is the list of the
statements, each with the values bound to it. -/
def tracer : SqlRDBDriver (List (CStr × List SqlValue)) where
  dialect := .postgres
  close := pure .ok
  exec := fun sql trace => (.ok, trace ++ [(sql, [])])
  prepare := fun sql trace => ((.ok, trace.length), trace ++ [(sql, [])])
  bind := fun stmt _ v trace => (.ok, trace.modify stmt fun q => (q.1, q.2 ++ [v]))
  step := fun _ => pure (.ok, false)
  columnInt64 := fun _ _ => pure (.ok, 0)
  columnInt32 := fun _ _ => pure (.ok, 0)
  columnReal := fun _ _ => pure (.ok, 0)
  columnText := fun _ _ => pure (.ok, none)
  columnBlob := fun _ _ => pure (.ok, none)
  columnIsnull := fun _ _ => pure (.ok, false)
  reset := fun _ => pure .ok
  finalize := fun _ => pure .ok
  begin := pure .ok
  commit := pure .ok
  rollback := pure .ok
  savepoint := fun _ => pure .ok
  releaseSp := fun _ => pure .ok
  rollbackSp := fun _ => pure .ok
  changes := pure 0

/-- A new handle on the tracer. -/
def tracerHandle : SqlRDBHandle (List (CStr × List SqlValue)) :=
  freshHandle [] ⟨fun _ => false, fun _ => false, 0, 1, ⟨[], [], none⟩, false⟩

/-- The statements that `c2sql_internal_migrate_table` sends for a struct, and the one that adds a
column to its table. -/
def pgStatements (s : SqlRDBSchema) (col : SqlRDBColumnDef) : List (CStr × List SqlValue) :=
  (internalMigrateTable tracer 1 s tracerHandle).2.ctx ++
    (alterAdd tracer s [col] tracerHandle).2.ctx

theorem pgStatements_eq (s : SqlRDBSchema) (col : SqlRDBColumnDef) :
    pgStatements s col =
      [(buildCreate s .postgres, []), (pgColumnsSql, [.text s.name]), (pgPkSql, [.text s.name]),
        (pgUniqueSql, [.text s.name]), (buildAlterAdd s .postgres col, [])] := by
  simp [pgStatements, internalMigrateTable, alterAdd, qbBuild, malloc, drv, bind, StateT.bind,
    StateLogic.pure_run, internalQbBuild, readExisting, readTableInfoPg, collectCols,
    pgCollectNames, collectNames, tracer, tracerHandle, freshHandle]

/-! ## The server -/

/-- A relation: whether it is in the current schema, and its name. -/
structure PgRelation where
  current : Bool
  name : CStr
  deriving DecidableEq

/-- What is left open of a server: whether the value compared with `table_name`, and the input of
`regclass`, are cut to the length of a name; and which names a schema has that is searched before
the current one. -/
structure PgServer where
  clipsName : Bool
  clipsRegclass : Bool
  shadows : CStr → Bool

/-- A name is cut to `NAMEDATALEN - 1` bytes. -/
def pgClip (name : CStr) : CStr := name.take 63

/-- `tolower` in the C locale. -/
def tolower (c : UInt8) : UInt8 := if 65 ≤ c && c ≤ 90 then c + 32 else c

/-- The quoted identifier that follows the given words at the start of a statement. -/
def identAfter (words : List CStr) (ts : List Token) : Option CStr :=
  if words.map Token.word <+: ts then
    match ts.drop words.length with
    | .ident name :: _ => some name
    | _ => none
  else none

/-- The words of `CREATE TABLE IF NOT EXISTS`. -/
def createWords : List CStr := ["CREATE", "TABLE", "IF", "NOT", "EXISTS"].map lit

/-- The words of `ALTER TABLE`. -/
def alterWords : List CStr := ["ALTER", "TABLE"].map lit

/-- How a statement names a relation: by a quoted identifier, or by its first value. -/
inductive PgUse
  | create (name : CStr)
  | alter (name : CStr)
  | byName
  | byRegclass
  | other
  deriving DecidableEq

/-- How the first placeholder is used: in `table_name = $1`, or in `$1::regclass`. -/
def paramUse : List Token → PgUse
  | t₁ :: t₂ :: .param (some 1) :: ts =>
    if t₁ = .word (lit "table_name") ∧ t₂ = .sym (lit "=") then .byName
    else if [.sym (lit ":"), .sym (lit ":"), .word (lit "regclass")] <+: ts then .byRegclass
    else .other
  | _ :: ts => paramUse ts
  | [] => .other

/-- How the tokens of a statement name a relation. -/
def pgUse (ts : List Token) : PgUse :=
  match identAfter createWords ts, identAfter alterWords ts with
  | some name, _ => .create name
  | none, some name => .alter name
  | none, none => paramUse ts

namespace PgServer

variable (srv : PgServer)

/-- The relation that a name without a schema stands for. -/
def search (name : CStr) : PgRelation := ⟨!srv.shadows name, name⟩

/-- The relation whose row in `information_schema` has this `table_name`. -/
def byName (name : CStr) : PgRelation := ⟨true, if srv.clipsName then pgClip name else name⟩

/-- The relation of a `regclass` input without quotes. -/
def byRegclass (name : CStr) : PgRelation :=
  srv.search (if srv.clipsRegclass then pgClip (name.map tolower) else name.map tolower)

/-- The relation that a statement is about: the one it creates or alters, or the one whose catalog
entries it reads. -/
def target : CStr × List SqlValue → Option PgRelation
  | (sql, values) =>
    match pgUse (lex sql), values with
    | .create name, _ => some ⟨true, pgClip name⟩
    | .alter name, _ => some (srv.search (pgClip name))
    | .byName, [.text name] => some (srv.byName name)
    | .byRegclass, [.text name] => some (srv.byRegclass name)
    | _, _ => none

/-- The first 63 bytes of the name have no upper-case letter; it is no longer than that, unless the
server cuts it everywhere; and no other relation hides the one of this name. -/
def Plain (name : CStr) : Prop :=
  (∀ c ∈ pgClip name, tolower c = c) ∧
    (name.length ≤ 63 ∨ srv.clipsName = true ∧ srv.clipsRegclass = true) ∧
    srv.shadows (pgClip name) = false

/-! ## The targets -/

variable {srv} {name : CStr}

theorem identAfter_of_lex {words : List CStr} {ts rest : List Token} {name : CStr}
    (h : ts = words.map Token.word ++ .ident name :: rest) : identAfter words ts = some name := by
  have hdrop : ts.drop words.length = .ident name :: rest := by
    rw [h, List.drop_left' (by simp)]
  rw [identAfter, if_pos ⟨_, h.symm⟩, hdrop]

/-- The tokens of a statement that begins with words and a quoted name. -/
theorem lex_words_quoted {words : List CStr} {head text : CStr} (hname : byte '"' ∉ name)
    (hhead : SqlText.run .start head = (words.map Token.word, .start))
    (htext : text.head? ≠ some (byte '"')) :
    lex (head ++ quoted name ++ text) = words.map Token.word ++ .ident name :: lex text := by
  rw [List.append_assoc, lex, lexFrom_append, hhead]
  show _ ++ lex (quoted name ++ text) = _
  rw [lex_append (breaks_quoted hname htext), (lexes_quotedName hname).lex_eq]
  rfl

theorem target_create (s : SqlRDBSchema) (hs : identifierValid s.name = true) :
    srv.target (buildCreate s .postgres, []) = some ⟨true, pgClip s.name⟩ := by
  have hlex : lex (buildCreate s .postgres) = createWords.map Token.word ++ .ident s.name ::
      lex (lit " (" ++
        (commaSep (s.cols.map (columnDefText .postgres)) ++ createEnd .postgres)) := by
    rw [buildCreate_eq, List.append_assoc, List.append_assoc]
    exact lex_words_quoted (quote_not_mem hs) (by decide +kernel)
      fun h => absurd (Option.some.inj h) (by decide)
  simp only [target, pgUse, identAfter_of_lex hlex]

theorem target_alter (s : SqlRDBSchema) (col : SqlRDBColumnDef)
    (hs : identifierValid s.name = true) :
    srv.target (buildAlterAdd s .postgres col, []) = some (srv.search (pgClip s.name)) := by
  have hlex : lex (buildAlterAdd s .postgres col) = alterWords.map Token.word ++ .ident s.name ::
      lex (lit " ADD COLUMN " ++ columnDefText .postgres col) := by
    rw [buildAlterAdd_eq, List.append_assoc]
    exact lex_words_quoted (quote_not_mem hs) (by decide +kernel)
      fun h => absurd (Option.some.inj h) (by decide)
  have hcreate : identAfter createWords (lex (buildAlterAdd s .postgres col)) = none := by
    rw [identAfter, if_neg]
    rintro ⟨rest, hrest⟩
    rw [hlex] at hrest
    have hword : lit "CREATE" = lit "ALTER" :=
      Token.word.inj (Option.some.inj (congrArg List.head? hrest))
    revert hword
    decide
  simp only [target, pgUse, hcreate, identAfter_of_lex hlex]

theorem identAfter_of_head {word : CStr} {words : List CStr} {ts : List Token} {t : Token}
    (ht : ts.head? = some t) (hne : t ≠ .word word) : identAfter (word :: words) ts = none := by
  rw [identAfter, if_neg]
  rintro ⟨rest, rfl⟩
  exact hne (Option.some.inj ht).symm

/-- A query names its relation by a placeholder. -/
theorem pgUse_select {ts : List Token} (h : ts.head? = some (.word (lit "SELECT"))) :
    pgUse ts = paramUse ts := by
  have hcreate : identAfter createWords ts = none :=
    identAfter_of_head h (by decide)
  have halter : identAfter alterWords ts = none :=
    identAfter_of_head h (by decide)
  simp only [pgUse, hcreate, halter]

theorem lit_append (a b : String) : lit (a ++ b) = lit a ++ lit b := by simp [lit]

theorem target_columns (name : CStr) :
    srv.target (pgColumnsSql, [.text name]) = some (srv.byName name) := by
  have huse : paramUse (lex pgColumnsSql) = .byName := by
    simp only [pgColumnsSql, lit_append]
    decide +kernel
  have hhead : (lex pgColumnsSql).head? = some (.word (lit "SELECT")) := by
    simp only [pgColumnsSql, lit_append]
    decide +kernel
  simp only [target, pgUse_select hhead, huse]

theorem target_pk (name : CStr) :
    srv.target (pgPkSql, [.text name]) = some (srv.byRegclass name) := by
  have huse : paramUse (lex pgPkSql) = .byRegclass := by
    simp only [pgPkSql, lit_append]
    decide +kernel
  have hhead : (lex pgPkSql).head? = some (.word (lit "SELECT")) := by
    simp only [pgPkSql, lit_append]
    decide +kernel
  simp only [target, pgUse_select hhead, huse]

theorem target_unique (name : CStr) :
    srv.target (pgUniqueSql, [.text name]) = some (srv.byRegclass name) := by
  have huse : paramUse (lex pgUniqueSql) = .byRegclass := by
    simp only [pgUniqueSql, lit_append]
    decide +kernel
  have hhead : (lex pgUniqueSql).head? = some (.word (lit "SELECT")) := by
    simp only [pgUniqueSql, lit_append]
    decide +kernel
  simp only [target, pgUse_select hhead, huse]

/-! ## One relation -/

theorem byName_eq_iff : srv.byName name = ⟨true, pgClip name⟩ ↔
    name.length ≤ 63 ∨ srv.clipsName = true := by
  cases hclip : srv.clipsName <;> simp [byName, hclip, pgClip]

/-- Folding keeps the first 63 bytes of a name iff they have no upper-case letter. -/
theorem pgClip_map_tolower : pgClip (name.map tolower) = pgClip name ↔
    ∀ c ∈ pgClip name, tolower c = c := by
  rw [pgClip, pgClip, ← List.map_take]
  simpa using List.map_inj_left (l := name.take 63) (f := tolower) (g := id)

theorem byRegclass_eq_iff (hshadow : srv.shadows (pgClip name) = false) :
    srv.byRegclass name = ⟨true, pgClip name⟩ ↔
      (∀ c ∈ pgClip name, tolower c = c) ∧ (name.length ≤ 63 ∨ srv.clipsRegclass = true) := by
  have hsearch : ∀ n, srv.search n = ⟨true, pgClip name⟩ ↔ n = pgClip name := by
    intro n
    rw [search, PgRelation.mk.injEq]
    refine ⟨fun h => h.2, ?_⟩
    rintro rfl
    exact ⟨by simp [hshadow], rfl⟩
  rw [byRegclass, hsearch, ← pgClip_map_tolower]
  cases srv.clipsRegclass with
  | true => simp
  | false =>
    simp only [Bool.false_eq_true, if_false, or_false]
    constructor
    · intro h
      have hlen := congrArg List.length h
      rw [List.length_map, pgClip, List.length_take] at hlen
      refine ⟨?_, by omega⟩
      rw [h, pgClip, pgClip, List.take_take, Nat.min_self]
    · rintro ⟨h, hlen⟩
      rwa [pgClip, List.take_of_length_le (by simpa using hlen)] at h

end PgServer

/-- **The statements of a registration are about one relation iff the name is plain.** -/
theorem one_relation_iff (srv : PgServer) (s : SqlRDBSchema) (col : SqlRDBColumnDef)
    (hs : identifierValid s.name = true) :
    (∃ r, ∀ q ∈ pgStatements s col, srv.target q = some r) ↔ srv.Plain s.name := by
  rw [pgStatements_eq]
  simp only [List.forall_mem_cons, PgServer.target_create s hs, PgServer.target_alter s col hs,
    PgServer.target_columns, PgServer.target_pk, PgServer.target_unique, Option.some.injEq]
  constructor
  · rintro ⟨r, rfl, hname, hreg, -, halter, -⟩
    have hshadow : srv.shadows (pgClip s.name) = false := by
      simpa [PgServer.search] using halter
    obtain ⟨hlower, hlen⟩ := (PgServer.byRegclass_eq_iff hshadow).1 hreg
    have hlen' := PgServer.byName_eq_iff.1 hname
    exact ⟨hlower, by tauto, hshadow⟩
  · rintro ⟨hlower, hlen, hshadow⟩
    have hreg := (PgServer.byRegclass_eq_iff hshadow).2 ⟨hlower, by tauto⟩
    refine ⟨_, rfl, PgServer.byName_eq_iff.2 (by tauto), hreg, hreg, ?_, by simp⟩
    simp [PgServer.search, hshadow]

/-- The sample struct, on a server that cuts every name and has no other schema. -/
theorem one_relation_sample :
    let srv : PgServer := ⟨true, true, fun _ => false⟩
    let col : SqlRDBColumnDef := ⟨lit "age", .int32, 0, 4, flagNullable⟩
    srv.Plain (lit "persons") ∧
      ∃ r, ∀ q ∈ pgStatements personsSchema col, srv.target q = some r := by
  intro srv col
  have hplain : srv.Plain personsSchema.name := ⟨by decide +kernel, .inr ⟨rfl, rfl⟩, rfl⟩
  have hvalid : identifierValid personsSchema.name = true := by decide +kernel
  exact ⟨hplain, (one_relation_iff srv personsSchema col hvalid).2 hplain⟩

/-- A struct `Person`: the keys that are read are those of a relation `person`. -/
theorem capital_name_differs :
    let srv : PgServer := ⟨true, true, fun _ => false⟩
    let s : SqlRDBSchema := { personsSchema with name := lit "Person" }
    let col : SqlRDBColumnDef := ⟨lit "age", .int32, 0, 4, flagNullable⟩
    identifierValid s.name = true ∧
      srv.target (buildCreate s .postgres, []) = some ⟨true, lit "Person"⟩ ∧
      srv.target (pgPkSql, [.text s.name]) = some ⟨true, lit "person"⟩ ∧
      ¬∃ r, ∀ q ∈ pgStatements s col, srv.target q = some r := by
  have hcreate : (⟨true, true, fun _ => false⟩ : PgServer).target
      (buildCreate { personsSchema with name := lit "Person" } .postgres, []) =
        some ⟨true, lit "Person"⟩ :=
    PgServer.target_create { personsSchema with name := lit "Person" } (by decide +kernel)
  have hpk : (⟨true, true, fun _ => false⟩ : PgServer).target
      (pgPkSql, [.text (lit "Person")]) = some ⟨true, lit "person"⟩ :=
    PgServer.target_pk (lit "Person")
  refine ⟨by decide +kernel, hcreate, hpk, ?_⟩
  rintro ⟨r, hr⟩
  rw [pgStatements_eq] at hr
  have hsame := (hcreate.symm.trans (hr _ (by simp))).trans ((hr _ (by simp)).symm.trans hpk)
  revert hsame
  decide

end C2Sql
