import C2Sql.Lib.SqlStatement
import C2Sql.WhereClause

/-!
# The generated statements parsed

Every text of the query builder is parsed as the statement it is meant to be.

* `insertStatement`, `createStatement`, `condStatement`: the statements of the builders;
* `parsed_buildInsert`, `parsed_buildUpsert`, `parsed_buildCreate`, `parsed_buildAlterAdd`,
  `parsed_condText`: what a parser makes of their texts.
-/

namespace C2Sql

open SqlText

/-- The statement that a text is, with its placeholders numbered. -/
def parsed (text : CStr) : Option Statement := parseStatement (number 0 (lex text))

/-! ## Numbering -/

theorem params_commaTokens {α : Type} {f : α → List Token} (h : ∀ x, params (f x) = [])
    (xs : List α) : params (commaTokens (xs.map f)) = [] := by
  induction xs with
  | nil => rfl
  | cons x xs ih =>
    cases xs with
    | nil => exact h x
    | cons y ys =>
      change params (f x ++ .sym (bytes ",") :: commaTokens ((y :: ys).map f)) = []
      rw [params_append, h x]
      exact ih

/-- Placeholders with commas between them. -/
def paramTokens (d : C2SqlDialect) (n k : ℕ) : List Token :=
  commaTokens ((List.range' (n + 1) k).map fun j => [.param (placeholderNumber d j)])

theorem number_paramTokens (d : C2SqlDialect) (n k : ℕ) :
    number n (paramTokens d n k) =
      commaTokens ((List.range' (n + 1) k).map fun j => [.param (some j)]) := by
  have hfirst : ∀ m ts, number m (.param (placeholderNumber d (m + 1)) :: ts) =
      .param (some (m + 1)) :: number (m + 1) ts := by
    intro m ts
    cases d with
    | sqlite => rfl
    | postgres => rw [placeholderNumber, number, max_eq_right (by omega)]
  induction k generalizing n with
  | zero => rfl
  | succ k ih =>
    cases k with
    | zero => exact hfirst n []
    | succ k =>
      have htail := ih (n + 1)
      simp only [paramTokens, List.range'_succ, List.map_cons, commaTokens, List.singleton_append]
        at htail ⊢
      rw [hfirst]
      exact congrArg (fun ts => .param (some (n + 1)) :: .sym (bytes ",") :: ts) htail

/-! ## Tokens of the builders -/

theorem lexes_commaSep {α : Type} {f : α → CStr} {g : α → List Token} {l : List α}
    (h : ∀ x ∈ l, Lexes (f x) (g x)) : Lexes (commaSep (l.map f)) (commaTokens (l.map g)) := by
  induction l with
  | nil => exact Lexes.nil
  | cons x l ih =>
    cases l with
    | nil => exact h x (by simp)
    | cons y l =>
      have hcomma : Lexes (lit ",") [.sym (bytes ",")] := ⟨rfl, rfl⟩
      have hsep := (h x (by simp)).sep hcomma rfl (by decide) rfl
        (ih fun z hz => h z (by simp [hz]))
      simpa [commaSep, commaTokens] using hsep

theorem lexes_appendPlaceholders (d : C2SqlDialect) {n k : ℕ} (hn : n + k < 10 ^ 14) :
    Lexes (commaSep (appendPlaceholders d k n).1) (paramTokens d n k) := by
  have hlist : (appendPlaceholders d k n).1 = (List.range' (n + 1) k).map (placeholder d) := by
    clear hn
    induction k generalizing n with
    | zero => rfl
    | succ k ih =>
      rw [List.range'_succ, List.map_cons, ← ih]
      rfl
  rw [hlist]
  refine lexes_commaSep fun j hj => lexes_placeholder d ?_
  rw [List.mem_range'_1] at hj
  omega

/-- The words of a column type. -/
def typeWords (d : C2SqlDialect) (t : SqlRDBType) : List CStr :=
  (lex (typeToSqlStr t d)).filterMap fun
    | .word w => some w
    | _ => none

/-- The definition of a column. -/
def columnDeclOf (d : C2SqlDialect) (c : SqlRDBColumnDef) : ColumnDecl where
  name := c.name
  type := typeWords d c.type
  notNull := !c.nullable
  primaryKey := c.pk
  unique := c.unique && !c.pk

theorem columnDeclOf_wellFormed (d : C2SqlDialect) (c : SqlRDBColumnDef) :
    (columnDeclOf d c).WellFormed := by
  have hall : (typeWords d c.type).all (fun w => !isConstraint w) = true := by
    cases c.type <;> cases d <;> rfl
  intro w hw
  simpa using List.all_eq_true.1 hall w hw

theorem lexes_columnDefText (d : C2SqlDialect) {c : SqlRDBColumnDef} (hq : byte '"' ∉ c.name) :
    Lexes (columnDefText d c) (columnDeclOf d c).tokens := by
  have htype : Lexes (lit " " ++ typeToSqlStr c.type d) ((typeWords d c.type).map .word) := by
    cases c.type <;> cases d <;> exact ⟨rfl, rfl⟩
  have hflags : ∀ nullable pk unique : Bool,
      Lexes ((if !nullable then lit " NOT NULL" else []) ++
          (if pk then lit " PRIMARY KEY" else []) ++ (if unique && !pk then lit " UNIQUE" else []))
        (List.map .word ((if !nullable then [bytes "NOT", bytes "NULL"] else []) ++
          (if pk then [bytes "PRIMARY", bytes "KEY"] else []) ++
          (if unique && !pk then [bytes "UNIQUE"] else []))) := by
    intro nullable pk unique
    cases nullable <;> cases pk <;> cases unique <;> exact ⟨rfl, rfl⟩
  have hcons : Lexes (appendColConstraints c) ((columnDeclOf d c).constraintWords.map .word) :=
    hflags _ _ _
  have h := ((lexes_quotedName hq).append_break htype rfl).append_break hcons
    (startsBreak_appendColConstraints c)
  simpa [columnDefText, ColumnDecl.tokens, columnDeclOf] using h

/-! ## Statements of a schema -/

/-- The INSERT statement of a schema. -/
def insertStatement (s : SqlRDBSchema) (conflict : Option Upsert) : Statement :=
  .insert s.name (s.cols.map fun c => c.name) (List.range' 1 s.cols.length) conflict

/-- The `ON CONFLICT` clause of a schema. -/
def upsertOf (s : SqlRDBSchema) : Upsert :=
  ⟨[pkName s], (nonPkCols s).map fun c => (c.name, c.name)⟩

/-- The CREATE statement of a schema. -/
def createStatement (d : C2SqlDialect) (s : SqlRDBSchema) : Statement :=
  .create s.name (s.cols.map (columnDeclOf d))
    (match d with
    | .sqlite => [lit "STRICT"]
    | .postgres => [])

section Builders

variable {s : SqlRDBSchema} (hs : s.WellFormed) (d : C2SqlDialect)

include hs

theorem lexes_columnNames :
    Lexes (commaSep (s.cols.map fun c => quoted c.name))
      (commaTokens ((s.cols.map fun c => c.name).map fun c => [.ident c])) := by
  rw [List.map_map]
  exact lexes_commaSep fun c hc => lexes_quotedName (quote_not_mem (hs.col_valid c hc))

theorem lexes_tableName : Lexes (quoted s.name) [.ident s.name] :=
  lexes_quotedName (quote_not_mem hs.name_valid)

/-- The tokens of `build_create`. -/
theorem lexes_buildCreate : Lexes (buildCreate s d) (createStatement d s).tokens := by
  have hhead : Lexes (lit "CREATE TABLE IF NOT EXISTS ") [.word (bytes "CREATE"),
    .word (bytes "TABLE"), .word (bytes "IF"), .word (bytes "NOT"), .word (bytes "EXISTS")] :=
    ⟨rfl, rfl⟩
  have hopen : Lexes (lit " (") [.sym (bytes "(")] := ⟨rfl, rfl⟩
  have hcols : Lexes (commaSep (s.cols.map (columnDefText d)))
      (commaTokens ((s.cols.map (columnDeclOf d)).map ColumnDecl.tokens)) := by
    rw [List.map_map]
    exact lexes_commaSep fun c hc => lexes_columnDefText d (quote_not_mem (hs.col_valid c hc))
  have hstart := ((hhead.append_start rfl (lexes_tableName hs)).sep hopen rfl (by decide) rfl hcols)
  rw [buildCreate_eq]
  cases d with
  | sqlite =>
    have hend : Lexes (lit ") STRICT") [.sym (bytes ")"), .word (lit "STRICT")] := ⟨rfl, rfl⟩
    simpa [createStatement, Statement.tokens, createEnd] using hstart.append_break hend rfl
  | postgres =>
    have hend : Lexes (lit ")") [.sym (bytes ")")] := ⟨rfl, rfl⟩
    simpa [createStatement, Statement.tokens, createEnd] using hstart.append_break hend rfl

omit hs in
/-- The tokens of an INSERT statement, numbered. -/
theorem number_insertTokens :
    number 0 ((([.word (bytes "INSERT"), .word (bytes "INTO")] ++ [.ident s.name] ++
        [.sym (bytes "(")] ++ commaTokens ((s.cols.map fun c => c.name).map fun c => [.ident c])) ++
        [.sym (bytes ")"), .word (bytes "VALUES"), .sym (bytes "(")] ++
        paramTokens d 0 s.cols.length) ++ [.sym (bytes ")")]) =
      insertTokens s.name (s.cols.map fun c => c.name) (List.range' 1 s.cols.length) := by
  have hnone := params_commaTokens (f := fun c => [Token.ident c]) (fun _ => rfl)
    (s.cols.map fun c => c.name)
  have hhead : params (([.word (bytes "INSERT"), .word (bytes "INTO")] ++ [.ident s.name] ++
      [.sym (bytes "(")] ++ commaTokens ((s.cols.map fun c => c.name).map fun c => [.ident c])) ++
      [.sym (bytes ")"), .word (bytes "VALUES"), .sym (bytes "(")]) = [] := by
    rw [params_append, params_append, hnone]
    rfl
  have hclose : params [.sym (bytes ")")] = [] := rfl
  rw [number_append, number_append, (number_of_params hhead 0).1, (number_of_params hhead 0).2,
    number_paramTokens, (number_of_params hclose _).1]
  simp [insertTokens]

/-- The tokens of `build_insert`. -/
theorem lexes_buildInsert :
    ∃ ts, Lexes (buildInsert s d 0).1 ts ∧ number 0 ts =
      insertTokens s.name (s.cols.map fun c => c.name) (List.range' 1 s.cols.length) := by
  have hlen := hs.length_le
  have hmax : maxColumns = 64 := rfl
  have hhead : Lexes (lit "INSERT INTO ") [.word (bytes "INSERT"), .word (bytes "INTO")] :=
    ⟨rfl, rfl⟩
  have hopen : Lexes (lit " (") [.sym (bytes "(")] := ⟨rfl, rfl⟩
  have hvalues : Lexes (lit ") VALUES (") [.sym (bytes ")"), .word (bytes "VALUES"),
    .sym (bytes "(")] := ⟨rfl, rfl⟩
  have hclose : Lexes (lit ")") [.sym (bytes ")")] := ⟨rfl, rfl⟩
  have hparams := lexes_appendPlaceholders d (n := 0) (k := s.cols.length) (by omega)
  have hcols := (hhead.append_start rfl (lexes_tableName hs)).sep hopen rfl (by decide) rfl
    (lexes_columnNames hs)
  refine ⟨_, ?_, number_insertTokens d⟩
  have htext := (hcols.sep hvalues rfl (by decide) rfl hparams).append_break hclose rfl
  convert htext using 1
  simp [buildInsert, quoted, lit]

/-- **`build_insert` is parsed as the INSERT statement of the schema.** -/
theorem parsed_buildInsert :
    parsed (buildInsert s d 0).1 = some (insertStatement s none) := by
  obtain ⟨ts, hlex, hnum⟩ := lexes_buildInsert hs d
  have htokens : number 0 ts = (insertStatement s none).tokens := by
    rw [hnum, insertStatement, Statement.tokens]
    simp
  rw [parsed, hlex.lex_eq, htokens]
  refine parseStatement_tokens ⟨?_, ?_, (by rintro _ ⟨⟩)⟩
  · simpa using hs.cols_ne_nil
  · simpa using hs.cols_ne_nil

/-- The tokens of `build_upsert`. -/
theorem number_buildUpsert (hpk : s.pkIndex.isSome = true) :
    number 0 (lex (buildUpsert s d 0).1) =
      insertTokens s.name (s.cols.map fun c => c.name) (List.range' 1 s.cols.length) ++
        (upsertOf s).tokens := by
  obtain ⟨ts, hlex, hnum⟩ := lexes_buildInsert hs d
  obtain ⟨c, hc, hname⟩ := pkName_mem hs hpk
  have hkey : Lexes (quoted (pkName s)) [.ident (pkName s)] :=
    lexes_quotedName (hname ▸ quote_not_mem (hs.col_valid c hc))
  have hon : Lexes (lit " ON CONFLICT(") [.word (bytes "ON"), .word (bytes "CONFLICT"),
    .sym (bytes "(")] := ⟨rfl, rfl⟩
  have hset : Lexes (lit ") DO UPDATE SET ") [.sym (bytes ")"), .word (bytes "DO"),
    .word (bytes "UPDATE"), .word (bytes "SET")] := ⟨rfl, rfl⟩
  have hsets : Lexes (commaSep ((nonPkCols s).map fun c =>
      quoted c.name ++ lit "=excluded." ++ quoted c.name)) (commaTokens ((nonPkCols s).map fun c =>
        [.ident c.name, .sym (bytes "="), .word (bytes "excluded"), .sym (bytes "."),
          .ident c.name])) := by
    refine lexes_commaSep fun c hc => ?_
    have hq := quote_not_mem (hs.col_valid c (mem_cols_of_nonPkCols hc))
    have hmid : Lexes (lit "=excluded.") [.sym (bytes "="), .word (bytes "excluded"),
      .sym (bytes ".")] := ⟨rfl, rfl⟩
    have hleft := (lexes_quotedName hq).append hmid (breaks_quoted hq (by decide))
    refine hleft.append_start ?_ (lexes_quotedName hq)
    rw [endState_append (breaks_quoted hq (by decide)) (by decide)]
    rfl
  have htext := (hlex.sep hon rfl (by decide) rfl hkey).sep hset rfl (by decide) rfl hsets
  have hnone : params ((upsertOf s).tokens) = [] := by
    simp only [Upsert.tokens, targetTokens, params_append, params_commaTokens
      (f := fun c => [Token.ident c]) (fun _ => rfl), params_commaTokens
      (f := fun x : CStr × CStr => [Token.ident x.1, .sym (bytes "="), .word (bytes "excluded"),
        .sym (bytes "."), .ident x.2]) (fun _ => rfl)]
    rfl
  have htokens : lex (buildUpsert s d 0).1 = ts ++ (upsertOf s).tokens := by
    rw [buildUpsert_eq, htext.lex_eq]
    simp [upsertOf, Upsert.tokens, targetTokens, commaTokens, Function.comp_def]
  rw [htokens, number_append, hnum, (number_of_params hnone _).1]

/-- **`build_upsert` is parsed as the INSERT statement of the schema with a conflict clause**, if
there is a column to set. -/
theorem parsed_buildUpsert (hpk : s.pkIndex.isSome = true) (hset : nonPkCols s ≠ []) :
    parsed (buildUpsert s d 0).1 = some (insertStatement s (some (upsertOf s))) := by
  have htokens : number 0 (lex (buildUpsert s d 0).1) =
      (insertStatement s (some (upsertOf s))).tokens := by
    rw [number_buildUpsert hs d hpk]
    rfl
  rw [parsed, htokens]
  refine parseStatement_tokens ⟨by simpa using hs.cols_ne_nil, by simpa using hs.cols_ne_nil, ?_⟩
  rintro u ⟨rfl⟩
  exact ⟨List.cons_ne_nil _ _, by simpa [upsertOf] using hset⟩

/-- Without a column to set, `build_upsert` is no statement. -/
theorem parsed_buildUpsert_eq_none (hpk : s.pkIndex.isSome = true) (hset : nonPkCols s = []) :
    parsed (buildUpsert s d 0).1 = none := by
  have htokens : (upsertOf s).tokens = targetTokens [pkName s] := by
    simp [upsertOf, hset, Upsert.tokens, commaTokens]
  rw [parsed, number_buildUpsert hs d hpk, htokens]
  exact parseStatement_eq_none s.name (by simpa using hs.cols_ne_nil)
    (by simpa using hs.cols_ne_nil) (List.cons_ne_nil _ _)

/-- **`build_create` is parsed as the CREATE statement of the schema.** -/
theorem parsed_buildCreate : parsed (buildCreate s d) = some (createStatement d s) := by
  have hpieces : Pieces (fun _ => True) d 0 0 (buildCreate s d) :=
    pieces_buildCreate hs trivial fun _ _ => trivial
  rw [parsed, (number_of_params hpieces.params_eq 0).1, (lexes_buildCreate hs d).lex_eq]
  refine parseStatement_tokens ⟨by simpa using hs.cols_ne_nil, fun c hc => ?_⟩
  obtain ⟨c, -, rfl⟩ := List.mem_map.1 hc
  exact columnDeclOf_wellFormed d c

end Builders

/-! ## Statements with a condition -/

/-- The expression of an optional condition whose placeholders come after the `n`-th. -/
def whereExpr (cond : Option SqlRDBCondition) (n : ℕ) : Option Expr :=
  match cond with
  | none => none
  | some .all => none
  | some c => some (condExpr c n)

/-- The statement of an operation that takes a condition; `col` is the target of a field
operation. -/
def condStatement (op : C2SqlQBOp) (s : SqlRDBSchema) (cond : Option SqlRDBCondition) (col : CStr) :
    Statement :=
  match op with
  | .count => .count s.name (whereExpr cond 0)
  | .delete => .delete s.name (whereExpr cond 0)
  | .updateField => .update s.name col 1 (whereExpr cond 1)
  | .selectField => .select [col] s.name (whereExpr cond 0)
  | _ => .select (s.cols.map fun c => c.name) s.name (whereExpr cond 0)

theorem condTokens_eq {c : SqlRDBCondition} (hc : c.NoAll) (n : ℕ) :
    condTokens .postgres c n = (condExpr c n).tokens := by
  induction c generalizing n with
  | all => cases hc
  | leaf col op v => cases op <;> rfl
  | and l r ihl ihr => rw [condTokens, ihl hc.1, ihr hc.2, condExpr, Expr.tokens]
  | or l r ihl ihr => rw [condTokens, ihl hc.1, ihr hc.2, condExpr, Expr.tokens]

/-- Match-all is the root of the condition or does not occur in it. -/
def RootOnly (cond : Option SqlRDBCondition) : Prop := ∀ c, cond = some c → c.AllAtRoot

theorem number_whereClauseTokens (d : C2SqlDialect) {cond : Option SqlRDBCondition}
    (hcond : RootOnly cond) (n : ℕ) :
    number n (whereClauseTokens d cond n) = whereClauseOf (whereExpr cond n) := by
  cases cond with
  | none => rfl
  | some c =>
    obtain rfl | hc := hcond c rfl
    · rfl
    · have htokens := (number_condTokens d c n).1
      rw [condTokens_eq hc] at htokens
      cases c with
      | all => cases hc
      | leaf => exact congrArg (List.cons _) htokens
      | and => exact congrArg (List.cons _) htokens
      | or => exact congrArg (List.cons _) htokens

/-- The tokens of what stands before a condition, numbered. -/
theorem number_headText {s : SqlRDBSchema} (hs : s.WellFormed) (d : C2SqlDialect) {op : C2SqlQBOp}
    (hop : isCondOp op = true) {col : CStr} (hq : byte '"' ∉ col) (cond : Option SqlRDBCondition) :
    number 0 (lex (headText op s d col).1) ++
        whereClauseOf (whereExpr cond (headText op s d col).2) =
      (condStatement op s cond col).tokens := by
  have htable := lexes_tableName hs
  have hselect : Lexes (lit "SELECT ") [.word (bytes "SELECT")] := ⟨rfl, rfl⟩
  have hfrom : Lexes (lit " FROM ") [.word (bytes "FROM")] := ⟨rfl, rfl⟩
  have hplain : ∀ {text text' : CStr} {ts : List Token}, Lexes text' ts → text = text' →
      params ts = [] → number 0 (lex text) = ts := fun hl ht hn => by
    rw [ht, hl.lex_eq, (number_of_params hn 0).1]
  cases op with
  | select =>
    have htext := (hselect.append_start rfl (lexes_columnNames hs)).sep hfrom rfl (by decide) rfl
      htable
    have hnone := params_commaTokens (f := fun c => [Token.ident c]) (fun _ => rfl)
      (s.cols.map fun c => c.name)
    rw [hplain htext (by simp [headText, quoted, lit])
      (by rw [params_append, params_append, params_append, hnone]; rfl)]
    simp [condStatement, Statement.tokens, headText]
  | count =>
    have hcount : Lexes (lit "SELECT COUNT(*) FROM ") [.word (bytes "SELECT"),
      .word (bytes "COUNT"), .sym (bytes "("), .sym (bytes "*"), .sym (bytes ")"),
      .word (bytes "FROM")] := ⟨rfl, rfl⟩
    rw [hplain (hcount.append_start rfl htable) (by simp [headText, quoted, lit]) rfl]
    rfl
  | delete =>
    have hdelete : Lexes (lit "DELETE FROM ") [.word (bytes "DELETE"), .word (bytes "FROM")] :=
      ⟨rfl, rfl⟩
    rw [hplain (hdelete.append_start rfl htable) (by simp [headText, quoted, lit]) rfl]
    rfl
  | selectField =>
    have htext := (hselect.append_start rfl (lexes_quotedName hq)).sep hfrom rfl (by decide) rfl
      htable
    rw [hplain htext (by simp [headText, quoted, lit]) rfl]
    rfl
  | updateField =>
    have hupdate : Lexes (lit "UPDATE ") [.word (bytes "UPDATE")] := ⟨rfl, rfl⟩
    have hset : Lexes (lit " SET ") [.word (bytes "SET")] := ⟨rfl, rfl⟩
    have heq : Lexes (lit "=") [.sym (bytes "=")] := ⟨rfl, rfl⟩
    have hbr : (endState (lit "=")).Breaks (placeholder d 1) := by
      intro c hc
      cases d with
      | sqlite => cases (show some (byte '?') = some c from hc); rfl
      | postgres => cases (show some (byte '$') = some c from hc); rfl
    have hassign : Lexes (quoted col ++ lit "=" ++ placeholder d 1) ([.ident col] ++
        [.sym (bytes "=")] ++ [.param (placeholderNumber d 1)]) := by
      refine ((lexes_quotedName hq).append heq (breaks_quoted hq (by decide))).append
        (lexes_placeholder d (by norm_num)) ?_
      rwa [endState_append (breaks_quoted hq (by decide)) (by decide)]
    have htext := (hupdate.append_start rfl htable).sep hset rfl (by decide) rfl hassign
    have htext' : (headText .updateField s d col).1 = lit "UPDATE " ++ quoted s.name ++
        lit " SET " ++ (quoted col ++ lit "=" ++ placeholder d 1) := by
      simp [headText, quoted, lit]
    rw [htext', htext.lex_eq]
    cases d <;> rfl
  | create => cases hop
  | insert => cases hop
  | upsert => cases hop
  | alterAdd => cases hop

/-- **The text of an operation with a condition is parsed as its statement.** -/
theorem parsed_condText {s : SqlRDBSchema} (hs : s.WellFormed) (d : C2SqlDialect) {op : C2SqlQBOp}
    (hop : isCondOp op = true) {col : CStr} (hq : byte '"' ∉ col) {cond : Option SqlRDBCondition}
    (hcond : RootOnly cond) (hknown : knownCols s (condCols cond) = true)
    (hn : condLeaves cond < 2 ^ 31) :
    parsed ((headText op s d col).1 ++ whereText d cond (headText op s d col).2) =
      some (condStatement op s cond col) := by
  have hle : (headText op s d col).2 ≤ 1 := by
    cases op <;> simp [headText]
  have hhead : Pieces (fun _ => True) d 0 (headText op s d col).2 (headText op s d col).1 :=
    pieces_headText hs trivial (fun _ _ => trivial) op trivial hq
  obtain ⟨hwhere, hbr⟩ := lexes_whereText hs d cond hknown
    (n := (headText op s d col).2) (by omega)
  have hlex := (Lexes.append_break ⟨hhead.closed, rfl⟩ hwhere hbr).lex_eq
  have hlast : lastNumber 0 (lex (headText op s d col).1) = (headText op s d col).2 := by
    rw [lastNumber_of_params hhead.params_eq, Nat.zero_add]
  rw [parsed, hlex, number_append, hlast, number_whereClauseTokens d hcond,
    number_headText hs d hop hq]
  refine parseStatement_tokens ?_
  cases op with
  | select => simpa [condStatement, Statement.WellFormed] using hs.cols_ne_nil
  | selectField => exact List.cons_ne_nil _ _
  | count => trivial
  | delete => trivial
  | updateField => trivial
  | create => cases hop
  | insert => cases hop
  | upsert => cases hop
  | alterAdd => cases hop

/-- The statement of an operation without its condition. -/
theorem condStatement_none {s : SqlRDBSchema} (hs : s.WellFormed) {op : C2SqlQBOp}
    (hop : isCondOp op = true) (col : CStr) :
    (∃ t, condStatement op s none col = .count t none) ∨
      (∃ cols t, cols ≠ [] ∧ condStatement op s none col = .select cols t none) ∨
      (∃ t, condStatement op s none col = .delete t none) ∨
      ∃ t c k, condStatement op s none col = .update t c k none := by
  cases op with
  | select => exact .inr (.inl ⟨_, _, by simpa using hs.cols_ne_nil, rfl⟩)
  | selectField => exact .inr (.inl ⟨_, _, List.cons_ne_nil _ _, rfl⟩)
  | count => exact .inl ⟨_, rfl⟩
  | delete => exact .inr (.inr (.inl ⟨_, rfl⟩))
  | updateField => exact .inr (.inr (.inr ⟨_, _, _, rfl⟩))
  | create => cases hop
  | insert => cases hop
  | upsert => cases hop
  | alterAdd => cases hop

/-- **A text with match-all below the root of its condition is no statement.** -/
theorem rootOnly_of_parsed {s : SqlRDBSchema} (hs : s.WellFormed) (d : C2SqlDialect)
    {op : C2SqlQBOp} (hop : isCondOp op = true) {col : CStr} (hq : byte '"' ∉ col)
    {cond : Option SqlRDBCondition} (hknown : knownCols s (condCols cond) = true)
    (hn : condLeaves cond < 2 ^ 31) {st : Statement}
    (hparsed : parsed ((headText op s d col).1 ++ whereText d cond (headText op s d col).2) =
      some st) : RootOnly cond := by
  rintro c rfl
  by_contra hroot
  have hne : c ≠ .all := fun h => hroot (.inl h)
  have hle : (headText op s d col).2 ≤ 1 := by
    cases op <;> simp [headText]
  have hhead : Pieces (fun _ => True) d 0 (headText op s d col).2 (headText op s d col).1 :=
    pieces_headText hs trivial (fun _ _ => trivial) op trivial hq
  obtain ⟨hwhere, hbr⟩ := lexes_whereText hs d (some c) hknown
    (n := (headText op s d col).2) (by omega)
  have hlex := (Lexes.append_break ⟨hhead.closed, rfl⟩ hwhere hbr).lex_eq
  have hlast : lastNumber 0 (lex (headText op s d col).1) = (headText op s d col).2 := by
    rw [lastNumber_of_params hhead.params_eq, Nat.zero_add]
  have hclause : ∀ n, number n (whereClauseTokens d (some c) n) =
      .word kwWhere :: condTokens .postgres c n := by
    intro n
    rw [← (number_condTokens d c n).1]
    cases c with
    | all => exact absurd rfl hne
    | leaf => rfl
    | and => rfl
    | or => rfl
  have hnumber := number_headText hs d hop hq none
  rw [show whereExpr none (headText op s d col).2 = none from rfl,
    show whereClauseOf none = [] from rfl, List.append_nil] at hnumber
  rw [parsed, hlex, number_append, hlast, hclause, hnumber,
    parseStatement_where_eq_none (parse_of_rejected
      (rejected_condTokens (fun h => hroot (.inr h)) _)) (condStatement_none hs hop col)] at hparsed
  cases hparsed

end C2Sql
