import C2Sql.Drivers
import C2Sql.SchemaRegistry

/-!
# The tokens of generated statements

What a SQL lexer reads in the texts of the query builder. A piece of text is described by the
tokens it may contain and by its placeholders (`Pieces`): pieces compose, and every builder is a
composition of fixed texts, quoted names and placeholders.

* `lexes_appendCond`: a condition's text is the token list `condTokens`;
* `pieces_headText`: the tokens and placeholders of what stands before a WHERE clause;
* `lexes_whereText`: the tokens of a WHERE clause;
* `internalQbBuild_eq`: the builder of an operation with a condition, and when it refuses.
-/

namespace C2Sql

open SqlText

/-! ## Names and placeholders -/

/-- The token of a placeholder. -/
def placeholderNumber : C2SqlDialect → ℕ → Option ℕ
  | .postgres, n => some n
  | .sqlite, _ => none

/-- The 16-byte buffer of `append_placeholder` holds every number below `10 ^ 14`. -/
theorem placeholder_postgres {n : ℕ} (hn : n < 10 ^ 14) :
    placeholder .postgres n = byte '$' :: decimal n := by
  have hlen := length_decimalBytes_le (by omega) hn
  rw [placeholder, List.take_of_length_le]
  · rfl
  · rw [List.length_append]
    exact Nat.add_le_add_left hlen 1

theorem lexes_placeholder (d : C2SqlDialect) {n : ℕ} (hn : n < 10 ^ 14) :
    Lexes (placeholder d n) [.param (placeholderNumber d n)] := by
  cases d with
  | sqlite => exact ⟨rfl, rfl⟩
  | postgres =>
    rw [placeholder_postgres hn]
    exact lexes_dollar_decimal n

theorem quote_not_mem {name : CStr} (h : identifierValid name = true) : byte '"' ∉ name :=
  not_mem_of_identifierValid h rfl

theorem lexes_quotedName {name : CStr} (h : byte '"' ∉ name) : Lexes (quoted name) [.ident name] :=
  lexes_quoted h

/-- Only another quote continues a quoted name. -/
theorem breaks_quoted {name : CStr} (h : byte '"' ∉ name) {text : CStr}
    (ht : text.head? ≠ some (byte '"')) : (endState (quoted name)).Breaks text := by
  have hst : endState (quoted name) = .quoteEnd name.reverse := endState_quoted h
  intro c hc
  have hne : c ≠ byte '"' := fun hcq => ht (hcq ▸ hc)
  rw [hst, step, if_neg hne]

/-! ## Conditions -/

/-- The tokens of a condition whose placeholders come after the `n`-th. -/
def condTokens (d : C2SqlDialect) : SqlRDBCondition → ℕ → List Token
  | .all, _ => []
  | .leaf col op _, n =>
    [.ident col, .sym (opToSqlStr op), .param (placeholderNumber d (n + 1))]
  | .and l r, n =>
    .sym [byte '('] :: condTokens d l n ++ .word kwAnd :: condTokens d r (n + l.leafCount) ++
      [.sym [byte ')']]
  | .or l r, n =>
    .sym [byte '('] :: condTokens d l n ++ .word kwOr :: condTokens d r (n + l.leafCount) ++
      [.sym [byte ')']]

@[simp]
theorem appendCond_snd (d : C2SqlDialect) (c : SqlRDBCondition) (n : ℕ) :
    (appendCond d c n).2 = n + c.leafCount := by
  induction c generalizing n with
  | leaf => rfl
  | all => rfl
  | and l r ihl ihr => simp [appendCond, ihl, ihr, SqlRDBCondition.leafCount, Nat.add_assoc]
  | or l r ihl ihr => simp [appendCond, ihl, ihr, SqlRDBCondition.leafCount, Nat.add_assoc]

theorem lexes_op (op : SqlRDBOp) :
    Lexes (lit " " ++ opToSqlStr op ++ lit " ") [.sym (opToSqlStr op)] ∧
      endState (lit " " ++ opToSqlStr op ++ lit " ") = .start := by
  cases op <;> exact ⟨⟨rfl, rfl⟩, rfl⟩

theorem lexes_leaf (d : C2SqlDialect) {col : CStr} (hcol : byte '"' ∉ col) (op : SqlRDBOp)
    (v : CondValue) {n : ℕ} (hn : n + 1 < 10 ^ 14) :
    Lexes (appendCond d (.leaf col op v) n).1 (condTokens d (.leaf col op v) n) := by
  have hmid := (lexes_op op).1.append_start (lexes_op op).2 (lexes_placeholder d hn)
  have h := (lexes_quotedName hcol).append_break hmid rfl
  simpa [appendCond, appendPlaceholder, condTokens, quoted, lit] using h

/-- The part of a parenthesised condition that `AND` and `OR` share. -/
private theorem lexes_composite {a b word : CStr} {ts us : List Token} {kw : Token}
    (ha : Lexes a ts) (hb : Lexes b us) (hw : Lexes word [kw]) (hs : endState word = .start)
    (hbr : startsBreak (word ++ b) = true) :
    Lexes (lit "(" ++ a ++ word ++ b ++ lit ")")
      (.sym [byte '('] :: ts ++ kw :: us ++ [.sym [byte ')']]) := by
  have hopen : Lexes (lit "(") [.sym [byte '(']] := ⟨rfl, rfl⟩
  have hclose : Lexes (lit ")") [.sym [byte ')']] := ⟨rfl, rfl⟩
  have h := ((hopen.append_start rfl ha).append_break (hw.append_start hs hb) hbr).append_break
    hclose rfl
  simpa using h

/-- **The text of a condition is read as its tokens.** -/
theorem lexes_appendCond (d : C2SqlDialect) {c : SqlRDBCondition} {n : ℕ}
    (hcols : ∀ col ∈ c.leafCols, byte '"' ∉ col) (hn : n + c.leafCount < 10 ^ 14) :
    Lexes (appendCond d c n).1 (condTokens d c n) := by
  induction c generalizing n with
  | all => exact Lexes.nil
  | leaf col op v => exact lexes_leaf d (hcols col (by simp [SqlRDBCondition.leafCols])) op v hn
  | and l r ihl ihr =>
    rw [SqlRDBCondition.leafCount] at hn
    have hl := ihl (n := n) (fun col h => hcols col (by simp [SqlRDBCondition.leafCols, h]))
      (by omega)
    have hr := ihr (n := n + l.leafCount)
      (fun col h => hcols col (by simp [SqlRDBCondition.leafCols, h])) (by omega)
    simp only [appendCond, condTokens, appendCond_snd]
    exact lexes_composite hl hr ⟨rfl, rfl⟩ rfl rfl
  | or l r ihl ihr =>
    rw [SqlRDBCondition.leafCount] at hn
    have hl := ihl (n := n) (fun col h => hcols col (by simp [SqlRDBCondition.leafCols, h]))
      (by omega)
    have hr := ihr (n := n + l.leafCount)
      (fun col h => hcols col (by simp [SqlRDBCondition.leafCols, h])) (by omega)
    simp only [appendCond, condTokens, appendCond_snd]
    exact lexes_composite hl hr ⟨rfl, rfl⟩ rfl rfl

/-! ## Pieces of a statement -/

/-- A token that a statement may have: its quoted names are among `names`, and it has neither
literals nor quotes without an end. -/
def Named (names : CStr → Prop) : Token → Prop
  | .ident x => names x
  | .word _ => True
  | .str _ => False
  | .param _ => True
  | .sym b => b ≠ [byte '"'] ∧ b ≠ [byte '\'']

/-- The `k` placeholders after the `n`-th. -/
def placeholders (d : C2SqlDialect) (n k : ℕ) : List (Option ℕ) :=
  (List.range' (n + 1) k).map (placeholderNumber d)

theorem placeholders_append (d : C2SqlDialect) (n j k : ℕ) :
    placeholders d n j ++ placeholders d (n + j) k = placeholders d n (j + k) := by
  rw [placeholders, placeholders, placeholders, ← List.map_append, ← List.range'_append_1,
    show n + 1 + j = n + j + 1 by omega]

private theorem params_composite {d : C2SqlDialect} {n j k : ℕ} {ts us : List Token}
    (kw : List UInt8) (hl : params ts = placeholders d n j)
    (hr : params us = placeholders d (n + j) k) :
    params (.sym [byte '('] :: ts ++ .word kw :: us ++ [.sym [byte ')']]) =
      placeholders d n (j + k) := by
  rw [← placeholders_append, ← hl, ← hr]
  simp [params]

/-- The placeholders of a condition are numbered from left to right. -/
theorem params_condTokens (d : C2SqlDialect) (c : SqlRDBCondition) (n : ℕ) :
    params (condTokens d c n) = placeholders d n c.leafCount := by
  induction c generalizing n with
  | all => rfl
  | leaf => rfl
  | and l r ihl ihr => exact params_composite kwAnd (ihl n) (ihr _)
  | or l r ihl ihr => exact params_composite kwOr (ihl n) (ihr _)

/-- The quoted names of a condition are the columns of its leaves. -/
theorem named_condTokens {names : CStr → Prop} (d : C2SqlDialect) {c : SqlRDBCondition}
    (h : ∀ col ∈ c.leafCols, names col) (n : ℕ) : ∀ t ∈ condTokens d c n, Named names t := by
  induction c generalizing n with
  | all => simp [condTokens]
  | leaf col op v =>
    have hop : Named names (.sym (opToSqlStr op)) := by
      cases op <;> exact ⟨by simp [opToSqlStr, lit, byte], by simp [opToSqlStr, lit, byte]⟩
    simpa [condTokens, Named] using ⟨h col (by simp [SqlRDBCondition.leafCols]), hop⟩
  | and l r ihl ihr =>
    have hl := ihl (fun col hc => h col (by simp [SqlRDBCondition.leafCols, hc])) n
    have hr := ihr (fun col hc => h col (by simp [SqlRDBCondition.leafCols, hc])) (n + l.leafCount)
    intro t ht
    simp only [condTokens, List.cons_append, List.mem_cons, List.mem_append, List.append_assoc,
      List.not_mem_nil, or_false] at ht
    rcases ht with rfl | ht | rfl | ht | rfl
    · exact ⟨by decide, by decide⟩
    · exact hl t ht
    · trivial
    · exact hr t ht
    · exact ⟨by decide, by decide⟩
  | or l r ihl ihr =>
    have hl := ihl (fun col hc => h col (by simp [SqlRDBCondition.leafCols, hc])) n
    have hr := ihr (fun col hc => h col (by simp [SqlRDBCondition.leafCols, hc])) (n + l.leafCount)
    intro t ht
    simp only [condTokens, List.cons_append, List.mem_cons, List.mem_append, List.append_assoc,
      List.not_mem_nil, or_false] at ht
    rcases ht with rfl | ht | rfl | ht | rfl
    · exact ⟨by decide, by decide⟩
    · exact hl t ht
    · trivial
    · exact hr t ht
    · exact ⟨by decide, by decide⟩

/-- A piece of text before the WHERE clause: its tokens are named, its placeholders are the `k`
after the `n`-th. -/
structure Pieces (names : CStr → Prop) (d : C2SqlDialect) (n k : ℕ) (text : CStr) : Prop where
  closed : (endState text).closed = true
  named : ∀ t ∈ lex text, Named names t
  noWhere : ∀ t ∈ lex text, t.isKeyword kwWhere = false
  params_eq : params (lex text) = placeholders d n k

/-- A fixed text without names, placeholders and a WHERE. -/
def fixedText (text : CStr) : Bool :=
  (endState text).closed && (lex text).all fun
    | .word w => w.map upper != kwWhere
    | .sym b => b != [byte '"'] && b != [byte '\'']
    | _ => false

/-- A fixed text that separates what is before it from what is after it. -/
def isSep (text : CStr) : Bool :=
  fixedText text && startsBreak text && !text.isEmpty && endState text == .start

namespace Pieces

variable {names : CStr → Prop} {d : C2SqlDialect} {n j k : ℕ} {a b : CStr}

theorem append (ha : Pieces names d n j a) (hb : Pieces names d (n + j) k b)
    (h : (endState a).Breaks b) : Pieces names d n (j + k) (a ++ b) := by
  have hl : Lexes (a ++ b) (lex a ++ lex b) :=
    Lexes.append ⟨ha.closed, rfl⟩ ⟨hb.closed, rfl⟩ h
  refine ⟨hl.closed, ?_, ?_, ?_⟩
  · rw [hl.lex_eq]
    exact List.forall_mem_append.2 ⟨ha.named, hb.named⟩
  · rw [hl.lex_eq]
    exact List.forall_mem_append.2 ⟨ha.noWhere, hb.noWhere⟩
  · rw [hl.lex_eq, params_append, ha.params_eq, hb.params_eq, placeholders_append]

theorem append_break (ha : Pieces names d n j a) (hb : Pieces names d (n + j) k b)
    (h : startsBreak b = true) : Pieces names d n (j + k) (a ++ b) :=
  ha.append hb (LexState.closed.breaks ha.closed h)

theorem append_start (ha : Pieces names d n j a) (hb : Pieces names d (n + j) k b)
    (h : endState a = .start) : Pieces names d n (j + k) (a ++ b) :=
  ha.append hb (h ▸ LexState.Breaks.start b)

theorem fixed {text : CStr} (h : fixedText text = true) : Pieces names d n 0 text := by
  obtain ⟨hc, hall⟩ := Bool.and_eq_true_iff.1 h
  rw [List.all_eq_true] at hall
  refine ⟨hc, fun t ht => ?_, fun t ht => ?_, ?_⟩
  · have := hall t ht
    cases t <;> simp_all [Named]
  · have := hall t ht
    cases t <;> simp_all [Token.isKeyword]
  · rw [params, List.filterMap_eq_nil_iff.2]
    · rfl
    · intro t ht
      have := hall t ht
      cases t <;> simp_all

/-- Two pieces around a fixed text, with a break on both of its sides. -/
theorem glue (ha : Pieces names d n j a) {text : CStr} (hfix : fixedText text = true)
    (hb : Pieces names d (n + j) k b) (hne : text ≠ []) (h₁ : (endState a).Breaks text)
    (h₂ : (endState text).Breaks b) : Pieces names d n (j + k) (a ++ text ++ b) := by
  refine (ha.append (k := 0) (fixed hfix) h₁).append hb ?_
  rw [endState_append h₁ hne]
  exact h₂

/-- Two pieces around a separator. -/
theorem sep (ha : Pieces names d n j a) (text : CStr) (h : isSep text = true)
    (hb : Pieces names d (n + j) k b) : Pieces names d n (j + k) (a ++ text ++ b) := by
  simp only [isSep, Bool.and_eq_true, Bool.not_eq_true', List.isEmpty_eq_false_iff,
    beq_iff_eq] at h
  obtain ⟨⟨⟨hfix, hbr⟩, hne⟩, hst⟩ := h
  exact ha.glue hfix hb hne (LexState.closed.breaks ha.closed hbr)
    (hst ▸ LexState.Breaks.start b)

theorem quoted {x : CStr} (hx : names x) (hq : byte '"' ∉ x) :
    Pieces names d n 0 (C2Sql.quoted x) := by
  obtain ⟨hc, hl⟩ := lexes_quotedName hq
  refine ⟨hc, ?_, ?_, ?_⟩
  · rw [hl]
    simpa [Named] using hx
  · rw [hl]
    simp [Token.isKeyword]
  · rw [hl]
    rfl

theorem placeholder (hn : n + 1 < 10 ^ 14) :
    Pieces names d n 1 (C2Sql.placeholder d (n + 1)) := by
  obtain ⟨hc, hl⟩ := lexes_placeholder d hn
  refine ⟨hc, ?_, ?_, ?_⟩
  · rw [hl]
    simp [Named]
  · rw [hl]
    simp [Token.isKeyword]
  · rw [hl]
    rfl

theorem commaSep {α : Type} {f : α → CStr} {l : List α}
    (h : ∀ x ∈ l, Pieces names d n 0 (f x)) : Pieces names d n 0 (C2Sql.commaSep (l.map f)) := by
  induction l with
  | nil => exact fixed rfl
  | cons x l ih =>
    cases l with
    | nil => exact h x (by simp)
    | cons y l =>
      exact (h x (by simp)).sep (lit ",") rfl (ih fun z hz => h z (by simp [hz]))

theorem appendPlaceholders (hn : n + k < 10 ^ 14) :
    Pieces names d n k (C2Sql.commaSep (C2Sql.appendPlaceholders d k n).1) := by
  induction k generalizing n with
  | zero => exact fixed rfl
  | succ k ih =>
    have hp : Pieces names d n 1 (C2Sql.placeholder d (n + 1)) := placeholder (by omega)
    cases k with
    | zero => exact hp
    | succ k =>
      rw [show k + 1 + 1 = 1 + (k + 1) by omega]
      have hlist : C2Sql.commaSep (C2Sql.appendPlaceholders d (1 + (k + 1)) n).1 =
          C2Sql.placeholder d (n + 1) ++ lit "," ++
            C2Sql.commaSep (C2Sql.appendPlaceholders d (k + 1) (n + 1)).1 := by
        rw [show 1 + (k + 1) = k + 1 + 1 by omega]
        rfl
      rw [hlist]
      exact hp.sep _ rfl (ih (by omega))

end Pieces

/-! ## The builders -/

@[simp]
theorem appendPlaceholders_snd (d : C2SqlDialect) (k n : ℕ) :
    (appendPlaceholders d k n).2 = n + k := by
  induction k generalizing n with
  | zero => rfl
  | succ k ih =>
    simp only [appendPlaceholders, appendPlaceholder, ih]
    omega

section Builders

variable {s : SqlRDBSchema} {names : CStr → Prop} {d : C2SqlDialect} {n : ℕ}

theorem pieces_typeToSqlStr (t : SqlRDBType) :
    Pieces names d n 0 (lit " " ++ typeToSqlStr t d) := by
  cases t <;> cases d <;> exact Pieces.fixed rfl

theorem pieces_appendColConstraints (c : SqlRDBColumnDef) :
    Pieces names d n 0 (appendColConstraints c) := by
  rw [appendColConstraints]
  cases c.nullable <;> cases c.pk <;> cases c.unique <;> exact Pieces.fixed rfl

theorem startsBreak_appendColConstraints (c : SqlRDBColumnDef) :
    startsBreak (appendColConstraints c) = true := by
  rw [appendColConstraints]
  cases c.nullable <;> cases c.pk <;> cases c.unique <;> rfl

/-- The definition of a column in a CREATE or ALTER statement. -/
def columnDefText (d : C2SqlDialect) (c : SqlRDBColumnDef) : CStr :=
  quoted c.name ++ (lit " " ++ typeToSqlStr c.type d) ++ appendColConstraints c

theorem pieces_columnDefText {c : SqlRDBColumnDef} (hc : names c.name) (hq : byte '"' ∉ c.name) :
    Pieces names d n 0 (columnDefText d c) :=
  ((Pieces.quoted hc hq).append_break (pieces_typeToSqlStr c.type) rfl).append_break
    (pieces_appendColConstraints c) (startsBreak_appendColConstraints c)

/-- The end of a CREATE statement. -/
def createEnd : C2SqlDialect → CStr
  | .postgres => lit ")"
  | .sqlite => lit ") STRICT"

theorem buildCreate_eq (s : SqlRDBSchema) (d : C2SqlDialect) :
    buildCreate s d = lit "CREATE TABLE IF NOT EXISTS " ++ quoted s.name ++ lit " (" ++
      commaSep (s.cols.map (columnDefText d)) ++ createEnd d := by
  have hcol : columnDefText d = fun c => lit "\"" ++ c.name ++ lit "\" " ++ typeToSqlStr c.type d ++
      appendColConstraints c := by
    funext c
    simp [columnDefText, quoted, lit]
  rw [hcol]
  cases d <;> simp [buildCreate, createEnd, quoted, lit]

theorem buildAlterAdd_eq (s : SqlRDBSchema) (d : C2SqlDialect) (c : SqlRDBColumnDef) :
    buildAlterAdd s d c = lit "ALTER TABLE " ++ quoted s.name ++ lit " ADD COLUMN " ++
      columnDefText d c := by
  simp [buildAlterAdd, columnDefText, quoted, lit]

theorem buildUpsert_eq (s : SqlRDBSchema) (d : C2SqlDialect) (n : ℕ) :
    buildUpsert s d n = ((buildInsert s d n).1 ++ lit " ON CONFLICT(" ++ quoted (pkName s) ++
      lit ") DO UPDATE SET " ++ commaSep ((nonPkCols s).map fun c =>
        quoted c.name ++ lit "=excluded." ++ quoted c.name), (buildInsert s d n).2) := by
  simp [buildUpsert, quoted, lit]

theorem pkName_mem (hs : s.WellFormed) (hpk : s.pkIndex.isSome = true) :
    ∃ c ∈ s.cols, c.name = pkName s := by
  obtain ⟨i, hi⟩ := Option.isSome_iff_exists.1 hpk
  have hfind : s.cols.findIdx? (fun c => c.pk) = some i := hs.pkIndex_eq ▸ hi
  obtain ⟨hlt, -, -⟩ := List.findIdx?_eq_some_iff_getElem.1 hfind
  refine ⟨s.cols[i], List.getElem_mem hlt, ?_⟩
  simp [pkName, hi, List.getElem?_eq_getElem hlt]

theorem mem_cols_of_nonPkCols {c : SqlRDBColumnDef} (hc : c ∈ nonPkCols s) : c ∈ s.cols := by
  obtain ⟨p, hp, rfl⟩ := List.mem_map.1 hc
  exact List.fst_mem_of_mem_zipIdx (List.mem_filter.1 hp).1

theorem pieces_columnName (hs : s.WellFormed) {c : SqlRDBColumnDef} (hc : c ∈ s.cols)
    (hn : names c.name) : Pieces names d n 0 (quoted c.name) :=
  Pieces.quoted hn (quote_not_mem (hs.col_valid c hc))

variable (hs : s.WellFormed) (hname : names s.name) (hcols : ∀ c ∈ s.cols, names c.name)

include hs hname

theorem pieces_tableName : Pieces names d n 0 (quoted s.name) :=
  Pieces.quoted hname (quote_not_mem hs.name_valid)

theorem pieces_buildAlterAdd {c : SqlRDBColumnDef} (hc : names c.name)
    (hq : identifierValid c.name = true) : Pieces names d n 0 (buildAlterAdd s d c) := by
  rw [buildAlterAdd_eq]
  have hhead : Pieces names d n 0 (lit "ALTER TABLE " ++ quoted s.name) :=
    (Pieces.fixed rfl).append_start (pieces_tableName hs hname) rfl
  exact hhead.sep _ rfl (pieces_columnDefText hc (quote_not_mem hq))

include hcols

theorem pieces_buildCreate : Pieces names d n 0 (buildCreate s d) := by
  rw [buildCreate_eq]
  have hhead : Pieces names d n 0 (lit "CREATE TABLE IF NOT EXISTS " ++ quoted s.name) :=
    (Pieces.fixed rfl).append_start (pieces_tableName hs hname) rfl
  have hlist : Pieces names d n 0 (commaSep (s.cols.map (columnDefText d))) :=
    Pieces.commaSep fun c hc =>
      pieces_columnDefText (hcols c hc) (quote_not_mem (hs.col_valid c hc))
  refine (hhead.sep _ rfl hlist).append_break (k := 0) ?_ (by cases d <;> rfl)
  cases d <;> exact Pieces.fixed rfl

theorem pieces_buildInsert (hn : n + s.cols.length < 10 ^ 14) :
    Pieces names d n s.cols.length (buildInsert s d n).1 := by
  have hhead : Pieces names d n 0 (lit "INSERT INTO " ++ quoted s.name) :=
    (Pieces.fixed rfl).append_start (pieces_tableName hs hname) rfl
  have hlist : Pieces names d n 0 (commaSep (s.cols.map fun c => quoted c.name)) :=
    Pieces.commaSep fun c hc => pieces_columnName hs hc (hcols c hc)
  have hvals : Pieces names d n s.cols.length
      (commaSep (appendPlaceholders d s.cols.length n).1) := Pieces.appendPlaceholders hn
  have h := ((hhead.sep (lit " (") rfl hlist).sep (lit ") VALUES (") rfl
    (by simpa using hvals)).append_break (k := 0) (b := lit ")") (Pieces.fixed rfl) rfl
  simpa [buildInsert, quoted, lit] using h

theorem pieces_buildUpsert (hpk : s.pkIndex.isSome = true) (hn : n + s.cols.length < 10 ^ 14) :
    Pieces names d n s.cols.length (buildUpsert s d n).1 := by
  rw [buildUpsert_eq]
  obtain ⟨c, hc, hpkName⟩ := pkName_mem hs hpk
  have hkey : ∀ m, Pieces names d m 0 (quoted (pkName s)) := by
    intro m
    rw [← hpkName]
    exact pieces_columnName hs hc (hcols c hc)
  have hset : ∀ m, Pieces names d m 0 (commaSep ((nonPkCols s).map fun c =>
      quoted c.name ++ lit "=excluded." ++ quoted c.name)) := by
    intro m
    refine Pieces.commaSep fun c hc => ?_
    have hmem := mem_cols_of_nonPkCols hc
    have hq := quote_not_mem (hs.col_valid c hmem)
    have hcol : Pieces names d m 0 (quoted c.name) := pieces_columnName hs hmem (hcols c hmem)
    exact hcol.glue rfl hcol (by decide) (breaks_quoted hq (by decide)) (LexState.Breaks.start _)
  have h := ((pieces_buildInsert hs hname hcols hn).sep (lit " ON CONFLICT(") rfl
    (hkey _)).sep (lit ") DO UPDATE SET ") rfl (hset _)
  simpa using h

/-- What the condition-taking operations put before the WHERE clause, and the number of
placeholders in it. -/
def headText (op : C2SqlQBOp) (s : SqlRDBSchema) (d : C2SqlDialect) (col : CStr) : CStr × ℕ :=
  match op with
  | .select =>
    (lit "SELECT " ++ commaSep (s.cols.map fun c => quoted c.name) ++ lit " FROM \"" ++ s.name ++
      lit "\"", 0)
  | .count => (lit "SELECT COUNT(*) FROM \"" ++ s.name ++ lit "\"", 0)
  | .delete => (lit "DELETE FROM \"" ++ s.name ++ lit "\"", 0)
  | .updateField =>
    (lit "UPDATE \"" ++ s.name ++ lit "\" SET \"" ++ col ++ lit "\"=" ++ placeholder d 1, 1)
  | .selectField => (lit "SELECT \"" ++ col ++ lit "\" FROM \"" ++ s.name ++ lit "\"", 0)
  | _ => ([], 0)

theorem pieces_headText (op : C2SqlQBOp) {col : CStr} (hcol : names col)
    (hq : byte '"' ∉ col) : Pieces names d 0 (headText op s d col).2 (headText op s d col).1 := by
  have hlist : Pieces names d 0 0 (lit "SELECT " ++ commaSep (s.cols.map fun c => quoted c.name)) :=
    (Pieces.fixed rfl).append_start
      (Pieces.commaSep fun c hc => pieces_columnName hs hc (hcols c hc)) rfl
  have hfrom : ∀ text : CStr, fixedText text = true → endState text = .start →
      Pieces names d 0 0 (text ++ quoted s.name) := fun _ hf hst =>
    (Pieces.fixed hf).append_start (pieces_tableName hs hname) hst
  have hfield : ∀ text : CStr, fixedText text = true → endState text = .start →
      Pieces names d 0 0 (text ++ quoted col) := fun _ hf hst =>
    (Pieces.fixed hf).append_start (Pieces.quoted hcol hq) hst
  cases op with
  | select =>
    have h := hlist.sep (lit " FROM ") rfl (pieces_tableName hs hname)
    simpa [headText, quoted, lit] using h
  | count =>
    have h := hfrom (lit "SELECT COUNT(*) FROM ") rfl rfl
    simpa [headText, quoted, lit] using h
  | delete =>
    have h := hfrom (lit "DELETE FROM ") rfl rfl
    simpa [headText, quoted, lit] using h
  | selectField =>
    have h := (hfield (lit "SELECT ") rfl rfl).sep (lit " FROM ") rfl
      (pieces_tableName hs hname)
    simpa [headText, quoted, lit] using h
  | updateField =>
    have hbr : (endState (lit "=")).Breaks (placeholder d 1) := by
      intro c hc
      cases d with
      | sqlite => cases (show some (byte '?') = some c from hc); rfl
      | postgres => cases (show some (byte '$') = some c from hc); rfl
    have hset : Pieces names d 0 (0 + 1) (quoted col ++ lit "=" ++ placeholder d 1) :=
      (Pieces.quoted hcol hq).glue rfl (Pieces.placeholder (by omega)) (by decide)
        (breaks_quoted hq (by decide)) hbr
    have h := (hfrom (lit "UPDATE ") rfl rfl).sep (lit " SET ") rfl hset
    simpa [headText, quoted, lit] using h
  | create => exact Pieces.fixed rfl
  | insert => exact Pieces.fixed rfl
  | upsert => exact Pieces.fixed rfl
  | alterAdd => exact Pieces.fixed rfl

end Builders

/-! ## The WHERE clause -/

/-- The columns that the leaves of an optional condition name. -/
def condCols (cond : Option SqlRDBCondition) : List CStr := (cond.map fun c => c.leafCols).getD []

/-- The number of leaves of an optional condition. -/
def condLeaves (cond : Option SqlRDBCondition) : ℕ := (cond.map fun c => c.leafCount).getD 0

/-- What `appendWhere` appends. -/
def whereText (d : C2SqlDialect) (cond : Option SqlRDBCondition) (n : ℕ) : CStr :=
  match cond with
  | none => []
  | some .all => []
  | some c => lit " WHERE " ++ (appendCond d c n).1

/-- Whether a schema has all of the columns. -/
def knownCols (s : SqlRDBSchema) (cols : List CStr) : Bool := cols.all (schemaHasColumn s)

theorem knownCols_iff {s : SqlRDBSchema} {cols : List CStr} :
    knownCols s cols = true ↔ ∀ col ∈ cols, schemaHasColumn s col = true :=
  List.all_eq_true

@[simp]
theorem knownCols_append (s : SqlRDBSchema) (a b : List CStr) :
    knownCols s (a ++ b) = (knownCols s a && knownCols s b) :=
  List.all_append

theorem validateCondColumns_eq (s : SqlRDBSchema) (c : SqlRDBCondition) :
    validateCondColumns s c = if knownCols s c.leafCols then .ok else .errUnknownColumn := by
  induction c with
  | all => rfl
  | leaf col op v => simp [validateCondColumns, SqlRDBCondition.leafCols, knownCols]
  | and l r ihl ihr =>
    rw [validateCondColumns, ihl, ihr, SqlRDBCondition.leafCols, knownCols_append]
    cases knownCols s l.leafCols <;> simp
  | or l r ihl ihr =>
    rw [validateCondColumns, ihl, ihr, SqlRDBCondition.leafCols, knownCols_append]
    cases knownCols s l.leafCols <;> simp

theorem appendWhere_eq (s : SqlRDBSchema) (d : C2SqlDialect) (cond : Option SqlRDBCondition)
    (text : CStr) (n : ℕ) :
    appendWhere s d cond text n =
      if knownCols s (condCols cond) then
        .ok (text ++ whereText d cond n, n + condLeaves cond)
      else .error .errUnknownColumn := by
  have htree : ∀ c : SqlRDBCondition, c ≠ .all → appendWhere s d (some c) text n =
      if knownCols s c.leafCols then
        .ok (text ++ (lit " WHERE " ++ (appendCond d c n).1), n + c.leafCount)
      else .error .errUnknownColumn := by
    intro c hc
    have hneeds : condNeedsWhere (some c) = true := by cases c <;> simp_all [condNeedsWhere]
    rw [appendWhere, if_pos hneeds, validateCondColumns_eq]
    cases knownCols s c.leafCols <;> simp
  cases cond with
  | none => simp [appendWhere, condCols, condLeaves, whereText, knownCols]
  | some c =>
    cases c with
    | all => simp [appendWhere, condNeedsWhere, condCols, condLeaves, whereText, knownCols,
        SqlRDBCondition.leafCols, SqlRDBCondition.leafCount]
    | leaf => exact htree _ (by simp)
    | and => exact htree _ (by simp)
    | or => exact htree _ (by simp)

theorem appendCond_eraseValues (d : C2SqlDialect) (c : SqlRDBCondition) (n : ℕ) :
    appendCond d c.eraseValues n = appendCond d c n := by
  induction c generalizing n with
  | leaf => rfl
  | all => rfl
  | and l r ihl ihr => simp [SqlRDBCondition.eraseValues, appendCond, ihl, ihr]
  | or l r ihl ihr => simp [SqlRDBCondition.eraseValues, appendCond, ihl, ihr]

/-- A WHERE clause does not depend on the values of the leaves. -/
theorem appendWhere_eraseValues (s : SqlRDBSchema) (d : C2SqlDialect)
    (cond : Option SqlRDBCondition) (text : CStr) (n : ℕ) :
    appendWhere s d (cond.map SqlRDBCondition.eraseValues) text n =
      appendWhere s d cond text n := by
  have hwhere : whereText d (cond.map SqlRDBCondition.eraseValues) n = whereText d cond n := by
    cases cond with
    | none => rfl
    | some c => cases c <;> simp [whereText, SqlRDBCondition.eraseValues, appendCond_eraseValues,
        appendCond]
  have hcols : condCols (cond.map SqlRDBCondition.eraseValues) = condCols cond := by
    cases cond <;> simp [condCols, SqlRDBCondition.leafCols_eraseValues]
  have hleaves : condLeaves (cond.map SqlRDBCondition.eraseValues) = condLeaves cond := by
    cases cond <;> simp [condLeaves, SqlRDBCondition.leafCount_eraseValues]
  rw [appendWhere_eq, appendWhere_eq, hwhere, hcols, hleaves]

/-- The operations that take a condition. -/
def isCondOp : C2SqlQBOp → Bool
  | .select | .count | .delete | .updateField | .selectField => true
  | _ => false

/-- The operations on one column. -/
def isFieldOp : C2SqlQBOp → Bool
  | .updateField | .selectField => true
  | _ => false

/-- **A condition-taking operation builds its head and its WHERE clause, unless a column is
unknown.** -/
theorem internalQbBuild_eq {spec : SqlRDBQuerySpec} (hop : isCondOp spec.op = true) {col : CStr}
    (hcol : isFieldOp spec.op = true → spec.targetCol = some col) :
    internalQbBuild spec =
      if (!isFieldOp spec.op || schemaHasColumn spec.schema col) &&
          knownCols spec.schema (condCols spec.cond) then
        .ok ((headText spec.op spec.schema spec.dialect col).1 ++ whereText spec.dialect spec.cond
            (headText spec.op spec.schema spec.dialect col).2,
          (headText spec.op spec.schema spec.dialect col).2 + condLeaves spec.cond)
      else .error .errUnknownColumn := by
  obtain ⟨op, schema, cond, newCol, target, dialect⟩ := spec
  cases op with
  | create => cases hop
  | insert => cases hop
  | upsert => cases hop
  | alterAdd => cases hop
  | select => simp [internalQbBuild, buildSelect, appendWhere_eq, headText, isFieldOp]
  | count => simp [internalQbBuild, buildCount, appendWhere_eq, headText, isFieldOp]
  | delete => simp [internalQbBuild, buildDelete, appendWhere_eq, headText, isFieldOp]
  | updateField =>
    obtain rfl : target = some col := hcol rfl
    by_cases h : schemaHasColumn schema col = true
    · simp [internalQbBuild, buildUpdateField, appendWhere_eq, headText, isFieldOp, h,
        appendPlaceholder]
    · simp [internalQbBuild, buildUpdateField, isFieldOp, h]
  | selectField =>
    obtain rfl : target = some col := hcol rfl
    by_cases h : schemaHasColumn schema col = true
    · simp [internalQbBuild, buildSelectField, appendWhere_eq, headText, isFieldOp, h]
    · simp [internalQbBuild, buildSelectField, isFieldOp, h]

theorem schemaHasColumn_iff {s : SqlRDBSchema} {col : CStr} :
    schemaHasColumn s col = true ↔ ∃ c ∈ s.cols, c.name = col := by
  simp [schemaHasColumn, List.any_eq_true]

theorem quote_not_mem_of_schemaHasColumn {s : SqlRDBSchema} (hs : s.WellFormed) {col : CStr}
    (h : schemaHasColumn s col = true) : byte '"' ∉ col := by
  obtain ⟨c, hc, rfl⟩ := schemaHasColumn_iff.1 h
  exact quote_not_mem (hs.col_valid c hc)

/-- A field operation has its target column, and for the others any column will do. -/
theorem exists_headCol {spec : SqlRDBQuerySpec} (hs : spec.schema.WellFormed)
    (htarget : isFieldOp spec.op = true →
      ∃ col, spec.targetCol = some col ∧ schemaHasColumn spec.schema col = true) :
    ∃ c ∈ spec.schema.cols, (isFieldOp spec.op = true → spec.targetCol = some c.name) ∧
      (!isFieldOp spec.op || schemaHasColumn spec.schema c.name) = true := by
  cases hf : isFieldOp spec.op with
  | true =>
    obtain ⟨col, hcol, hhas⟩ := htarget hf
    obtain ⟨c, hc, rfl⟩ := schemaHasColumn_iff.1 hhas
    exact ⟨c, hc, fun _ => hcol, by simpa using hhas⟩
  | false =>
    obtain ⟨c, cs, hcs⟩ := List.exists_cons_of_ne_nil hs.cols_ne_nil
    exact ⟨c, by simp [hcs], by simp, by simp⟩

/-- The tokens of a WHERE clause. -/
def whereClauseTokens (d : C2SqlDialect) (cond : Option SqlRDBCondition) (n : ℕ) : List Token :=
  match cond with
  | none => []
  | some .all => []
  | some c => .word kwWhere :: condTokens d c n

theorem lexes_whereText {s : SqlRDBSchema} (hs : s.WellFormed) (d : C2SqlDialect)
    (cond : Option SqlRDBCondition) {n : ℕ}
    (hcols : knownCols s (condCols cond) = true) (hn : n + condLeaves cond < 10 ^ 14) :
    Lexes (whereText d cond n) (whereClauseTokens d cond n) ∧
      startsBreak (whereText d cond n) = true := by
  have htree : ∀ c : SqlRDBCondition, knownCols s c.leafCols = true →
      n + c.leafCount < 10 ^ 14 →
      Lexes (lit " WHERE " ++ (appendCond d c n).1) (.word kwWhere :: condTokens d c n) ∧
        startsBreak (lit " WHERE " ++ (appendCond d c n).1) = true := by
    intro c hc hn
    have hwhere : Lexes (lit " WHERE ") [.word kwWhere] := ⟨rfl, rfl⟩
    exact ⟨hwhere.append_start rfl (lexes_appendCond d
      (fun col h => quote_not_mem_of_schemaHasColumn hs (knownCols_iff.1 hc col h)) hn), rfl⟩
  cases cond with
  | none => exact ⟨Lexes.nil, rfl⟩
  | some c =>
    cases c with
    | all => exact ⟨Lexes.nil, rfl⟩
    | leaf => exact htree _ hcols hn
    | and => exact htree _ hcols hn
    | or => exact htree _ hcols hn

/-! ## A sample query -/

/-- An UPDATE of one column of the `persons` table. -/
def SqlRDBQuerySpec.updateScore (cond : SqlRDBCondition) (dialect : C2SqlDialect) :
    SqlRDBQuerySpec where
  op := .updateField
  schema := personsSchema
  cond := some cond
  targetCol := some (lit "score")
  dialect := dialect

/-- `id = 7 AND name != 'x'`. -/
def sampleCond : SqlRDBCondition :=
  .and (.leaf (lit "id") .eq (.int 7)) (.leaf (lit "name") .ne (.text (lit "x")))

end C2Sql
