import C2Sql.Lib.SqlExpr

/-!
# Statements of SQL

A parser for the statements that program-generated SQL consists of: the creation of tables and
columns, insertion with an optional `ON CONFLICT .. DO UPDATE` clause, selection, counting,
deletion and the update of one column. It works on tokens whose placeholders are numbered, and
is built from combinators that take what they read from the front of the token list.

* `Reads p ts a rest`: in front of `rest`, the parser `p` reads the tokens `ts` as `a`; the rules
  `Reads.bind`, `Reads.list` and one for each primitive compose;
* `Statement.tokens`: the tokens of a statement;
* `parseStatement_tokens`: a well-formed statement is parsed from its tokens.
-/

namespace SqlText

/-- The bytes of an ASCII text. -/
def bytes (s : String) : List UInt8 := s.toList.map byte

/-! ## Combinators -/

/-- A parser takes what it reads from the front of the tokens. -/
abbrev Parser (α : Type) := StateT (List Token) Option α

/-- A keyword. -/
def keyword (kw : List UInt8) : Parser Unit
  | t :: ts => if t.isKeyword kw then some ((), ts) else none
  | [] => none

/-- A symbol. -/
def symbol (s : List UInt8) : Parser Unit
  | .sym s' :: ts => if s' = s then some ((), ts) else none
  | _ => none

/-- A quoted name. -/
def ident : Parser (List UInt8)
  | .ident s :: ts => some (s, ts)
  | _ => none

/-- A numbered placeholder. -/
def param : Parser ℕ
  | .param (some k) :: ts => some (k, ts)
  | _ => none

/-- The bare words up to the next token of another kind. -/
def words : Parser (List (List UInt8))
  | .word w :: ts => (words ts).map fun (ws, ts) => (w :: ws, ts)
  | ts => some ([], ts)

/-- The end of the text. -/
def eof : Parser Unit
  | [] => some ((), [])
  | _ :: _ => none

/-- A non-empty list whose elements are separated by commas and whose end is read by `close`, of at
most as many elements as the first argument says. -/
def listUpTo {α : Type} (p : Parser α) (close : Parser Unit) : ℕ → Parser (List α)
  | 0 => failure
  | n + 1 => do
    let a ← p
    (do close; pure [a]) <|> (do symbol (bytes ","); let as ← listUpTo p close n; pure (a :: as))

/-- A non-empty list, with its end. -/
def list {α : Type} (p : Parser α) (close : Parser Unit) : Parser (List α) := do
  listUpTo p close (← get).length

/-! ## The grammar -/

/-- The definition of a column. -/
structure ColumnDecl where
  name : List UInt8
  type : List (List UInt8)
  notNull : Bool
  primaryKey : Bool
  unique : Bool
  deriving DecidableEq, Repr

/-- The clause `ON CONFLICT (target) DO UPDATE SET a = excluded.b, ..`. -/
structure Upsert where
  target : List (List UInt8)
  sets : List (List UInt8 × List UInt8)
  deriving DecidableEq, Repr

/-- Statements. -/
inductive Statement
  | create (table : List UInt8) (cols : List ColumnDecl) (options : List (List UInt8))
  | alterAdd (table : List UInt8) (col : ColumnDecl)
  | insert (table : List UInt8) (cols : List (List UInt8)) (values : List ℕ)
      (conflict : Option Upsert)
  | select (cols : List (List UInt8)) (table : List UInt8) (cond : Option Expr)
  | count (table : List UInt8) (cond : Option Expr)
  | delete (table : List UInt8) (cond : Option Expr)
  | update (table : List UInt8) (col : List UInt8) (value : ℕ) (cond : Option Expr)
  deriving DecidableEq, Repr

/-- The constraints of a column: whether there is a `NOT NULL`, a `PRIMARY KEY` and a `UNIQUE`. -/
def constraints : List (List UInt8) → Option (Bool × Bool × Bool)
  | [] => some (false, false, false)
  | [w] => if w.map upper = bytes "UNIQUE" then some (false, false, true) else none
  | w :: w' :: ws =>
    if w.map upper = bytes "UNIQUE" then
      (constraints (w' :: ws)).map fun (notNull, pk, _) => (notNull, pk, true)
    else if w.map upper = bytes "NOT" ∧ w'.map upper = bytes "NULL" then
      (constraints ws).map fun (_, pk, unique) => (true, pk, unique)
    else if w.map upper = bytes "PRIMARY" ∧ w'.map upper = bytes "KEY" then
      (constraints ws).map fun (notNull, _, unique) => (notNull, true, unique)
    else none

/-- A word with which a constraint begins. -/
def isConstraint (w : List UInt8) : Bool :=
  w.map upper == bytes "NOT" || w.map upper == bytes "PRIMARY" || w.map upper == bytes "UNIQUE"

/-- The definition of a column: its name, the words of its type, its constraints. -/
def columnDecl : Parser ColumnDecl := do
  let name ← ident
  let ws ← words
  match constraints (ws.dropWhile fun w => !isConstraint w) with
  | some (notNull, pk, unique) =>
    pure ⟨name, ws.takeWhile fun w => !isConstraint w, notNull, pk, unique⟩
  | none => failure

/-- An optional WHERE clause, up to the end of the text. -/
def whereClause : Parser (Option Expr)
  | [] => some (none, [])
  | t :: ts => if t.isKeyword kwWhere then (parse ts).map fun e => (some e, []) else none

/-- `CREATE TABLE IF NOT EXISTS`. -/
def createStmt : Parser Statement := do
  keyword (bytes "CREATE"); keyword (bytes "TABLE"); keyword (bytes "IF"); keyword (bytes "NOT")
  keyword (bytes "EXISTS")
  let table ← ident
  symbol (bytes "(")
  let cols ← list columnDecl (symbol (bytes ")"))
  let options ← words
  eof
  pure (.create table cols options)

/-- `ALTER TABLE .. ADD COLUMN`. -/
def alterStmt : Parser Statement := do
  keyword (bytes "ALTER"); keyword (bytes "TABLE")
  let table ← ident
  keyword (bytes "ADD"); keyword (bytes "COLUMN")
  let col ← columnDecl
  eof
  pure (.alterAdd table col)

/-- `a = excluded.b`. -/
def excluded : Parser (List UInt8 × List UInt8) := do
  let a ← ident
  symbol (bytes "="); keyword (bytes "EXCLUDED"); symbol (bytes ".")
  let b ← ident
  pure (a, b)

/-- `ON CONFLICT (..) DO UPDATE SET`. -/
def conflictTarget : Parser (List (List UInt8)) := do
  keyword (bytes "ON"); keyword (bytes "CONFLICT"); symbol (bytes "(")
  let target ← list ident (symbol (bytes ")"))
  keyword (bytes "DO"); keyword (bytes "UPDATE"); keyword (bytes "SET")
  pure target

/-- `ON CONFLICT`, up to the end of the text. -/
def conflictClause : Parser Upsert := do
  let target ← conflictTarget
  let sets ← list excluded eof
  pure ⟨target, sets⟩

/-- `INSERT`, up to the end of the values: the table, its columns and the values. -/
def insertHead : Parser (List UInt8 × List (List UInt8) × List ℕ) := do
  keyword (bytes "INSERT"); keyword (bytes "INTO")
  let table ← ident
  symbol (bytes "(")
  let cols ← list ident (symbol (bytes ")"))
  keyword (bytes "VALUES"); symbol (bytes "(")
  let values ← list param (symbol (bytes ")"))
  pure (table, cols, values)

/-- `INSERT`. -/
def insertStmt : Parser Statement := do
  let (table, cols, values) ← insertHead
  (do eof; pure (.insert table cols values none)) <|>
    (do let u ← conflictClause; pure (.insert table cols values (some u)))

/-- `SELECT COUNT(*)`. -/
def countStmt : Parser Statement := do
  keyword (bytes "SELECT"); keyword (bytes "COUNT")
  symbol (bytes "("); symbol (bytes "*"); symbol (bytes ")"); keyword (bytes "FROM")
  let table ← ident
  let cond ← whereClause
  pure (.count table cond)

/-- `SELECT` of columns. -/
def selectStmt : Parser Statement := do
  keyword (bytes "SELECT")
  let cols ← list ident (keyword (bytes "FROM"))
  let table ← ident
  let cond ← whereClause
  pure (.select cols table cond)

/-- `DELETE`. -/
def deleteStmt : Parser Statement := do
  keyword (bytes "DELETE"); keyword (bytes "FROM")
  let table ← ident
  let cond ← whereClause
  pure (.delete table cond)

/-- `UPDATE` of one column. -/
def updateStmt : Parser Statement := do
  keyword (bytes "UPDATE")
  let table ← ident
  keyword (bytes "SET")
  let col ← ident
  symbol (bytes "=")
  let value ← param
  let cond ← whereClause
  pure (.update table col value cond)

/-- Any of the statements. -/
def statement : Parser Statement :=
  createStmt <|> alterStmt <|> insertStmt <|> countStmt <|> selectStmt <|> deleteStmt <|> updateStmt

/-- The statement that a token list is, if it is one. -/
def parseStatement (ts : List Token) : Option Statement := (statement ts).map Prod.fst

/-! ## Reading rules -/

/-- In front of `rest`, the parser reads the tokens `ts` as `a`. -/
def Reads {α : Type} (p : Parser α) (ts : List Token) (a : α) (rest : List Token) : Prop :=
  p (ts ++ rest) = some (a, rest)

theorem bind_of_none {α β : Type} {p : Parser α} {k : α → Parser β} {ts : List Token}
    (h : p ts = none) : (p >>= k) ts = none := by
  change (p ts).bind (fun x => k x.1 x.2) = none
  rw [h, Option.bind_none]

namespace Reads

variable {α β : Type} {p q : Parser α} {ts us rest : List Token} {a : α} {b : β}

theorem pure (a : α) (rest : List Token) : Reads (Pure.pure a) [] a rest := rfl

theorem bind {k : α → Parser β} (hp : Reads p ts a (us ++ rest)) (hk : Reads (k a) us b rest) :
    Reads (p >>= k) (ts ++ us) b rest := by
  rw [Reads, List.append_assoc]
  change (p (ts ++ (us ++ rest))).bind (fun x => k x.1 x.2) = _
  rw [show p (ts ++ (us ++ rest)) = _ from hp]
  exact hk

theorem bind_eq_none {k : α → Parser β} (hp : Reads p ts a rest) (hk : k a rest = none) :
    (p >>= k) (ts ++ rest) = none := by
  change (p (ts ++ rest)).bind (fun x => k x.1 x.2) = none
  rw [show p (ts ++ rest) = _ from hp]
  exact hk

/-- The last step of a parser. -/
theorem map {f : α → β} (hp : Reads p ts a rest) :
    Reads (do let a ← p; Pure.pure (f a)) ts (f a) rest := by
  have h : Reads (do let a ← p; Pure.pure (f a)) (ts ++ []) (f a) rest :=
    hp.bind (Reads.pure (f a) rest)
  rwa [List.append_nil] at h

theorem orElse_left (hp : Reads p ts a rest) : Reads (p <|> q) ts a rest := by
  change (p (ts ++ rest) <|> q (ts ++ rest)) = _
  rw [show p (ts ++ rest) = _ from hp]
  rfl

theorem orElse_right (hp : p (ts ++ rest) = none) (hq : Reads q ts a rest) :
    Reads (p <|> q) ts a rest := by
  change (p (ts ++ rest) <|> q (ts ++ rest)) = _
  rw [hp]
  exact hq

theorem keyword {w kw : List UInt8} (h : w.map upper = kw) (rest : List Token) :
    Reads (SqlText.keyword kw) [.word w] () rest := by
  have hk : (Token.word w).isKeyword kw = true := by simp [Token.isKeyword, h]
  rw [Reads, List.singleton_append, SqlText.keyword, if_pos hk]

theorem symbol (s : List UInt8) (rest : List Token) :
    Reads (SqlText.symbol s) [.sym s] () rest := by
  rw [Reads, List.singleton_append, SqlText.symbol, if_pos rfl]

theorem ident (s : List UInt8) (rest : List Token) : Reads SqlText.ident [.ident s] s rest := rfl

theorem param (k : ℕ) (rest : List Token) : Reads SqlText.param [.param (some k)] k rest := rfl

theorem eof : Reads SqlText.eof [] () [] := rfl

/-! The same in front of what a parser goes on with. -/

theorem keyword_bind {w kw : List UInt8} {k : Unit → Parser β} (h : w.map upper = kw)
    (hk : Reads (k ()) us b rest) : Reads (SqlText.keyword kw >>= k) (.word w :: us) b rest :=
  (keyword h _).bind hk

theorem symbol_bind {s : List UInt8} {k : Unit → Parser β} (hk : Reads (k ()) us b rest) :
    Reads (SqlText.symbol s >>= k) (.sym s :: us) b rest :=
  (symbol s _).bind hk

theorem ident_bind {s : List UInt8} {k : List UInt8 → Parser β} (hk : Reads (k s) us b rest) :
    Reads (SqlText.ident >>= k) (.ident s :: us) b rest :=
  (ident s _).bind hk

theorem param_bind {n : ℕ} {k : ℕ → Parser β} (hk : Reads (k n) us b rest) :
    Reads (SqlText.param >>= k) (.param (some n) :: us) b rest :=
  (param n _).bind hk

end Reads

/-- A token that is no bare word, if there is one, comes next. -/
def NoWord (ts : List Token) : Prop := ∀ w, ts.head? ≠ some (.word w)

theorem NoWord.nil : NoWord [] := nofun

theorem NoWord.sym (s : List UInt8) (ts : List Token) : NoWord (.sym s :: ts) := nofun

theorem Reads.words (ws : List (List UInt8)) {rest : List Token} (h : NoWord rest) :
    Reads SqlText.words (ws.map .word) ws rest := by
  induction ws with
  | nil =>
    cases rest with
    | nil => rfl
    | cons t rest =>
      cases t with
      | word w => exact absurd rfl (h w)
      | ident => rfl
      | str => rfl
      | param => rfl
      | sym => rfl
  | cons w ws ih =>
    rw [Reads, List.map_cons, List.cons_append, SqlText.words, show SqlText.words _ = _ from ih]
    rfl

/-- The tokens of a list with commas between its elements. -/
def commaTokens : List (List Token) → List Token
  | [] => []
  | [x] => x
  | x :: xs => x ++ .sym (bytes ",") :: commaTokens xs

section List

variable {α : Type} {p : Parser α} {close : Parser Unit} {f : α → List Token}
  {cs rest : List Token} {P : List Token → Prop}

theorem Reads.listUpTo {xs : List α} (hne : xs ≠ [])
    (hp : ∀ x ∈ xs, ∀ r, P r → Reads p (f x) x r) (hclose : Reads close cs () rest)
    (hno : ∀ ts, close (.sym (bytes ",") :: ts) = none) (hend : P (cs ++ rest))
    (hcomma : ∀ ts, P (.sym (bytes ",") :: ts)) {n : ℕ} (hn : xs.length ≤ n) :
    Reads (SqlText.listUpTo p close n) (commaTokens (xs.map f) ++ cs) xs rest := by
  induction xs generalizing n with
  | nil => exact absurd rfl hne
  | cons x xs ih =>
    obtain ⟨n, rfl⟩ : ∃ m, n = m + 1 := ⟨n - 1, by simp only [List.length_cons] at hn; omega⟩
    have hx := hp x (by simp)
    cases xs with
    | nil =>
      refine (hx _ hend).bind (.orElse_left ?_)
      exact hclose.map (f := fun _ => [x])
    | cons y ys =>
      have htail := ih (by simp) (fun z hz => hp z (by simp [hz])) (n := n) (by simpa using hn)
      have hsplit : commaTokens ((x :: y :: ys).map f) ++ cs =
          f x ++ ([.sym (bytes ",")] ++ (commaTokens ((y :: ys).map f) ++ cs)) := by
        simp [commaTokens]
      rw [hsplit]
      refine (hx _ ?_).bind (.orElse_right ?_ ?_)
      · exact hcomma _
      · change (close _).bind _ = none
        rw [List.append_assoc, List.singleton_append, hno, Option.bind_none]
      · exact (Reads.symbol _ _).bind (htail.map (f := fun as => x :: as))

theorem length_le_commaTokens {xs : List α} (hf : ∀ x ∈ xs, f x ≠ []) :
    xs.length ≤ (commaTokens (xs.map f)).length := by
  induction xs with
  | nil => simp
  | cons x xs ih =>
    have hx : 0 < (f x).length := List.length_pos_iff.2 (hf x (by simp))
    have hxs := ih fun y hy => hf y (by simp [hy])
    cases xs with
    | nil => exact hx
    | cons y ys =>
      simp only [List.map_cons, commaTokens, List.length_append, List.length_cons] at hxs ⊢
      omega

/-- A list of elements that are read one by one. -/
theorem Reads.list {xs : List α} (hne : xs ≠ []) (hf : ∀ x ∈ xs, f x ≠ [])
    (hp : ∀ x ∈ xs, ∀ r, P r → Reads p (f x) x r) (hclose : Reads close cs () rest)
    (hno : ∀ ts, close (.sym (bytes ",") :: ts) = none) (hend : P (cs ++ rest))
    (hcomma : ∀ ts, P (.sym (bytes ",") :: ts)) :
    Reads (SqlText.list p close) (commaTokens (xs.map f) ++ cs) xs rest := by
  have hlen := length_le_commaTokens hf
  refine Reads.listUpTo hne hp hclose hno hend hcomma ?_
  simp only [List.length_append]
  omega

/-- A list up to its end, and what follows. -/
theorem Reads.list_bind {β : Type} {xs : List α} {t : Token} {us : List Token} {b : β}
    {k : List α → Parser β} (hne : xs ≠ []) (hf : ∀ x ∈ xs, f x ≠ [])
    (hp : ∀ x ∈ xs, ∀ r, P r → Reads p (f x) x r) (hclose : ∀ r, Reads close [t] () r)
    (hno : ∀ ts, close (.sym (bytes ",") :: ts) = none) (hend : ∀ r, P (t :: r))
    (hcomma : ∀ ts, P (.sym (bytes ",") :: ts)) (hk : Reads (k xs) us b rest) :
    Reads (SqlText.list p close >>= k) (commaTokens (xs.map f) ++ t :: us) b rest := by
  rw [← List.singleton_append, ← List.append_assoc]
  exact (Reads.list hne hf hp (hclose _) hno (hend _) hcomma).bind hk

/-- A list of names up to its end. -/
theorem Reads.idents_bind {β : Type} {xs : List (List UInt8)} {t : Token} {us : List Token} {b : β}
    {k : List (List UInt8) → Parser β} (hne : xs ≠ []) (hclose : ∀ r, Reads close [t] () r)
    (hno : ∀ ts, close (.sym (bytes ",") :: ts) = none) (hk : Reads (k xs) us b rest) :
    Reads (SqlText.list SqlText.ident close >>= k)
      (commaTokens (xs.map fun x => [.ident x]) ++ t :: us) b rest :=
  Reads.list_bind (P := fun _ => True) hne (fun _ _ => List.cons_ne_nil _ _)
    (fun x _ r _ => Reads.ident x r) hclose hno (fun _ => trivial) (fun _ => trivial) hk

end List

/-! ## The tokens of a statement -/

/-- The words of the constraints of a column. -/
def ColumnDecl.constraintWords (c : ColumnDecl) : List (List UInt8) :=
  (if c.notNull then [bytes "NOT", bytes "NULL"] else []) ++
  (if c.primaryKey then [bytes "PRIMARY", bytes "KEY"] else []) ++
  (if c.unique then [bytes "UNIQUE"] else [])

/-- The tokens of a column definition. -/
def ColumnDecl.tokens (c : ColumnDecl) : List Token :=
  .ident c.name :: (c.type ++ c.constraintWords).map .word

/-- The tokens of an optional WHERE clause. -/
def whereClauseOf (cond : Option Expr) : List Token :=
  match cond with
  | none => []
  | some e => .word kwWhere :: e.tokens

/-- The tokens of an `ON CONFLICT` clause up to its list of columns to set. -/
def targetTokens (target : List (List UInt8)) : List Token :=
  [.word (bytes "ON"), .word (bytes "CONFLICT"), .sym (bytes "(")] ++
  commaTokens (target.map fun c => [.ident c]) ++
  [.sym (bytes ")"), .word (bytes "DO"), .word (bytes "UPDATE"), .word (bytes "SET")]

/-- The tokens of an `ON CONFLICT` clause. -/
def Upsert.tokens (u : Upsert) : List Token :=
  targetTokens u.target ++ commaTokens (u.sets.map fun (a, b) =>
    [.ident a, .sym (bytes "="), .word (bytes "excluded"), .sym (bytes "."), .ident b])

/-- The tokens of an INSERT statement up to the end of its values. -/
def insertTokens (table : List UInt8) (cols : List (List UInt8)) (values : List ℕ) : List Token :=
  [.word (bytes "INSERT"), .word (bytes "INTO"), .ident table, .sym (bytes "(")] ++
  commaTokens (cols.map fun c => [.ident c]) ++
  [.sym (bytes ")"), .word (bytes "VALUES"), .sym (bytes "(")] ++
  commaTokens (values.map fun k => [.param (some k)]) ++ [.sym (bytes ")")]

/-- The tokens of a statement. -/
def Statement.tokens : Statement → List Token
  | create table cols options =>
    [.word (bytes "CREATE"), .word (bytes "TABLE"), .word (bytes "IF"), .word (bytes "NOT"),
      .word (bytes "EXISTS"), .ident table, .sym (bytes "(")] ++
    commaTokens (cols.map ColumnDecl.tokens) ++ .sym (bytes ")") :: options.map .word
  | alterAdd table col =>
    [.word (bytes "ALTER"), .word (bytes "TABLE"), .ident table, .word (bytes "ADD"),
      .word (bytes "COLUMN")] ++ col.tokens
  | insert table cols values conflict =>
    insertTokens table cols values ++ (conflict.map Upsert.tokens).getD []
  | select cols table cond =>
    .word (bytes "SELECT") :: commaTokens (cols.map fun c => [.ident c]) ++
    [.word (bytes "FROM"), .ident table] ++ whereClauseOf cond
  | count table cond =>
    [.word (bytes "SELECT"), .word (bytes "COUNT"), .sym (bytes "("), .sym (bytes "*"),
      .sym (bytes ")"), .word (bytes "FROM"), .ident table] ++ whereClauseOf cond
  | delete table cond =>
    [.word (bytes "DELETE"), .word (bytes "FROM"), .ident table] ++ whereClauseOf cond
  | update table col value cond =>
    [.word (bytes "UPDATE"), .ident table, .word (bytes "SET"), .ident col, .sym (bytes "="),
      .param (some value)] ++ whereClauseOf cond

/-! ## Round trips -/

/-- No word of the type is read as a constraint. -/
def ColumnDecl.WellFormed (c : ColumnDecl) : Prop := ∀ w ∈ c.type, isConstraint w = false

/-- The lists of a statement are not empty, and its column definitions are well formed. -/
def Statement.WellFormed : Statement → Prop
  | create _ cols _ => cols ≠ [] ∧ ∀ c ∈ cols, c.WellFormed
  | alterAdd _ col => col.WellFormed
  | insert _ cols values conflict =>
    cols ≠ [] ∧ values ≠ [] ∧ ∀ u, conflict = some u → u.target ≠ [] ∧ u.sets ≠ []
  | select cols _ _ => cols ≠ []
  | count _ _ => True
  | delete _ _ => True
  | update _ _ _ _ => True

theorem constraints_constraintWords (c : ColumnDecl) :
    constraints c.constraintWords = some (c.notNull, c.primaryKey, c.unique) := by
  obtain ⟨name, type, notNull, pk, unique⟩ := c
  cases notNull <;> cases pk <;> cases unique <;> rfl

/-- The type ends where the constraints begin. -/
theorem ColumnDecl.WellFormed.span {c : ColumnDecl} (h : c.WellFormed) :
    (c.type ++ c.constraintWords).takeWhile (fun w => !isConstraint w) = c.type ∧
      (c.type ++ c.constraintWords).dropWhile (fun w => !isConstraint w) = c.constraintWords := by
  have htype : ∀ w ∈ c.type, (!isConstraint w) = true := fun w hw => by simp [h w hw]
  have htake : c.constraintWords.takeWhile (fun w => !isConstraint w) = [] := by
    obtain ⟨name, type, notNull, pk, unique⟩ := c
    cases notNull <;> cases pk <;> cases unique <;> rfl
  have hdrop : c.constraintWords.dropWhile (fun w => !isConstraint w) = c.constraintWords := by
    obtain ⟨name, type, notNull, pk, unique⟩ := c
    cases notNull <;> cases pk <;> cases unique <;> rfl
  exact ⟨by rw [List.takeWhile_append_of_pos htype, htake, List.append_nil],
    by rw [List.dropWhile_append_of_pos htype, hdrop]⟩

theorem reads_columnDecl {c : ColumnDecl} (h : c.WellFormed) {rest : List Token}
    (hrest : NoWord rest) : Reads columnDecl c.tokens c rest := by
  refine (Reads.ident c.name _).bind ?_
  have hws := Reads.words (c.type ++ c.constraintWords) hrest
  rw [← List.append_nil ((c.type ++ c.constraintWords).map Token.word)]
  refine Reads.bind (by rwa [List.nil_append]) ?_
  rw [h.span.1, h.span.2, constraints_constraintWords]
  exact Reads.pure _ _

theorem reads_whereClause (cond : Option Expr) :
    Reads whereClause (whereClauseOf cond) cond [] := by
  cases cond with
  | none => rfl
  | some e =>
    rw [Reads, List.append_nil, whereClauseOf, whereClause]
    simp only [Token.isKeyword, show kwWhere.map upper = kwWhere from rfl, beq_self_eq_true,
      if_true, parse_tokens, Option.map_some]

theorem reads_excluded (x : List UInt8 × List UInt8) (rest : List Token) :
    Reads excluded [.ident x.1, .sym (bytes "="), .word (bytes "excluded"), .sym (bytes "."),
      .ident x.2] x rest :=
  .ident_bind (.symbol_bind (.keyword_bind rfl (.symbol_bind (.ident_bind (.pure _ _)))))

theorem reads_conflictTarget {target : List (List UInt8)} (ht : target ≠ []) (rest : List Token) :
    Reads conflictTarget (targetTokens target) target rest := by
  simp only [targetTokens, List.cons_append, List.nil_append]
  refine .keyword_bind rfl (.keyword_bind rfl (.symbol_bind ?_))
  refine .idents_bind ht (Reads.symbol _) (fun _ => rfl) ?_
  exact .keyword_bind rfl (.keyword_bind rfl (.keyword_bind rfl (.pure _ _)))

theorem reads_conflictClause {u : Upsert} (ht : u.target ≠ []) (hs : u.sets ≠ []) :
    Reads conflictClause u.tokens u [] := by
  have hsets := Reads.list (P := fun _ => True) hs (fun x _ => List.cons_ne_nil _ _)
    (fun x _ r _ => reads_excluded x r) Reads.eof (fun _ => rfl) trivial fun _ => trivial
  rw [List.append_nil] at hsets
  exact (reads_conflictTarget ht _).bind hsets.map

/-- An `ON CONFLICT` clause with nothing to set is not read. -/
theorem conflictClause_eq_none {target : List (List UInt8)} (ht : target ≠ []) :
    conflictClause (targetTokens target) = none := by
  rw [← List.append_nil (targetTokens target)]
  exact (reads_conflictTarget ht []).bind_eq_none rfl

theorem reads_createStmt {table : List UInt8} {cols : List ColumnDecl}
    (hne : cols ≠ []) (hcols : ∀ c ∈ cols, c.WellFormed) (options : List (List UInt8)) :
    Reads createStmt (Statement.create table cols options).tokens (.create table cols options)
      [] := by
  simp only [Statement.tokens, List.cons_append, List.nil_append]
  refine .keyword_bind rfl (.keyword_bind rfl (.keyword_bind rfl (.keyword_bind rfl
    (.keyword_bind rfl (.ident_bind (.symbol_bind ?_))))))
  refine Reads.list_bind (P := NoWord) hne (fun _ _ => List.cons_ne_nil _ _)
    (fun c hc r hr => reads_columnDecl (hcols c hc) hr) (Reads.symbol _) (fun _ => rfl)
    (NoWord.sym _) (NoWord.sym _) ?_
  rw [← List.append_nil (options.map Token.word)]
  exact (Reads.words options NoWord.nil).bind (Reads.eof.map)

theorem reads_alterStmt {table : List UInt8} {col : ColumnDecl} (h : col.WellFormed) :
    Reads alterStmt (Statement.alterAdd table col).tokens (.alterAdd table col) [] := by
  simp only [Statement.tokens, List.cons_append, List.nil_append]
  refine .keyword_bind rfl (.keyword_bind rfl (.ident_bind (.keyword_bind rfl
    (.keyword_bind rfl ?_))))
  rw [← List.append_nil col.tokens]
  exact (reads_columnDecl h NoWord.nil).bind (Reads.eof.map)

theorem reads_insertHead (table : List UInt8) {cols : List (List UInt8)} {values : List ℕ}
    (hc : cols ≠ []) (hv : values ≠ []) (rest : List Token) :
    Reads insertHead (insertTokens table cols values) (table, cols, values) rest := by
  simp only [insertTokens, List.append_assoc, List.cons_append, List.nil_append]
  refine .keyword_bind rfl (.keyword_bind rfl (.ident_bind (.symbol_bind ?_)))
  refine .idents_bind hc (Reads.symbol _) (fun _ => rfl) ?_
  refine .keyword_bind rfl (.symbol_bind ?_)
  refine Reads.list_bind (P := fun _ => True) hv (fun _ _ => List.cons_ne_nil _ _)
    (fun k _ r _ => Reads.param k r) (Reads.symbol _) (fun _ => rfl) (fun _ => trivial)
    (fun _ => trivial) ?_
  exact .pure _ _

/-- An INSERT statement after its values. -/
theorem insertStmt_eq (table : List UInt8) {cols : List (List UInt8)} {values : List ℕ}
    (hc : cols ≠ []) (hv : values ≠ []) (rest : List Token) :
    insertStmt (insertTokens table cols values ++ rest) =
      ((do eof; pure (.insert table cols values none)) <|>
        (do let u ← conflictClause; pure (.insert table cols values (some u)))
          : Parser Statement) rest := by
  have hhead := reads_insertHead table hc hv rest
  change (insertHead (insertTokens table cols values ++ rest)).bind _ = _
  rw [show insertHead _ = _ from hhead]
  rfl

theorem reads_insertStmt (table : List UInt8) {cols : List (List UInt8)} {values : List ℕ}
    {conflict : Option Upsert} (hc : cols ≠ []) (hv : values ≠ [])
    (hu : ∀ u, conflict = some u → u.target ≠ [] ∧ u.sets ≠ []) :
    Reads insertStmt (Statement.insert table cols values conflict).tokens
      (.insert table cols values conflict) [] := by
  rw [Reads, List.append_nil, Statement.tokens, insertStmt_eq table hc hv]
  cases conflict with
  | none => rfl
  | some u =>
    obtain ⟨ht, hs⟩ := hu u rfl
    have hclause := (reads_conflictClause ht hs).map
      (f := fun u => Statement.insert table cols values (some u))
    rw [Reads, List.append_nil] at hclause
    exact hclause

theorem reads_countStmt (table : List UInt8) (cond : Option Expr) :
    Reads countStmt (Statement.count table cond).tokens (.count table cond) [] := by
  simp only [Statement.tokens, List.cons_append, List.nil_append]
  refine .keyword_bind rfl (.keyword_bind rfl (.symbol_bind (.symbol_bind (.symbol_bind
    (.keyword_bind rfl (.ident_bind ?_))))))
  exact (reads_whereClause cond).map

theorem reads_selectStmt {cols : List (List UInt8)} (hc : cols ≠ []) (table : List UInt8)
    (cond : Option Expr) :
    Reads selectStmt (Statement.select cols table cond).tokens (.select cols table cond) [] := by
  simp only [Statement.tokens, List.append_assoc, List.cons_append, List.nil_append]
  refine .keyword_bind rfl ?_
  refine .idents_bind hc (Reads.keyword rfl) (fun _ => rfl) (.ident_bind ?_)
  exact (reads_whereClause cond).map

theorem reads_deleteStmt (table : List UInt8) (cond : Option Expr) :
    Reads deleteStmt (Statement.delete table cond).tokens (.delete table cond) [] := by
  simp only [Statement.tokens, List.cons_append, List.nil_append]
  refine .keyword_bind rfl (.keyword_bind rfl (.ident_bind ?_))
  exact (reads_whereClause cond).map

theorem reads_updateStmt (table col : List UInt8) (value : ℕ) (cond : Option Expr) :
    Reads updateStmt (Statement.update table col value cond).tokens (.update table col value cond)
      [] := by
  simp only [Statement.tokens, List.cons_append, List.nil_append]
  refine .keyword_bind rfl (.ident_bind (.keyword_bind rfl (.ident_bind (.symbol_bind
    (.param_bind ?_)))))
  exact (reads_whereClause cond).map

/-- The first name of a list is no keyword. -/
theorem keyword_idents {cols : List (List UInt8)} (hc : cols ≠ []) (kw : List UInt8)
    (rest : List Token) :
    keyword kw (commaTokens (cols.map fun c => [.ident c]) ++ rest) = none := by
  obtain ⟨c, cs, rfl⟩ := List.exists_cons_of_ne_nil hc
  cases cs <;> rfl

theorem countStmt_select {cols : List (List UInt8)} (hc : cols ≠ []) (table : List UInt8)
    (cond : Option Expr) : countStmt (Statement.select cols table cond).tokens = none := by
  have hselect : ∀ us, Reads (keyword (bytes "SELECT")) [.word (bytes "SELECT")] () us :=
    Reads.keyword rfl
  simp only [Statement.tokens, List.append_assoc, List.cons_append]
  refine (hselect _).bind_eq_none ?_
  exact bind_of_none (keyword_idents hc _ _)

/-- **A well-formed statement is parsed from its tokens.** -/
theorem parseStatement_tokens {s : Statement} (h : s.WellFormed) :
    parseStatement s.tokens = some s := by
  have hreads : Reads statement s.tokens s [] := by
    cases s with
    | create table cols options => exact .orElse_left (reads_createStmt h.1 h.2 options)
    | alterAdd table col => exact .orElse_right rfl (.orElse_left (reads_alterStmt h))
    | insert table cols values conflict =>
      exact .orElse_right rfl (.orElse_right rfl (.orElse_left
        (reads_insertStmt table h.1 h.2.1 h.2.2)))
    | count table cond =>
      exact .orElse_right rfl (.orElse_right rfl (.orElse_right rfl (.orElse_left
        (reads_countStmt table cond))))
    | select cols table cond =>
      refine .orElse_right rfl (.orElse_right rfl (.orElse_right rfl (.orElse_right ?_
        (.orElse_left (reads_selectStmt h table cond)))))
      rw [List.append_nil, countStmt_select h]
    | delete table cond =>
      exact .orElse_right rfl (.orElse_right rfl (.orElse_right rfl (.orElse_right rfl
        (.orElse_right rfl (.orElse_left (reads_deleteStmt table cond))))))
    | update table col value cond =>
      exact .orElse_right rfl (.orElse_right rfl (.orElse_right rfl (.orElse_right rfl
        (.orElse_right rfl (.orElse_right rfl (reads_updateStmt table col value cond))))))
  rw [Reads, List.append_nil] at hreads
  rw [parseStatement, hreads]
  rfl

/-- An INSERT statement whose `ON CONFLICT` clause has nothing to set is not parsed. -/
theorem parseStatement_eq_none (table : List UInt8) {cols : List (List UInt8)} {values : List ℕ}
    (hc : cols ≠ []) (hv : values ≠ []) {target : List (List UInt8)} (ht : target ≠ []) :
    parseStatement (insertTokens table cols values ++ targetTokens target) = none := by
  have hinsert : insertStmt (insertTokens table cols values ++ targetTokens target) = none := by
    rw [insertStmt_eq table hc hv]
    change (none <|> (conflictClause (targetTokens target)).bind _) = none
    rw [conflictClause_eq_none ht]
    rfl
  have hnone : statement (insertTokens table cols values ++ targetTokens target) = none := by
    change (none <|> none <|> insertStmt _ <|> none <|> none <|> none <|> none) = none
    rw [hinsert]
    rfl
  rw [parseStatement, hnone]
  rfl

/-! ## Statements that are not parsed -/

section Rejected

variable {ts : List Token} (h : parse ts = none)

include h

theorem whereClause_eq_none : whereClause (.word kwWhere :: ts) = none := by
  simp only [whereClause, Token.isKeyword, show kwWhere.map upper = kwWhere from rfl,
    beq_self_eq_true, if_true, h, Option.map_none]

/-- The end of a statement after its head. -/
theorem whereClause_bind_eq_none (f : Option Expr → Statement) :
    (do let cond ← whereClause; pure (f cond) : Parser Statement) (.word kwWhere :: ts) = none :=
  bind_of_none (whereClause_eq_none h)

theorem selectStmt_eq_none {cols : List (List UInt8)} (hc : cols ≠ []) (table : List UInt8) :
    selectStmt ((Statement.select cols table none).tokens ++ .word kwWhere :: ts) = none := by
  have hcols : Reads (list ident (keyword (bytes "FROM")))
      (commaTokens (cols.map fun c => [.ident c]) ++ [.word (bytes "FROM")]) cols
      (.ident table :: .word kwWhere :: ts) :=
    Reads.list (P := fun _ => True) hc (fun _ _ => List.cons_ne_nil _ _)
      (fun c _ r _ => Reads.ident c r) (Reads.keyword rfl _) (fun _ => rfl) trivial fun _ => trivial
  have htokens : (Statement.select cols table none).tokens ++ .word kwWhere :: ts =
      [.word (bytes "SELECT")] ++ ((commaTokens (cols.map fun c => [.ident c]) ++
        [.word (bytes "FROM")]) ++ .ident table :: .word kwWhere :: ts) := by
    simp [Statement.tokens, whereClauseOf]
  have hselect : ∀ us, Reads (keyword (bytes "SELECT")) [.word (bytes "SELECT")] () us :=
    Reads.keyword rfl
  rw [htokens]
  refine (hselect _).bind_eq_none ?_
  refine hcols.bind_eq_none ?_
  exact whereClause_bind_eq_none h fun cond => .select cols table cond

/-- A statement with a WHERE clause that is no expression is not parsed. -/
theorem parseStatement_where_eq_none {s : Statement}
    (hs : (∃ t, s = .count t none) ∨ (∃ cols t, cols ≠ [] ∧ s = .select cols t none) ∨
      (∃ t, s = .delete t none) ∨ ∃ t col k, s = .update t col k none) :
    parseStatement (s.tokens ++ .word kwWhere :: ts) = none := by
  have hnone : statement (s.tokens ++ .word kwWhere :: ts) = none := by
    rcases hs with ⟨t, rfl⟩ | ⟨cols, t, hc, rfl⟩ | ⟨t, rfl⟩ | ⟨t, col, k, rfl⟩
    · have hcount : countStmt ((Statement.count t none).tokens ++ .word kwWhere :: ts) = none :=
        whereClause_bind_eq_none h fun cond => .count t cond
      change (none <|> none <|> none <|> countStmt _ <|> none <|> none <|> none) = none
      rw [hcount]
      rfl
    · have hcount : countStmt ((Statement.select cols t none).tokens ++ .word kwWhere :: ts) =
          none := by
        have hselect : ∀ us, Reads (keyword (bytes "SELECT")) [.word (bytes "SELECT")] () us :=
          Reads.keyword rfl
        simp only [Statement.tokens, List.append_assoc, List.cons_append]
        refine (hselect _).bind_eq_none ?_
        exact bind_of_none (keyword_idents hc _ _)
      change (none <|> none <|> none <|> countStmt _ <|> selectStmt _ <|> none <|> none) = none
      rw [hcount, selectStmt_eq_none h hc]
      rfl
    · have hdelete : deleteStmt ((Statement.delete t none).tokens ++ .word kwWhere :: ts) = none :=
        whereClause_bind_eq_none h fun cond => .delete t cond
      change (none <|> none <|> none <|> none <|> none <|> deleteStmt _ <|> none) = none
      rw [hdelete]
      rfl
    · have hupdate : updateStmt ((Statement.update t col k none).tokens ++ .word kwWhere :: ts) =
          none := whereClause_bind_eq_none h fun cond => .update t col k cond
      exact hupdate
  rw [parseStatement, hnone]
  rfl

end Rejected

end SqlText
