import C2Sql.Lib.SqlLexer

/-!
# Boolean expressions of SQL

The tokens of a WHERE clause are parsed by operator precedence: `OR` binds weaker than `AND`, which
binds weaker than a comparison, all of them to the left, and parentheses group. Operands of a
comparison are quoted columns and numbered placeholders. The parser keeps a stack of finished
nodes and a stack of pending operators, and never looks ahead, so it is a fold over the tokens.

`Expr.eval` is the three-valued meaning of an expression on a row.

The rules `Parses.cmp`, `Parses.and` and `Parses.or` say how the parser treats a piece of text
that forms an operand of its context; `parse_of_parses` ends a parse. `Rejected.left` and
`Rejected.right` say that an operation is not parsed if an operand is missing.
-/

namespace SqlText

/-! ## Three-valued logic -/

/-- Conjunction of truth values, `none` being unknown. -/
def and3 : Option Bool → Option Bool → Option Bool
  | some false, _ => some false
  | _, some false => some false
  | some true, some true => some true
  | _, _ => none

/-- Disjunction of truth values. -/
def or3 : Option Bool → Option Bool → Option Bool
  | some true, _ => some true
  | _, some true => some true
  | some false, some false => some false
  | _, _ => none

/-! ## Expressions -/

/-- Comparison operators. -/
inductive CmpOp
  | eq
  | ne
  | lt
  | le
  | gt
  | ge
  deriving DecidableEq, Repr

/-- Operands of a comparison. -/
inductive Operand
  | col (name : List UInt8)
  | param (k : ℕ)
  deriving DecidableEq, Repr

/-- Boolean expressions. -/
inductive Expr
  | cmp (op : CmpOp) (l r : Operand)
  | and (l r : Expr)
  | or (l r : Expr)
  deriving DecidableEq, Repr

section Eval

variable {V : Type*} (cmp : CmpOp → V → V → Option Bool) (row : List UInt8 → V) (param : ℕ → V)

/-- The value of an operand. -/
def Operand.eval : Operand → V
  | col name => row name
  | Operand.param k => param k

/-- The truth value of an expression on a row, with the placeholders' values. -/
def Expr.eval : Expr → Option Bool
  | Expr.cmp op l r => cmp op (l.eval row param) (r.eval row param)
  | and l r => and3 l.eval r.eval
  | or l r => or3 l.eval r.eval

end Eval

/-! ## The parser -/

/-- Finished nodes. -/
inductive Node
  | operand (o : Operand)
  | expr (e : Expr)
  deriving DecidableEq, Repr

/-- Pending operators. -/
inductive Op
  | lparen
  | or
  | and
  | cmp (op : CmpOp)
  deriving DecidableEq, Repr

/-- How tight an operator binds; an open parenthesis is never reduced by an operator. -/
def Op.prec : Op → ℕ
  | lparen => 0
  | or => 1
  | and => 2
  | cmp _ => 3

/-- Build the node of an operator from the top of the stack. -/
def Op.apply : Op → List Node → Option (List Node)
  | cmp op, .operand b :: .operand a :: out => some (.expr (.cmp op a b) :: out)
  | and, .expr b :: .expr a :: out => some (.expr (.and a b) :: out)
  | or, .expr b :: .expr a :: out => some (.expr (.or a b) :: out)
  | _, _ => none

/-- Reduce the pending operators that bind at least as tight as `p`. -/
def reduce (p : ℕ) : List Op → List Node → Option (List Op × List Node)
  | [], out => some ([], out)
  | o :: ops, out =>
    if p ≤ o.prec then (o.apply out).bind fun out => reduce p ops out else some (o :: ops, out)

/-- The state of the parser. -/
structure ParseState where
  out : List Node
  ops : List Op
  /-- Whether an operand or an open parenthesis comes next, rather than an operator. -/
  operandNext : Bool
  deriving DecidableEq, Repr

/-- What a token is to the parser. -/
inductive Class
  | operand (o : Operand)
  | op (o : Op)
  | rparen
  | bad

/-- The upper case of an ASCII letter. -/
def upper (c : UInt8) : UInt8 := if byte 'a' ≤ c && c ≤ byte 'z' then c - 32 else c

/-- Whether a token is the given keyword, in any case. -/
def Token.isKeyword (t : Token) (kw : List UInt8) : Bool :=
  match t with
  | .word s => s.map upper == kw
  | _ => false

/-- The bytes of `AND`. -/
def kwAnd : List UInt8 := [byte 'A', byte 'N', byte 'D']

/-- The bytes of `OR`. -/
def kwOr : List UInt8 := [byte 'O', byte 'R']

/-- The bytes of `WHERE`. -/
def kwWhere : List UInt8 := [byte 'W', byte 'H', byte 'E', byte 'R', byte 'E']

/-- The comparison operator that a symbol stands for. -/
def symCmp (s : List UInt8) : Option CmpOp :=
  if s = [byte '='] ∨ s = [byte '=', byte '='] then some .eq
  else if s = [byte '!', byte '='] ∨ s = [byte '<', byte '>'] then some .ne
  else if s = [byte '<'] then some .lt
  else if s = [byte '<', byte '='] then some .le
  else if s = [byte '>'] then some .gt
  else if s = [byte '>', byte '='] then some .ge
  else none

/-- The class of a token. -/
def Token.class : Token → Class
  | .ident s => .operand (.col s)
  | .param (some k) => .operand (.param k)
  | .param none => .bad
  | .str _ => .bad
  | .word s =>
    if s.map upper == kwAnd then .op .and else if s.map upper == kwOr then .op .or else .bad
  | .sym s =>
    if s = [byte '('] then .op .lparen
    else if s = [byte ')'] then .rparen
    else match symCmp s with
      | some op => .op (.cmp op)
      | none => .bad

/-- One token. -/
def parseStep (st : ParseState) (t : Token) : Option ParseState :=
  match t.class with
  | .operand o =>
    if st.operandNext then some { st with out := .operand o :: st.out, operandNext := false }
    else none
  | .op .lparen => if st.operandNext then some { st with ops := .lparen :: st.ops } else none
  | .op o =>
    if st.operandNext then none
    else (reduce o.prec st.ops st.out).map fun (ops, out) => ⟨out, o :: ops, true⟩
  | .rparen =>
    if st.operandNext then none
    else match reduce 1 st.ops st.out with
      | some (.lparen :: ops, out) => some ⟨out, ops, false⟩
      | _ => none
  | .bad => none

/-- The tokens of a text, from a state of the parser. -/
def parseFrom (st : ParseState) : List Token → Option ParseState
  | [] => some st
  | t :: ts => (parseStep st t).bind fun st => parseFrom st ts

/-- The expression that a token list is, if it is one. -/
def parse (ts : List Token) : Option Expr :=
  match parseFrom ⟨[], [], true⟩ ts with
  | some st =>
    if st.operandNext then none
    else match reduce 1 st.ops st.out with
      | some ([], [.expr e]) => some e
      | _ => none
  | none => none

/-- The tokens after the first `WHERE`, or `none` when there is no WHERE clause. -/
def whereTokens : List Token → Option (List Token)
  | [] => none
  | t :: ts => if t.isKeyword kwWhere then some ts else whereTokens ts

theorem parseFrom_append (st : ParseState) (a b : List Token) :
    parseFrom st (a ++ b) = (parseFrom st a).bind fun st => parseFrom st b := by
  induction a generalizing st with
  | nil => rfl
  | cons t a ih =>
    simp only [List.cons_append, parseFrom]
    cases parseStep st t with
    | none => rfl
    | some st' => exact ih st'

theorem whereTokens_append {a b : List Token}
    (h : ∀ t ∈ a, t.isKeyword kwWhere = false) : whereTokens (a ++ b) = whereTokens b := by
  induction a with
  | nil => rfl
  | cons t a ih =>
    rw [List.cons_append, whereTokens, h t (by simp)]
    exact ih fun t' ht' => h t' (by simp [ht'])

theorem whereTokens_eq_none {ts : List Token} (h : ∀ t ∈ ts, t.isKeyword kwWhere = false) :
    whereTokens ts = none := by
  have := whereTokens_append (b := []) h
  rwa [List.append_nil] at this

/-- Numbering the placeholders makes no keywords. -/
theorem isKeyword_number {kw : List UInt8} {ts : List Token}
    (h : ∀ t ∈ ts, t.isKeyword kw = false) (m : ℕ) :
    ∀ t ∈ number m ts, t.isKeyword kw = false := by
  induction ts generalizing m with
  | nil => simp [number]
  | cons t ts ih =>
    have hts := ih fun t' ht' => h t' (by simp [ht'])
    have ht := h t (by simp)
    rcases t with s | s | s | n | s
    case param =>
      cases n <;> exact List.forall_mem_cons.2 ⟨rfl, hts _⟩
    all_goals exact List.forall_mem_cons.2 ⟨ht, hts _⟩

/-! ## Parsing rules -/

/-- The pending operators bind at most as tight as `AND`: a comparison may start here. -/
def Loose (ops : List Op) : Prop := ∀ o, ops.head? = some o → o.prec ≤ 2

/-- The state `st'` is `st` with the operand `e` read, up to a comparison that the next operator
of the context reduces. -/
def Read (st st' : ParseState) (e : Expr) : Prop :=
  st'.operandNext = false ∧
    ∀ p, 1 ≤ p → p ≤ 2 → reduce p st'.ops st'.out = reduce p st.ops (.expr e :: st.out)

/-- Wherever an operand may stand, the tokens `ts` are read as the expression `e`. -/
def Parses (ts : List Token) (e : Expr) : Prop :=
  ∀ st : ParseState, st.operandNext = true → Loose st.ops →
    ∃ st', parseFrom st ts = some st' ∧ Read st st' e

theorem reduce_of_loose {ops : List Op} (h : Loose ops) (out : List Node) :
    reduce 3 ops out = some (ops, out) := by
  cases ops with
  | nil => rfl
  | cons o ops =>
    have := h o rfl
    rw [reduce, if_neg (by omega)]

theorem reduce_lparen {p : ℕ} (hp : 1 ≤ p) (ops : List Op) (out : List Node) :
    reduce p (.lparen :: ops) out = some (.lparen :: ops, out) := by
  rw [reduce, if_neg (by simp only [Op.prec]; omega)]

/-- A comparison. -/
theorem Parses.cmp {a s b : Token} {l r : Operand} {op : CmpOp} (ha : a.class = .operand l)
    (hs : s.class = .op (.cmp op)) (hb : b.class = .operand r) :
    Parses [a, s, b] (.cmp op l r) := by
  intro st hst hl
  refine ⟨⟨.operand r :: .operand l :: st.out, .cmp op :: st.ops, false⟩, ?_, rfl, ?_⟩
  · simp [parseFrom, parseStep, ha, hs, hb, hst, Op.prec, reduce_of_loose hl]
  · intro p _ hp
    simp only [reduce, Op.prec, Op.apply, show p ≤ 3 by omega, if_true, Option.bind_some]

theorem loose_lparen (ops : List Op) : Loose (.lparen :: ops) := by
  intro o ho
  cases ho
  simp [Op.prec]

theorem parseStep_open {open_ : Token} (ho : open_.class = .op .lparen) {st : ParseState}
    (hst : st.operandNext = true) :
    parseStep st open_ = some { st with ops := .lparen :: st.ops } := by
  simp [parseStep, ho, hst]

/-- A parenthesis, an operand and one of the operators `AND` and `OR`. -/
theorem parseFrom_left {open_ mid : Token} {o : Op} {t₁ ts : List Token} {e₁ : Expr}
    (ho : open_.class = .op .lparen) (hm : mid.class = .op o) (hop : o = .and ∨ o = .or)
    (h₁ : Parses t₁ e₁) {st : ParseState} (hst : st.operandNext = true) :
    parseFrom st (open_ :: t₁ ++ mid :: ts) =
      parseFrom ⟨.expr e₁ :: st.out, o :: .lparen :: st.ops, true⟩ ts := by
  have hprec : 1 ≤ o.prec ∧ o.prec ≤ 2 := by rcases hop with rfl | rfl <;> simp [Op.prec]
  have hmid : ∀ s : ParseState, s.operandNext = false → parseStep s mid =
      (reduce o.prec s.ops s.out).map fun (ops, out) => ⟨out, o :: ops, true⟩ := by
    intro s hs
    rcases hop with rfl | rfl <;> simp [parseStep, hm, hs]
  -- the operand is read above the open parenthesis
  obtain ⟨st₁, hp₁, hn₁, hr₁⟩ :=
    h₁ { st with ops := .lparen :: st.ops } hst (loose_lparen st.ops)
  have hr₁' := hr₁ o.prec hprec.1 hprec.2
  rw [reduce_lparen hprec.1] at hr₁'
  rw [List.cons_append, parseFrom, parseStep_open ho hst, Option.bind_some, parseFrom_append, hp₁,
    Option.bind_some, parseFrom, hmid st₁ hn₁, hr₁', Option.map_some, Option.bind_some]

theorem loose_of_and_or {o : Op} (hop : o = .and ∨ o = .or) (ops : List Op) :
    Loose (o :: ops) := by
  intro o' ho'
  cases ho'
  rcases hop with rfl | rfl <;> simp [Op.prec]

/-- The part of a parenthesised operation that `AND` and `OR` share. -/
private theorem Parses.paren {open_ close_ mid : Token} {o : Op} {t₁ t₂ : List Token}
    {e₁ e₂ e : Expr} (ho : open_.class = .op .lparen) (hc : close_.class = .rparen)
    (hm : mid.class = .op o) (hop : o = .and ∨ o = .or)
    (happ : ∀ out, o.apply (.expr e₂ :: .expr e₁ :: out) = some (.expr e :: out))
    (h₁ : Parses t₁ e₁) (h₂ : Parses t₂ e₂) :
    Parses (open_ :: t₁ ++ mid :: t₂ ++ [close_]) e := by
  intro st hst hl
  have hprec : 1 ≤ o.prec := by rcases hop with rfl | rfl <;> simp [Op.prec]
  -- the right operand is read above the operator
  obtain ⟨st₂, hp₂, hn₂, hr₂⟩ := h₂ ⟨.expr e₁ :: st.out, o :: .lparen :: st.ops, true⟩ rfl
    (loose_of_and_or hop _)
  have hr₂' : reduce 1 st₂.ops st₂.out = some (.lparen :: st.ops, .expr e :: st.out) := by
    rw [hr₂ 1 le_rfl (by omega), reduce, if_pos hprec, happ, Option.bind_some,
      reduce_lparen le_rfl]
  refine ⟨⟨.expr e :: st.out, st.ops, false⟩, ?_, rfl, fun p _ _ => rfl⟩
  have hclose : parseStep st₂ close_ = some ⟨.expr e :: st.out, st.ops, false⟩ := by
    simp [parseStep, hc, hn₂, hr₂']
  rw [List.append_assoc, List.cons_append (a := mid), parseFrom_left ho hm hop h₁ hst,
    parseFrom_append, hp₂, Option.bind_some, parseFrom, hclose]
  rfl

/-- A conjunction in parentheses. -/
theorem Parses.and {open_ close_ mid : Token} {t₁ t₂ : List Token} {e₁ e₂ : Expr}
    (ho : open_.class = .op .lparen) (hc : close_.class = .rparen) (hm : mid.class = .op .and)
    (h₁ : Parses t₁ e₁) (h₂ : Parses t₂ e₂) :
    Parses (open_ :: t₁ ++ mid :: t₂ ++ [close_]) (.and e₁ e₂) :=
  Parses.paren ho hc hm (Or.inl rfl) (fun _ => rfl) h₁ h₂

/-- A disjunction in parentheses. -/
theorem Parses.or {open_ close_ mid : Token} {t₁ t₂ : List Token} {e₁ e₂ : Expr}
    (ho : open_.class = .op .lparen) (hc : close_.class = .rparen) (hm : mid.class = .op .or)
    (h₁ : Parses t₁ e₁) (h₂ : Parses t₂ e₂) :
    Parses (open_ :: t₁ ++ mid :: t₂ ++ [close_]) (.or e₁ e₂) :=
  Parses.paren ho hc hm (Or.inr rfl) (fun _ => rfl) h₁ h₂

/-- A text that reads as an operand is parsed as that expression. -/
theorem parse_of_parses {ts : List Token} {e : Expr} (h : Parses ts e) : parse ts = some e := by
  obtain ⟨st, hp, hn, hr⟩ := h ⟨[], [], true⟩ rfl (by intro o ho; cases ho)
  have hr₁ := hr 1 le_rfl (by omega)
  simp only [reduce] at hr₁
  simp [parse, hp, hn, hr₁]

/-! ## The tokens of an expression -/

/-- The symbol of a comparison. -/
def CmpOp.symbol : CmpOp → List UInt8
  | eq => [byte '=']
  | ne => [byte '!', byte '=']
  | lt => [byte '<']
  | le => [byte '<', byte '=']
  | gt => [byte '>']
  | ge => [byte '>', byte '=']

/-- The token of an operand. -/
def Operand.token : Operand → Token
  | col name => .ident name
  | param k => .param (some k)

/-- The tokens of an expression, with parentheses around every operation. -/
def Expr.tokens : Expr → List Token
  | cmp op l r => [l.token, .sym op.symbol, r.token]
  | and l r => .sym [byte '('] :: l.tokens ++ .word kwAnd :: r.tokens ++ [.sym [byte ')']]
  | or l r => .sym [byte '('] :: l.tokens ++ .word kwOr :: r.tokens ++ [.sym [byte ')']]

theorem Operand.class_token (o : Operand) : o.token.class = .operand o := by
  cases o <;> rfl

theorem parses_tokens (e : Expr) : Parses e.tokens e := by
  induction e with
  | cmp op l r =>
    refine Parses.cmp l.class_token ?_ r.class_token
    cases op <;> rfl
  | and l r ihl ihr => exact Parses.and rfl rfl rfl ihl ihr
  | or l r ihl ihr => exact Parses.or rfl rfl rfl ihl ihr

/-- An expression is parsed from its tokens. -/
theorem parse_tokens (e : Expr) : parse e.tokens = some e := parse_of_parses (parses_tokens e)

/-! ## Rejection -/

/-- The tokens are no operand: there are none, or the parser fails on them. -/
def Rejected (ts : List Token) : Prop :=
  ts = [] ∨ ∀ st : ParseState, st.operandNext = true → Loose st.ops → parseFrom st ts = none

/-- An operation without its left operand. -/
theorem Rejected.left {open_ close_ mid : Token} {o : Op} {t₁ t₂ : List Token}
    (ho : open_.class = .op .lparen) (hm : mid.class = .op o) (hop : o = .and ∨ o = .or)
    (h : Rejected t₁) : Rejected (open_ :: t₁ ++ mid :: t₂ ++ [close_]) := by
  refine .inr fun st hst _ => ?_
  rw [List.append_assoc, List.cons_append (a := open_), parseFrom, parseStep_open ho hst,
    Option.bind_some]
  rcases h with rfl | hfail
  · have hmid : parseStep { st with ops := .lparen :: st.ops } mid = none := by
      rcases hop with rfl | rfl <;> simp [parseStep, hm, hst]
    rw [List.nil_append, List.cons_append, parseFrom, hmid, Option.bind_none]
  · rw [parseFrom_append, hfail { st with ops := .lparen :: st.ops } hst (loose_lparen st.ops),
      Option.bind_none]

/-- An operation without its right operand. -/
theorem Rejected.right {open_ close_ mid : Token} {o : Op} {t₁ t₂ : List Token} {e₁ : Expr}
    (ho : open_.class = .op .lparen) (hc : close_.class = .rparen) (hm : mid.class = .op o)
    (hop : o = .and ∨ o = .or) (h₁ : Parses t₁ e₁) (h₂ : Rejected t₂) :
    Rejected (open_ :: t₁ ++ mid :: t₂ ++ [close_]) := by
  refine .inr fun st hst _ => ?_
  rw [List.append_assoc, List.cons_append (a := mid), parseFrom_left ho hm hop h₁ hst]
  rcases h₂ with rfl | hfail
  · simp [parseFrom, parseStep, hc]
  · rw [parseFrom_append, hfail _ rfl (loose_of_and_or hop _), Option.bind_none]

theorem parse_of_rejected {ts : List Token} (h : Rejected ts) : parse ts = none := by
  rcases h with rfl | hfail
  · rfl
  · rw [parse, hfail _ rfl (by intro o ho; cases ho)]

end SqlText
