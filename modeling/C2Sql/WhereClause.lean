import C2Sql.QueryText

/-!
# The WHERE clause means what the condition says

Two recursions over a condition tree have to agree: the builder writes a placeholder for each leaf
(`appendCond`), and `bind_cond_values` binds the value of each leaf to an index.

* `parse_condTokens`: a parser with the precedences of SQL reads the tokens of a condition back as
  the same tree;
* `bindCondValues_spec`: the values of the leaves are bound from left to right to consecutive
  indices, as long as these are positive `int`s;
* `where_preserves_meaning`: so the generated clause, with the bound values, selects a row exactly
  as the condition does;
* `match_all_iff`: a match-all node may only be the root of a condition: below it, the builder
  leaves an operand out.
-/

namespace C2Sql

open SqlText

/-! ## Parsing -/

/-- The comparison that an operator stands for. -/
def SqlRDBOp.cmpOp : SqlRDBOp → CmpOp
  | .eq => .eq
  | .ne => .ne
  | .lt => .lt
  | .le => .le
  | .gt => .gt
  | .ge => .ge
  | .other _ => .eq

/-- The expression of a condition whose placeholders come after the `n`-th. A match-all node has
none. -/
def condExpr : SqlRDBCondition → ℕ → Expr
  | .all, n => .cmp .eq (.param n) (.param n)
  | .leaf col op _, n => .cmp op.cmpOp (.col col) (.param (n + 1))
  | .and l r, n => .and (condExpr l n) (condExpr r (n + l.leafCount))
  | .or l r, n => .or (condExpr l n) (condExpr r (n + l.leafCount))

theorem parses_condTokens {c : SqlRDBCondition} (hc : c.NoAll) (n : ℕ) :
    Parses (condTokens .postgres c n) (condExpr c n) := by
  induction c generalizing n with
  | all => cases hc
  | leaf col op v =>
    refine Parses.cmp rfl ?_ rfl
    cases op <;> rfl
  | and l r ihl ihr => exact Parses.and rfl rfl rfl (ihl hc.1 n) (ihr hc.2 _)
  | or l r ihl ihr => exact Parses.or rfl rfl rfl (ihl hc.1 n) (ihr hc.2 _)

/-- The text of a condition is parsed as its tree. -/
theorem parse_condTokens {c : SqlRDBCondition} (hc : c.NoAll) (n : ℕ) :
    parse (condTokens .postgres c n) = some (condExpr c n) :=
  parse_of_parses (parses_condTokens hc n)

/-- Numbering the placeholders of a condition after the `n`-th, in either dialect. -/
theorem number_condTokens (d : C2SqlDialect) (c : SqlRDBCondition) (n : ℕ) :
    number n (condTokens d c n) = condTokens .postgres c n ∧
      lastNumber n (condTokens d c n) = n + c.leafCount := by
  have hbin : ∀ {l r : SqlRDBCondition} {kw : List UInt8} {n : ℕ},
      (number n (condTokens d l n) = condTokens .postgres l n ∧
        lastNumber n (condTokens d l n) = n + l.leafCount) →
      (number (n + l.leafCount) (condTokens d r (n + l.leafCount)) =
          condTokens .postgres r (n + l.leafCount) ∧
        lastNumber (n + l.leafCount) (condTokens d r (n + l.leafCount)) =
          n + l.leafCount + r.leafCount) →
      number n (.sym [byte '('] :: condTokens d l n ++ .word kw ::
          condTokens d r (n + l.leafCount) ++ [.sym [byte ')']]) =
        .sym [byte '('] :: condTokens .postgres l n ++ .word kw ::
          condTokens .postgres r (n + l.leafCount) ++ [.sym [byte ')']] ∧
      lastNumber n (.sym [byte '('] :: condTokens d l n ++ .word kw ::
          condTokens d r (n + l.leafCount) ++ [.sym [byte ')']]) =
        n + (l.leafCount + r.leafCount) := by
    rintro l r kw n ⟨hl, hl'⟩ ⟨hr, hr'⟩
    simp only [List.cons_append, List.append_assoc, number, number_append, lastNumber,
      lastNumber_append, hl, hl', hr, hr', Nat.add_assoc, and_self]
  induction c generalizing n with
  | all => exact ⟨rfl, rfl⟩
  | leaf col op v => cases d <;> simp [condTokens, number, lastNumber, placeholderNumber,
      SqlRDBCondition.leafCount]
  | and l r ihl ihr => exact hbin (ihl n) (ihr _)
  | or l r ihl ihr => exact hbin (ihl n) (ihr _)

/-- Placeholders in order are numbered without gaps. -/
theorem lastNumber_of_params {d : C2SqlDialect} {n k : ℕ} {ts : List Token}
    (h : params ts = placeholders d n k) : lastNumber n ts = n + k := by
  have hnext : ∀ m, nextNumber m (placeholderNumber d (m + 1)) = m + 1 := by
    intro m
    cases d with
    | sqlite => rfl
    | postgres => exact max_eq_right (by omega)
  have hfold : ∀ k n, (placeholders d n k).foldl nextNumber n = n + k := by
    intro k
    induction k with
    | zero => intro n; rfl
    | succ k ih =>
      intro n
      have := ih (n + 1)
      simp only [placeholders] at this ⊢
      rw [List.range'_succ, List.map_cons, List.foldl_cons, hnext, this]
      omega
  rw [lastNumber_eq_foldl, h, hfold]

/-! ## Binding -/

/-- The parameters of a statement with `N` placeholders; both drivers refuse any other index. -/
def bindParam (N : ℕ) (index : ℤ) (v : SqlValue) : StateM (ℕ → SqlValue) SqlRDBResult := fun ps =>
  if 1 ≤ index ∧ index ≤ N then (.ok, Function.update ps index.toNat v) else (.errDriver, ps)

/-- The parameters after the `n`-th set to the values of a list. -/
def setValues (ps : ℕ → SqlValue) (n : ℕ) (vs : List SqlValue) : ℕ → SqlValue := fun i =>
  if n < i then (vs[i - n - 1]?).getD (ps i) else ps i

theorem setValues_nil (ps : ℕ → SqlValue) (n : ℕ) : setValues ps n [] = ps := by
  funext i
  simp [setValues]

theorem setValues_singleton (ps : ℕ → SqlValue) (n : ℕ) (v : SqlValue) :
    setValues ps n [v] = Function.update ps (n + 1) v := by
  funext i
  rw [setValues, Function.update_apply]
  by_cases hi : i = n + 1
  · subst hi
    simp
  · rw [if_neg hi]
    split_ifs with h
    · rw [List.getElem?_eq_none (by simp only [List.length_singleton]; omega)]
      rfl
    · rfl

theorem setValues_append (ps : ℕ → SqlValue) (n : ℕ) (a b : List SqlValue) :
    setValues (setValues ps n a) (n + a.length) b = setValues ps n (a ++ b) := by
  funext i
  simp only [setValues]
  by_cases h₁ : n + a.length < i
  · rw [if_pos h₁, if_pos (by omega), List.getElem?_append_right (by omega),
      List.getElem?_eq_none (l := a) (by omega), show i - (n + a.length) - 1 = i - n - 1 - a.length
        by omega, if_pos (by omega)]
    rfl
  · rw [if_neg h₁]
    split_ifs with h₂
    · rw [List.getElem?_append_left (by omega)]
    · rfl

/-- The parameters after the `n`-th are the values of a list. -/
def HoldsFrom (ps : ℕ → SqlValue) (n : ℕ) (vs : List SqlValue) : Prop :=
  ∀ i v, vs[i]? = some v → ps (n + i + 1) = v

theorem holdsFrom_setValues (ps : ℕ → SqlValue) (n : ℕ) (vs : List SqlValue) :
    HoldsFrom (setValues ps n vs) n vs := by
  intro i v hv
  rw [setValues, if_pos (by omega), show n + i + 1 - n - 1 = i by omega, hv]
  rfl

theorem HoldsFrom.append {ps : ℕ → SqlValue} {n : ℕ} {a b : List SqlValue}
    (h : HoldsFrom ps n (a ++ b)) : HoldsFrom ps n a ∧ HoldsFrom ps (n + a.length) b := by
  refine ⟨fun i v hv => h i v ?_, fun i v hv => ?_⟩
  · rw [List.getElem?_append_left (List.getElem?_eq_some_iff.1 hv).1, hv]
  · have := h (a.length + i) v (by rw [List.getElem?_append_right (by omega), ← hv]; simp)
    rwa [← Nat.add_assoc] at this

theorem cInt_two_pow_31 : cInt (2 ^ 31) = -2 ^ 31 := by decide

/-- What binding the values after the `n`-th placeholder has to do: it succeeds exactly if the
indices are `int`s and placeholders of the statement, and then sets the parameters. -/
def BindsFrom (N n : ℕ) (vs : List SqlValue)
    (act : StateM (ℕ → SqlValue) (SqlRDBResult × ℤ)) : Prop :=
  ∀ ps, if n + vs.length < 2 ^ 31 ∧ n + vs.length ≤ N then
      act ps = ((.ok, cInt (n + vs.length + 1 : ℕ)), setValues ps n vs)
    else (act ps).1.1 ≠ .ok

theorem BindsFrom.seq {N n : ℕ} {a b : List SqlValue}
    {act : StateM (ℕ → SqlValue) (SqlRDBResult × ℤ)}
    {act' : ℤ → StateM (ℕ → SqlValue) (SqlRDBResult × ℤ)} (ha : BindsFrom N n a act)
    (hb : n + a.length < 2 ^ 31 → n + a.length ≤ N →
      BindsFrom N (n + a.length) b (act' (cInt (n + a.length + 1 : ℕ)))) :
    BindsFrom N n (a ++ b) (do
      let (r, idx) ← act
      if r ≠ .ok then pure (r, idx) else act' idx) := by
  intro ps
  have haps := ha ps
  rw [List.length_append, ← Nat.add_assoc]
  by_cases hfit : n + a.length < 2 ^ 31 ∧ n + a.length ≤ N
  · rw [if_pos hfit] at haps
    have hbps := hb hfit.1 hfit.2 (setValues ps n a)
    simp only [bind, StateT.bind, haps, ne_eq, not_true_eq_false, if_false]
    rwa [setValues_append] at hbps
  · rw [if_neg hfit] at haps
    rw [if_neg (by omega)]
    simp only [bind, StateT.bind]
    generalize act ps = res at haps ⊢
    obtain ⟨⟨r, idx⟩, ps'⟩ := res
    have hr : r ≠ .ok := haps
    simp only [if_pos hr]
    exact hr

theorem bindCondValues_leaf {bind : ℤ → SqlValue → StateM (ℕ → SqlValue) SqlRDBResult}
    {col : CStr} {op : SqlRDBOp} {v : CondValue} {idx : ℤ} {ps ps' : ℕ → SqlValue}
    {r : SqlRDBResult} (h : bind idx v.toSql ps = (r, ps')) :
    bindCondValues bind (.leaf col op v) idx ps = ((r, cInt (idx + 1)), ps') := by
  simp only [bindCondValues, Bind.bind, StateT.bind, h]
  rfl

theorem bindsFrom_leaf (N : ℕ) {n : ℕ} (hn : n < 2 ^ 31) (col : CStr) (op : SqlRDBOp)
    (v : CondValue) :
    BindsFrom N n [v.toSql] (bindCondValues (bindParam N) (.leaf col op v) (cInt (n + 1 : ℕ))) := by
  intro ps
  rw [List.length_singleton]
  by_cases hlast : n + 1 < 2 ^ 31
  · have hidx : cInt (n + 1 : ℕ) = (n + 1 : ℕ) := cInt_of_lt (by omega) (by omega)
    rw [hidx]
    split_ifs with h
    · have hbind : bindParam N (n + 1 : ℕ) v.toSql ps =
          (.ok, Function.update ps (n + 1) v.toSql) := if_pos (by omega)
      rw [bindCondValues_leaf hbind, setValues_singleton, Nat.cast_succ (n + 1)]
    · have hbind : bindParam N (n + 1 : ℕ) v.toSql ps = (.errDriver, ps) := if_neg (by omega)
      rw [bindCondValues_leaf hbind]
      simp
  · have hidx : cInt (n + 1 : ℕ) = -2 ^ 31 := by
      rw [show ((n + 1 : ℕ) : ℤ) = 2 ^ 31 by omega, cInt_two_pow_31]
    have hbind : bindParam N (-2 ^ 31) v.toSql ps = (.errDriver, ps) := if_neg (by omega)
    rw [if_neg (by omega), hidx, bindCondValues_leaf hbind]
    simp

theorem bindsFrom_all {N n : ℕ} (hn : n < 2 ^ 31) (hN : n ≤ N) :
    BindsFrom N n [] (bindCondValues (bindParam N) .all (cInt (n + 1 : ℕ))) := by
  intro ps
  rw [List.length_nil, if_pos ⟨hn, hN⟩, setValues_nil]
  rfl

/-- **The values of the leaves are bound in order** to the indices from `n + 1` on. -/
theorem bindCondValues_spec {N : ℕ} (c : SqlRDBCondition) {n : ℕ} (hn : n < 2 ^ 31) (hN : n ≤ N) :
    BindsFrom N n c.leafValues (bindCondValues (bindParam N) c (cInt (n + 1 : ℕ))) := by
  induction c generalizing n with
  | all => exact bindsFrom_all hn hN
  | leaf col op v => exact bindsFrom_leaf N hn col op v
  | and l r ihl ihr => exact (ihl hn hN).seq ihr
  | or l r ihl ihr => exact (ihl hn hN).seq ihr

/-- The values that are bound for an optional condition. -/
def condValues (cond : Option SqlRDBCondition) : List SqlValue :=
  (cond.map fun c => c.leafValues).getD []

/-- A condition as the builder is meant for: none, match-all, or a tree of comparisons of columns of
the schema, with the six operators. -/
def CondOk (s : SqlRDBSchema) : Option SqlRDBCondition → Prop
  | none => True
  | some .all => True
  | some c => c.NoAll ∧ c.OpsKnown ∧ ∀ col ∈ c.leafCols, schemaHasColumn s col = true

/-- The three shapes of such a condition. -/
theorem CondOk.cases {s : SqlRDBSchema} {cond : Option SqlRDBCondition} (h : CondOk s cond) :
    cond = none ∨ cond = some .all ∨
      ∃ c, cond = some c ∧ c.NoAll ∧ ∀ col ∈ c.leafCols, schemaHasColumn s col = true := by
  cases cond with
  | none => exact .inl rfl
  | some c =>
    cases c with
    | all => exact .inr (.inl rfl)
    | leaf => exact .inr (.inr ⟨_, rfl, h.1, h.2.2⟩)
    | and => exact .inr (.inr ⟨_, rfl, h.1, h.2.2⟩)
    | or => exact .inr (.inr ⟨_, rfl, h.1, h.2.2⟩)

/-- The bind calls of an operation, before it steps: UPDATE_FIELD binds the BLOB first. -/
def bindQuery {σ : Type} (op : C2SqlQBOp) (bind : ℤ → SqlValue → StateM σ SqlRDBResult)
    (blob : List UInt8) (cond : Option SqlRDBCondition) : StateM σ SqlRDBResult :=
  if op = .updateField then do
    let r ← bind 1 (.blob blob)
    if r ≠ .ok then pure r else bindCond bind cond 2
  else bindCond bind cond 1

theorem bindCond_eq {σ : Type} (bind : ℤ → SqlValue → StateM σ SqlRDBResult)
    (c : SqlRDBCondition) (start : ℤ) (ps : σ) :
    bindCond bind (some c) start ps =
      ((bindCondValues bind c start ps).1.1, (bindCondValues bind c start ps).2) := by
  cases c with
  | all => rfl
  | leaf => rfl
  | and => rfl
  | or => rfl

theorem bindCond_spec (cond : Option SqlRDBCondition) {N k : ℕ} (hk : k ≤ 1)
    (hN : N = k + condLeaves cond) (ps : ℕ → SqlValue) :
    if N < 2 ^ 31 then
      bindCond (bindParam N) cond (k + 1 : ℕ) ps = (.ok, setValues ps k (condValues cond))
    else (bindCond (bindParam N) cond (k + 1 : ℕ) ps).1 ≠ .ok := by
  cases cond with
  | none =>
    rw [show condLeaves none = 0 from rfl] at hN
    rw [if_pos (by omega), show condValues none = [] from rfl, setValues_nil]
    rfl
  | some c =>
    rw [show condLeaves (some c) = c.leafCount from rfl] at hN
    have hspec := bindCondValues_spec (N := N) c (n := k) (by omega) (by omega) ps
    have hidx : cInt (k + 1 : ℕ) = (k + 1 : ℕ) := cInt_of_lt (by omega) (by omega)
    rw [hidx, SqlRDBCondition.length_leafValues] at hspec
    rw [bindCond_eq]
    split_ifs with hlt
    · rw [if_pos (by omega)] at hspec
      rw [hspec]
      rfl
    · rw [if_neg (by omega)] at hspec
      exact hspec

/-! ## Meaning -/

section Meaning

variable (cmp : CmpOp → SqlValue → SqlValue → Option Bool) (row : CStr → SqlValue)

/-- What an optional condition says about a row; no condition selects every row. -/
def condMeaning : Option SqlRDBCondition → Option Bool
  | none => some true
  | some c => c.eval (fun op => cmp op.cmpOp) row

/-- What the WHERE clause of a statement says about a row, given the parameters: it is found in the
tokens and parsed; without one every row is selected. -/
def whereMeaning (ps : ℕ → SqlValue) (text : CStr) : Option (Option Bool) :=
  match whereTokens (number 0 (lex text)) with
  | none => some (some true)
  | some ts => (parse ts).map fun e => e.eval cmp row ps

theorem eval_condExpr {c : SqlRDBCondition} (hc : c.NoAll) {n : ℕ} {ps : ℕ → SqlValue}
    (hps : HoldsFrom ps n c.leafValues) :
    (condExpr c n).eval cmp row ps = c.eval (fun op => cmp op.cmpOp) row := by
  induction c generalizing n with
  | all => cases hc
  | leaf col op v =>
    have h : ps (n + 1) = v.toSql := hps 0 _ rfl
    simp only [condExpr, Expr.eval, Operand.eval, SqlRDBCondition.eval, h]
  | and l r ihl ihr =>
    obtain ⟨hl, hr⟩ := hps.append
    rw [SqlRDBCondition.length_leafValues] at hr
    simp only [condExpr, Expr.eval, SqlRDBCondition.eval, ihl hc.1 hl, ihr hc.2 hr]
  | or l r ihl ihr =>
    obtain ⟨hl, hr⟩ := hps.append
    rw [SqlRDBCondition.length_leafValues] at hr
    simp only [condExpr, Expr.eval, SqlRDBCondition.eval, ihl hc.1 hl, ihr hc.2 hr]

omit cmp row in
/-- The tokens of the clause that is built for a condition. -/
theorem whereTokens_whereText {s : SqlRDBSchema} (hs : s.WellFormed) {d : C2SqlDialect}
    {names : CStr → Prop} {k : ℕ} {head : CStr} (hhead : Pieces names d 0 k head)
    {c : SqlRDBCondition} (hc : c ≠ .all) (hcols : ∀ col ∈ c.leafCols, schemaHasColumn s col = true)
    (hn : k + c.leafCount < 10 ^ 14) :
    whereTokens (number 0 (lex (head ++ whereText d (some c) k))) =
      some (condTokens .postgres c k) := by
  obtain ⟨hw, hbr⟩ := lexes_whereText hs d (some c) (knownCols_iff.2 hcols) hn
  have hclause : whereClauseTokens d (some c) k = .word kwWhere :: condTokens d c k := by
    cases c with
    | all => exact absurd rfl hc
    | leaf => rfl
    | and => rfl
    | or => rfl
  have hlex : lex (head ++ whereText d (some c) k) =
      lex head ++ .word kwWhere :: condTokens d c k := by
    rw [← hclause]
    exact (Lexes.append_break ⟨hhead.closed, rfl⟩ hw hbr).lex_eq
  have hlast : lastNumber 0 (lex head) = k := by
    rw [lastNumber_of_params hhead.params_eq, Nat.zero_add]
  rw [hlex, number_append, hlast, whereTokens_append (isKeyword_number hhead.noWhere 0),
    ← (number_condTokens d c k).1]
  rfl

/-- Without a condition, and for match-all, there is no clause. -/
theorem whereMeaning_head {d : C2SqlDialect} {names : CStr → Prop} {k : ℕ} {head : CStr}
    (hhead : Pieces names d 0 k head) (ps : ℕ → SqlValue) :
    whereMeaning cmp row ps head = some (some true) := by
  rw [whereMeaning, whereTokens_eq_none (isKeyword_number hhead.noWhere 0)]

/-- The clause that is built for a tree of comparisons, with the values bound for it. -/
theorem whereMeaning_of_noAll {s : SqlRDBSchema} (hs : s.WellFormed) {d : C2SqlDialect}
    {names : CStr → Prop} {k : ℕ} {head : CStr} (hhead : Pieces names d 0 k head)
    {c : SqlRDBCondition} (hc : c.NoAll) (hcols : ∀ col ∈ c.leafCols, schemaHasColumn s col = true)
    (hn : k + c.leafCount < 10 ^ 14) {ps : ℕ → SqlValue} (hps : HoldsFrom ps k c.leafValues) :
    whereMeaning cmp row ps (head ++ whereText d (some c) k) =
      some (condMeaning cmp row (some c)) := by
  have hne : c ≠ .all := by
    rintro rfl
    exact hc
  rw [whereMeaning, whereTokens_whereText hs hhead hne hcols hn]
  simp only [parse_condTokens hc, Option.map_some, condMeaning, eval_condExpr cmp row hc hps]

/-- The clause that is built for a condition, with the values bound for it. -/
theorem whereMeaning_eq {s : SqlRDBSchema} (hs : s.WellFormed) {d : C2SqlDialect}
    {names : CStr → Prop} {k : ℕ} {head : CStr} (hhead : Pieces names d 0 k head)
    {cond : Option SqlRDBCondition} (h : CondOk s cond) (hn : k + condLeaves cond < 10 ^ 14)
    {ps : ℕ → SqlValue} (hps : HoldsFrom ps k (condValues cond)) :
    whereMeaning cmp row ps (head ++ whereText d cond k) = some (condMeaning cmp row cond) := by
  rcases h.cases with rfl | rfl | ⟨c, rfl, hc, hcols⟩
  · simpa [whereText, condMeaning, SqlRDBCondition.eval] using whereMeaning_head cmp row hhead ps
  · simpa [whereText, condMeaning, SqlRDBCondition.eval] using whereMeaning_head cmp row hhead ps
  · exact whereMeaning_of_noAll cmp row hs hhead hc hcols hn hps

end Meaning

/-- An operation that takes a condition is built, and its values are bound if the placeholders can
be counted in an `int`. -/
theorem built_and_bound {spec : SqlRDBQuerySpec} (hs : spec.schema.WellFormed)
    (hop : isCondOp spec.op = true)
    (htarget : isFieldOp spec.op = true →
      ∃ col, spec.targetCol = some col ∧ schemaHasColumn spec.schema col = true)
    (hcols : ∀ col ∈ condCols spec.cond, schemaHasColumn spec.schema col = true)
    (blob : List UInt8) :
    ∃ head k, Pieces (fun _ => True) spec.dialect 0 k head ∧
      internalQbBuild spec =
        .ok (head ++ whereText spec.dialect spec.cond k, k + condLeaves spec.cond) ∧
      ∀ ps, if k + condLeaves spec.cond < 2 ^ 31 then
          ∃ ps', bindQuery spec.op (bindParam (k + condLeaves spec.cond)) blob spec.cond ps =
            (.ok, ps') ∧ HoldsFrom ps' k (condValues spec.cond)
        else
          (bindQuery spec.op (bindParam (k + condLeaves spec.cond)) blob spec.cond ps).1 ≠ .ok := by
  obtain ⟨c, hc, hcol, hcol'⟩ := exists_headCol hs htarget
  have hhead : Pieces (fun _ => True) spec.dialect 0
      (headText spec.op spec.schema spec.dialect c.name).2
      (headText spec.op spec.schema spec.dialect c.name).1 :=
    pieces_headText hs trivial (fun _ _ => trivial) spec.op trivial
      (quote_not_mem (hs.col_valid c hc))
  refine ⟨_, _, hhead,
    by rw [internalQbBuild_eq hop hcol, hcol', knownCols_iff.2 hcols]; rfl, fun ps => ?_⟩
  generalize hk : (headText spec.op spec.schema spec.dialect c.name).2 = k
  have hk1 : k ≤ 1 := by
    rw [← hk]
    cases spec.op <;> simp [headText]
  -- the parameters before the condition's values are bound
  obtain ⟨ps', hps'⟩ : ∃ ps', bindQuery spec.op (bindParam (k + condLeaves spec.cond)) blob
      spec.cond ps = bindCond (bindParam (k + condLeaves spec.cond)) spec.cond (k + 1 : ℕ) ps' := by
    by_cases hup : spec.op = .updateField
    · obtain rfl : k = 1 := by rw [← hk, hup]; rfl
      have hbind : bindParam (1 + condLeaves spec.cond) 1 (.blob blob) ps =
          (.ok, Function.update ps 1 (.blob blob)) := if_pos (by omega)
      refine ⟨Function.update ps 1 (.blob blob), ?_⟩
      rw [bindQuery, if_pos hup]
      simp only [bind, StateT.bind, hbind, ne_eq, not_true_eq_false, if_false]
      rfl
    · obtain rfl : k = 0 := by
        rw [← hk]
        cases hspec : spec.op <;> simp_all [headText]
      exact ⟨ps, by rw [bindQuery, if_neg hup]; rfl⟩
  have hspec := bindCond_spec spec.cond hk1 rfl ps'
  rw [hps']
  split_ifs at hspec ⊢ with hlt
  · exact ⟨_, hspec, holdsFrom_setValues ps' k _⟩
  · exact hspec

/-- **The WHERE clause preserves the meaning of the condition.** Every operation that takes a
condition is built; binding its values succeeds exactly if the placeholders can be counted in an
`int`; and then the clause, parsed with the precedences of SQL and evaluated with the bound values,
gives every row the truth value that the condition gives it. -/
theorem where_preserves_meaning {spec : SqlRDBQuerySpec} (hs : spec.schema.Accepted)
    (hop : isCondOp spec.op = true)
    (htarget : isFieldOp spec.op = true →
      ∃ col, spec.targetCol = some col ∧ schemaHasColumn spec.schema col = true)
    (hcond : CondOk spec.schema spec.cond) (blob : List UInt8) :
    ∃ text n, internalQbBuild spec = .ok (text, n) ∧ ∀ ps : ℕ → SqlValue,
      ((bindQuery spec.op (bindParam n) blob spec.cond ps).1 = .ok ↔ n < 2 ^ 31) ∧
      ((bindQuery spec.op (bindParam n) blob spec.cond ps).1 = .ok →
        ∀ (cmp : CmpOp → SqlValue → SqlValue → Option Bool) (row : CStr → SqlValue),
          whereMeaning cmp row (bindQuery spec.op (bindParam n) blob spec.cond ps).2 text =
            some (condMeaning cmp row spec.cond)) := by
  have hwf := (SqlRDBSchema.accepted_iff _).1 hs
  have hcols : ∀ col ∈ condCols spec.cond, schemaHasColumn spec.schema col = true := by
    rcases hcond.cases with h | h | ⟨c, h, -, hcols⟩
    · simp [h, condCols]
    · simp [h, condCols, SqlRDBCondition.leafCols]
    · simpa [h, condCols] using hcols
  obtain ⟨head, k, hhead, hbuild, hbind⟩ := built_and_bound hwf hop htarget hcols blob
  refine ⟨_, _, hbuild, fun ps => ?_⟩
  have hps := hbind ps
  split_ifs at hps with hlt
  · obtain ⟨ps', hps, hholds⟩ := hps
    rw [hps]
    exact ⟨⟨fun _ => hlt, fun _ => rfl⟩, fun _ cmp row =>
      whereMeaning_eq cmp row hwf hhead hcond (by omega) hholds⟩
  · exact ⟨⟨fun h => absurd h hps, fun h => absurd h hlt⟩, fun h => absurd h hps⟩

theorem where_preserves_meaning_sample :
    CondOk personsSchema (some sampleCond) ∧
      ∃ text n, internalQbBuild (.updateScore sampleCond .postgres) = .ok (text, n) ∧
        ∀ ps : ℕ → SqlValue,
          ((bindQuery .updateField (bindParam n) [1] (some sampleCond) ps).1 = .ok ↔ n < 2 ^ 31) ∧
          ((bindQuery .updateField (bindParam n) [1] (some sampleCond) ps).1 = .ok →
            ∀ (cmp : CmpOp → SqlValue → SqlValue → Option Bool) (row : CStr → SqlValue),
              whereMeaning cmp row (bindQuery .updateField (bindParam n) [1] (some sampleCond) ps).2
                text = some (condMeaning cmp row (some sampleCond))) := by
  have hcond : CondOk personsSchema (some sampleCond) :=
    ⟨⟨trivial, trivial⟩, ⟨fun _ h => (nomatch h), fun _ h => (nomatch h)⟩, by decide⟩
  have hmeaning := @where_preserves_meaning (.updateScore sampleCond .postgres)
  exact ⟨hcond, hmeaning personsSchema_accepted rfl (fun _ => ⟨_, rfl, by decide⟩) hcond [1]⟩

/-! ## Match-all below the root -/

/-- The node is the whole condition, or does not occur in it. -/
def SqlRDBCondition.AllAtRoot (c : SqlRDBCondition) : Prop := c = .all ∨ c.NoAll

/-- A match-all node in a conjunction or a disjunction leaves an operand out. -/
theorem rejected_condTokens {c : SqlRDBCondition} (hc : ¬c.NoAll) (n : ℕ) :
    Rejected (condTokens .postgres c n) := by
  induction c generalizing n with
  | all => exact .inl rfl
  | leaf => exact absurd trivial hc
  | and l r ihl ihr =>
    by_cases hl : l.NoAll
    · exact .right rfl rfl rfl (.inl rfl) (parses_condTokens hl n) (ihr (fun hr => hc ⟨hl, hr⟩) _)
    · exact .left rfl rfl (.inl rfl) (ihl hl n)
  | or l r ihl ihr =>
    by_cases hl : l.NoAll
    · exact .right rfl rfl rfl (.inr rfl) (parses_condTokens hl n) (ihr (fun hr => hc ⟨hl, hr⟩) _)
    · exact .left rfl rfl (.inr rfl) (ihl hl n)

/-- **Match-all works at the root only.** For every condition over the columns of the schema, the
statement is built, and binding its values succeeds if the placeholders can be counted in an `int`.
Then its WHERE clause is well formed and selects the rows that the condition selects, with match-all
selecting every row, iff match-all is the root of the condition or does not occur in it. -/
theorem match_all_iff {spec : SqlRDBQuerySpec} (hs : spec.schema.Accepted)
    (hop : isCondOp spec.op = true)
    (htarget : isFieldOp spec.op = true →
      ∃ col, spec.targetCol = some col ∧ schemaHasColumn spec.schema col = true)
    {c : SqlRDBCondition} (hcond : spec.cond = some c)
    (hcols : ∀ col ∈ c.leafCols, schemaHasColumn spec.schema col = true) (blob : List UInt8) :
    ∃ text n, internalQbBuild spec = .ok (text, n) ∧ ∀ ps : ℕ → SqlValue,
      ((bindQuery spec.op (bindParam n) blob (some c) ps).1 = .ok ↔ n < 2 ^ 31) ∧
      ((bindQuery spec.op (bindParam n) blob (some c) ps).1 = .ok →
        ((∀ (cmp : CmpOp → SqlValue → SqlValue → Option Bool) (row : CStr → SqlValue),
          whereMeaning cmp row (bindQuery spec.op (bindParam n) blob (some c) ps).2 text =
            some (condMeaning cmp row (some c))) ↔ c.AllAtRoot)) := by
  have hwf := (SqlRDBSchema.accepted_iff _).1 hs
  obtain ⟨head, k, hhead, hbuild, hbind⟩ := built_and_bound hwf hop htarget
    (by simpa [hcond, condCols] using hcols) blob
  rw [hcond] at hbuild hbind
  refine ⟨_, _, hbuild, fun ps => ?_⟩
  have hps := hbind ps
  split_ifs at hps with hlt
  · obtain ⟨ps', hps, hholds⟩ := hps
    rw [hps]
    refine ⟨⟨fun _ => hlt, fun _ => rfl⟩, fun _ => ⟨fun hmeaning => ?_, fun hroot cmp row => ?_⟩⟩
    · by_contra hroot
      have hne : c ≠ .all := fun h => hroot (.inl h)
      have hparse := parse_of_rejected (rejected_condTokens (fun h => hroot (.inr h)) k)
      have hnone : whereMeaning (fun _ _ _ => none) (fun _ => .null) ps'
          (head ++ whereText spec.dialect (some c) k) = none := by
        rw [whereMeaning, whereTokens_whereText hwf hhead hne hcols
          (lt_trans hlt (by decide))]
        simp only [hparse, Option.map_none]
      rw [hmeaning] at hnone
      cases hnone
    · rcases hroot with rfl | hc
      · simpa [whereText, condMeaning, SqlRDBCondition.eval] using
          whereMeaning_head cmp row hhead ps'
      · exact whereMeaning_of_noAll cmp row hwf hhead hc hcols (lt_trans hlt (by decide)) hholds
  · exact ⟨⟨fun h => absurd h hps, fun h => absurd h hlt⟩, fun h => absurd h hps⟩

/-- The condition `id = 7 AND name != 'x'` or match-all. -/
theorem match_all_sample :
    let c : SqlRDBCondition := .or sampleCond .all
    ¬c.AllAtRoot ∧ ∃ text n, internalQbBuild (.updateScore c .postgres) = .ok (text, n) ∧
      ∀ ps : ℕ → SqlValue,
        ((bindQuery .updateField (bindParam n) [1] (some c) ps).1 = .ok ↔ n < 2 ^ 31) ∧
        ((bindQuery .updateField (bindParam n) [1] (some c) ps).1 = .ok →
          ((∀ (cmp : CmpOp → SqlValue → SqlValue → Option Bool) (row : CStr → SqlValue),
            whereMeaning cmp row (bindQuery .updateField (bindParam n) [1] (some c) ps).2 text =
              some (condMeaning cmp row (some c))) ↔ c.AllAtRoot)) := by
  intro c
  have hnot : ¬c.AllAtRoot := by
    simp [c, SqlRDBCondition.AllAtRoot, SqlRDBCondition.NoAll]
  refine ⟨hnot, @match_all_iff (.updateScore c .postgres) personsSchema_accepted rfl
    (fun _ => ⟨_, rfl, by decide⟩) c rfl (by decide) [1]⟩

/-- `SqlRDBCondAnd(SqlRDBCondAll(), id = 7)`: the condition means `id = 7`, and the statement, which
is built, cannot be parsed. -/
theorem and_all_malformed :
    let c : SqlRDBCondition := .leaf (lit "id") .eq (.int 7)
    let text := lit "SELECT COUNT(*) FROM \"persons\" WHERE ( AND \"id\" = ?)"
    internalQbBuild { op := .count, schema := personsSchema, cond := some (.and .all c),
                      dialect := .sqlite } = .ok (text, 1) ∧
      ∀ (cmp : CmpOp → SqlValue → SqlValue → Option Bool) (row : CStr → SqlValue),
        condMeaning cmp row (some (.and .all c)) = condMeaning cmp row (some c) ∧
          ∀ ps, whereMeaning cmp row ps text = none := by
  refine ⟨by decide +kernel, fun cmp row => ⟨?_, fun ps => ?_⟩⟩
  · simp only [condMeaning, SqlRDBCondition.eval]
    generalize cmp _ (row _) _ = v
    revert v
    decide
  have hparse : (whereTokens (number 0 (lex
      (lit "SELECT COUNT(*) FROM \"persons\" WHERE ( AND \"id\" = ?)")))).map parse =
        some none := by
    decide +kernel
  obtain ⟨ts, hts, hnone⟩ := Option.map_eq_some_iff.1 hparse
  rw [whereMeaning, hts]
  simp only [hnone, Option.map_none]

end C2Sql
