import C2Sql.QueryText

/-!
# Generated statements are safe and counted right

* `pgCountParams_eq`: on a text whose quoted parts have no dollar sign, the scanner of the
  PostgreSQL driver finds the greatest placeholder that a SQL lexer finds.
* `internalQbBuild_safe`: the quoted names of a generated statement are names of its schema, its
  placeholders are numbered from one in textual order, and the driver counts as many.
-/

namespace C2Sql

open SqlText

/-! ## The scanner of the PostgreSQL driver -/

/-- The greatest number of a placeholder. -/
def paramMax : ℤ → List Token → ℤ
  | m, [] => m
  | m, .param (some n) :: ts => paramMax (if (n : ℤ) > m then n else m) ts
  | m, _ :: ts => paramMax m ts

/-- A token that is no numbered placeholder. -/
def Token.unnumbered : Token → Bool
  | .param (some _) => false
  | _ => true

theorem paramMax_append (m : ℤ) (a b : List Token) :
    paramMax m (a ++ b) = paramMax (paramMax m a) b := by
  induction a generalizing m with
  | nil => rfl
  | cons t a ih =>
    rcases t with s | s | s | n | s
    case param => cases n <;> exact ih _
    all_goals exact ih _

theorem paramMax_unnumbered {ts : List Token} (h : ∀ t ∈ ts, Token.unnumbered t = true) (m : ℤ) :
    paramMax m ts = m := by
  induction ts with
  | nil => rfl
  | cons t ts ih =>
    have ht := h t (by simp)
    have := ih fun t' ht' => h t' (by simp [ht'])
    rcases t with s | s | s | n | s
    case param =>
      cases n with
      | none => exact this
      | some n => cases ht
    all_goals exact this

/-- States in which no placeholder is being read. -/
def idle : LexState → Bool
  | .dollar _ => false
  | _ => true

theorem idle_flush {st : LexState} (h : idle st = true) :
    ∀ t ∈ st.flush, Token.unnumbered t = true := by
  cases st <;> simp_all [idle, LexState.flush, Token.unnumbered]

theorem begin_of_ne {c : UInt8} (hc : c ≠ byte '$') :
    idle (begin c).2 = true ∧ ∀ t ∈ (begin c).1, Token.unnumbered t = true := by
  unfold begin
  split_ifs <;> simp [idle, Token.unnumbered]

/-- Away from a dollar sign the lexer stays outside placeholders. -/
theorem step_of_ne {st : LexState} {c : UInt8} (h : idle st = true) (hc : c ≠ byte '$') :
    idle (step st c).2 = true ∧ ∀ t ∈ (step st c).1, Token.unnumbered t = true := by
  obtain ⟨hb₂, hb₁⟩ := begin_of_ne hc
  have hnext : idle (st.next c).2 = true ∧ ∀ t ∈ (st.next c).1, Token.unnumbered t = true :=
    ⟨hb₂, List.forall_mem_append.2 ⟨idle_flush h, hb₁⟩⟩
  cases st with
  | start => exact ⟨hb₂, hb₁⟩
  | dollar => cases h
  | word acc =>
    rw [step]
    split_ifs
    · exact ⟨rfl, by simp⟩
    · exact hnext
  | quote acc =>
    rw [step]
    split_ifs <;> exact ⟨rfl, by simp⟩
  | quoteEnd acc =>
    rw [step]
    split_ifs
    · exact ⟨rfl, by simp⟩
    · exact hnext
  | str acc =>
    rw [step]
    split_ifs <;> exact ⟨rfl, by simp⟩
  | strEnd acc =>
    rw [step]
    split_ifs
    · exact ⟨rfl, by simp⟩
    · exact hnext
  | sym p =>
    rw [step]
    split_ifs
    · exact ⟨rfl, by simp [Token.unnumbered]⟩
    · exact hnext

/-- The digits after a dollar sign: both machines read the same number, as long as it is an
`int`. -/
theorem pgDigits_run (cs : CStr) (v : ℕ) :
    ∃ ds rest n, cs = ds ++ rest ∧ (LexState.dollar (some n)).Breaks rest ∧
      run (.dollar (some v)) ds = ([], .dollar (some n)) ∧ v ≤ n ∧ rest.length ≤ cs.length ∧
      (n < 2 ^ 31 → pgDigits v cs = (↑n, rest)) := by
  induction cs generalizing v with
  | nil =>
    exact ⟨[], [], v, rfl, LexState.Breaks.nil _, rfl, le_rfl, le_rfl, fun _ => rfl⟩
  | cons c cs ih =>
    by_cases hc : isdigit c = true
    · obtain ⟨ds, rest, n, rfl, hbr, hrun, hle, hlen, heq⟩ := ih (10 * v + (c.toNat - 48))
      refine ⟨c :: ds, rest, n, rfl, hbr, ?_, by omega, by simp only [List.length_cons]; omega, ?_⟩
      · have hd : isDigit c = true := hc
        rw [run, step, if_pos hd]
        simp only [Option.getD_some, hrun, List.nil_append]
      · intro hn
        have hint : cInt (v * 10 + (c.toNat - 48 : ℕ)) = ((10 * v + (c.toNat - 48) : ℕ) : ℤ) := by
          rw [cInt_of_lt (by omega) (by omega)]
          push_cast
          ring
        rw [pgDigits, if_pos hc, hint]
        exact heq hn
    · refine ⟨[], c :: cs, v, rfl, ?_, rfl, le_rfl, le_rfl, fun _ => ?_⟩
      · intro b hb
        cases hb
        have hd : isDigit c = false := Bool.eq_false_iff.2 hc
        simp [step, hd]
      · rw [pgDigits, if_neg hc]

section Scanner

variable {names : CStr → Prop}

/-- A single quote leads to a token that no generated statement has. -/
theorem str_not_named (text acc : List UInt8) :
    (¬∀ t ∈ lexFrom (.str acc) text, Named names t) ∧
      ¬∀ t ∈ lexFrom (.strEnd acc) text, Named names t := by
  induction text generalizing acc with
  | nil => simp [lexFrom_nil, LexState.flush, Named]
  | cons c cs ih =>
    constructor
    · intro h
      rw [lexFrom_cons, step] at h
      split_ifs at h with hc
      · exact (ih acc).2 h
      · exact (ih (c :: acc)).1 h
    · intro h
      rw [lexFrom_cons, step] at h
      split_ifs at h with hc
      · exact (ih (c :: acc)).1 h
      · exact h (.str acc.reverse) (by simp [LexState.next, LexState.flush])

/-- So does a dollar sign inside double quotes, when no name has one. -/
theorem quote_dollar_not_named (hnames : ∀ x, names x → byte '$' ∉ x) (text : List UInt8)
    {acc : List UInt8} (hacc : byte '$' ∈ acc) :
    (¬∀ t ∈ lexFrom (.quote acc) text, Named names t) ∧
      ¬∀ t ∈ lexFrom (.quoteEnd acc) text, Named names t := by
  have hident : ¬Named names (.ident acc.reverse) := fun h => hnames _ h (by simpa using hacc)
  induction text generalizing acc with
  | nil =>
    refine ⟨by simp [lexFrom_nil, LexState.flush, Named], fun h => hident (h _ ?_)⟩
    simp [lexFrom_nil, LexState.flush]
  | cons c cs ih =>
    have hcons : ¬Named names (.ident (c :: acc).reverse) :=
      fun h => hnames _ h (by simp [hacc])
    constructor
    · intro h
      rw [lexFrom_cons, step] at h
      split_ifs at h with hc
      · exact (ih hacc hident).2 h
      · exact (ih (by simp [hacc]) hcons).1 h
    · intro h
      rw [lexFrom_cons, step] at h
      split_ifs at h with hc
      · exact (ih (by simp [hacc]) hcons).1 h
      · exact hident (h _ (by simp [LexState.next, LexState.flush]))

/-- A dollar sign outside quotes starts a placeholder. -/
theorem step_dollar (hnames : ∀ x, names x → byte '$' ∉ x) {st : LexState} {cs : List UInt8}
    (h : idle st = true) (hnamed : ∀ t ∈ lexFrom st (byte '$' :: cs), Named names t) :
    step st (byte '$') = (st.flush, .dollar none) := by
  have hnext : ∀ st : LexState, st.next (byte '$') = (st.flush, .dollar none) := by
    intro st
    simp [LexState.next, show begin (byte '$') = ([], .dollar none) from rfl]
  cases st with
  | dollar => cases h
  | str acc => exact absurd hnamed (str_not_named _ acc).1
  | quote acc =>
    rw [lexFrom_cons, show step (.quote acc) (byte '$') = ([], .quote (byte '$' :: acc)) from rfl]
      at hnamed
    exact absurd hnamed (quote_dollar_not_named hnames cs (by simp)).1
  | start => rfl
  | word acc => exact hnext (.word acc)
  | quoteEnd acc => exact hnext (.quoteEnd acc)
  | strEnd acc => exact hnext (.strEnd acc)
  | sym p =>
    rw [step, if_neg (by simp [byte])]
    exact hnext (.sym p)

/-- The loop of `pg_count_params` follows the lexer. -/
theorem pgCountFrom_eq (hnames : ∀ x, names x → byte '$' ∉ x) {k : ℕ} {text : CStr}
    {st : LexState} {m : ℤ} (hk : text.length ≤ k) (hst : idle st = true)
    (hnamed : ∀ t ∈ lexFrom st text, Named names t)
    (hint : ∀ n, .param (some n) ∈ lexFrom st text → n < 2 ^ 31) :
    pgCountFrom k m text = paramMax m (lexFrom st text) := by
  induction k generalizing text st m with
  | zero =>
    obtain rfl : text = [] := List.length_eq_zero_iff.1 (by omega)
    rw [lexFrom_nil, paramMax_unnumbered (idle_flush hst)]
    rfl
  | succ k ih =>
    cases text with
    | nil =>
      rw [lexFrom_nil, paramMax_unnumbered (idle_flush hst)]
      rfl
    | cons c cs =>
      have hk' : cs.length ≤ k := by simpa using hk
      by_cases hc : c = byte '$'
      · subst hc
        have hstep := step_dollar hnames hst hnamed
        rw [lexFrom_cons, hstep] at hnamed hint ⊢
        rw [paramMax_append, paramMax_unnumbered (idle_flush hst)]
        have hnamed' := (List.forall_mem_append.1 hnamed).2
        have hint' : ∀ n, .param (some n) ∈ lexFrom (.dollar none) cs → n < 2 ^ 31 :=
          fun n hn => hint n (List.mem_append_right _ hn)
        by_cases hd : (cs.head?.map isdigit).getD false = true
        · -- a number follows: both machines read it, and go on after it
          have hzero : lexFrom (.dollar none) cs = lexFrom (.dollar (some 0)) cs := by
            cases cs with
            | nil => simp at hd
            | cons c' cs' =>
              have hc' : isDigit c' = true := hd
              simp [lexFrom_cons, step, hc']
          obtain ⟨ds, rest, n, hcs, hbr, hrun, -, hlen, heq⟩ := pgDigits_run cs 0
          have hlex : lexFrom (.dollar none) cs = .param (some n) :: lex rest := by
            rw [hzero, hcs, lexFrom_append, hrun, lexFrom_of_breaks hbr]
            rfl
          rw [hlex] at hnamed' hint' ⊢
          have hn : n < 2 ^ 31 := hint' n (by simp)
          have hdig : pgDigits 0 cs = (↑n, rest) := heq hn
          rw [pgCountFrom, if_pos ⟨rfl, hd⟩, hdig]
          exact ih (by omega) rfl (fun t ht => hnamed' t (List.mem_cons_of_mem _ ht))
            (fun j hj => hint' j (List.mem_cons_of_mem _ hj))
        · have hbr : (LexState.dollar none).Breaks cs := by
            intro b hb
            have hb' : isDigit b = false := by
              cases cs with
              | nil => cases hb
              | cons c' cs' =>
                cases hb
                exact Bool.eq_false_iff.2 hd
            simp [step, hb']
          have hlex : lexFrom (.dollar none) cs = .sym [byte '$'] :: lex cs := by
            rw [lexFrom_of_breaks hbr]
            rfl
          rw [hlex] at hnamed' hint' ⊢
          rw [pgCountFrom, if_neg (fun h => hd h.2)]
          exact ih hk' rfl (fun t ht => hnamed' t (List.mem_cons_of_mem _ ht))
            (fun j hj => hint' j (List.mem_cons_of_mem _ hj))
      · obtain ⟨hidle, hun⟩ := step_of_ne hst hc
        rw [lexFrom_cons] at hnamed hint ⊢
        rw [pgCountFrom, if_neg (fun h => hc h.1), paramMax_append, paramMax_unnumbered hun]
        exact ih hk' hidle (List.forall_mem_append.1 hnamed).2
          (fun n hn => hint n (List.mem_append_right _ hn))

/-- **The driver's scanner agrees with the lexer.** -/
theorem pgCountParams_eq (hnames : ∀ x, names x → byte '$' ∉ x) {text : CStr}
    (hnamed : ∀ t ∈ lex text, Named names t)
    (hint : ∀ n, .param (some n) ∈ lex text → n < 2 ^ 31) :
    pgCountParams text = paramMax 0 (lex text) :=
  pgCountFrom_eq hnames le_rfl rfl hnamed hint

end Scanner

/-- The greater of a number and a placeholder's. -/
def maxNumber (m : ℤ) : Option ℕ → ℤ
  | some n => if (n : ℤ) > m then n else m
  | none => m

theorem paramMax_eq_foldl (m : ℤ) (ts : List Token) :
    paramMax m ts = (params ts).foldl maxNumber m := by
  induction ts generalizing m with
  | nil => rfl
  | cons t ts ih =>
    rcases t with s | s | s | n | s
    case param => cases n <;> exact ih _
    all_goals exact ih _

theorem foldl_maxNumber_range' (k a : ℕ) :
    ((List.range' (a + 1) k).map some).foldl maxNumber (a : ℤ) = (a + k : ℕ) := by
  induction k generalizing a with
  | zero => rfl
  | succ k ih =>
    have hmax : maxNumber a (some (a + 1)) = ((a + 1 : ℕ) : ℤ) := if_pos (by omega)
    rw [List.range'_succ, List.map_cons, List.foldl_cons, hmax, ih (a + 1), Nat.add_assoc,
      Nat.add_comm 1 k]

/-- The greatest of the placeholders `$1`, .., `$n` is the last one. -/
theorem paramMax_placeholders {ts : List Token} {n : ℕ}
    (h : params ts = placeholders .postgres 0 n) : paramMax 0 ts = n := by
  rw [paramMax_eq_foldl, h]
  exact (foldl_maxNumber_range' n 0).trans (by rw [Nat.zero_add])

theorem pgDigits_lt (v : ℤ) (cs : CStr) (hv : v < 2 ^ 31) : (pgDigits v cs).1 < 2 ^ 31 := by
  induction cs generalizing v with
  | nil => exact hv
  | cons c cs ih =>
    rw [pgDigits]
    split_ifs
    · exact ih _ (Int.bmod_lt (by omega))
    · exact hv

theorem pgCountFrom_lt (k : ℕ) (m : ℤ) (cs : CStr) (hm : m < 2 ^ 31) :
    pgCountFrom k m cs < 2 ^ 31 := by
  induction k generalizing m cs with
  | zero => exact hm
  | succ k ih =>
    cases cs with
    | nil => exact hm
    | cons c cs =>
      rw [pgCountFrom]
      split_ifs with hc
      · have := pgDigits_lt 0 cs (by omega)
        refine ih _ _ ?_
        split_ifs
        · exact this
        · exact hm
      · exact ih _ _ hm

/-- The driver's count is an `int`. -/
theorem pgCountParams_lt (sql : CStr) : pgCountParams sql < 2 ^ 31 :=
  pgCountFrom_lt _ _ _ (by omega)

/-! ## Built statements -/

/-- The double-quoted tokens of a text are among `names` and its placeholders are the first `n`. -/
structure Built (names : CStr → Prop) (d : C2SqlDialect) (n : ℕ) (text : CStr) : Prop where
  named : ∀ t ∈ lex text, Named names t
  params_eq : params (lex text) = placeholders d 0 n

theorem Pieces.built {names : CStr → Prop} {d : C2SqlDialect} {n : ℕ} {text : CStr}
    (h : Pieces names d 0 n text) : Built names d n text :=
  ⟨h.named, h.params_eq⟩

namespace Built

variable {names : CStr → Prop} {d : C2SqlDialect} {n : ℕ} {text : CStr}

theorem where_ {s : SqlRDBSchema} (hs : s.WellFormed) (hcols : ∀ c ∈ s.cols, names c.name)
    (hp : Pieces names d 0 n text) {cond : Option SqlRDBCondition}
    (hknown : knownCols s (condCols cond) = true) (hn : n + condLeaves cond < 10 ^ 14) :
    Built names d (n + condLeaves cond) (text ++ whereText d cond n) := by
  obtain ⟨hw, hbr⟩ := lexes_whereText hs d _ hknown hn
  have hl : lex (text ++ whereText d cond n) = lex text ++ whereClauseTokens d cond n :=
    (Lexes.append_break ⟨hp.closed, rfl⟩ hw hbr).lex_eq
  have hnames : ∀ col ∈ condCols cond, names col := by
    intro col hcol
    obtain ⟨c, hc, rfl⟩ := schemaHasColumn_iff.1 (knownCols_iff.1 hknown col hcol)
    exact hcols c hc
  have htree : ∀ c : SqlRDBCondition, (∀ col ∈ c.leafCols, names col) →
      (∀ t ∈ Token.word kwWhere :: condTokens d c n, Named names t) ∧
        params (Token.word kwWhere :: condTokens d c n) = placeholders d n c.leafCount := by
    intro c hc
    refine ⟨?_, params_condTokens d c n⟩
    intro t ht
    rcases List.mem_cons.1 ht with rfl | ht
    · trivial
    · exact named_condTokens d hc n t ht
  have htail : (∀ t ∈ whereClauseTokens d cond n, Named names t) ∧
      params (whereClauseTokens d cond n) = placeholders d n (condLeaves cond) := by
    cases cond with
    | none => exact ⟨by simp [whereClauseTokens], rfl⟩
    | some c =>
      cases c with
      | all => exact ⟨by simp [whereClauseTokens], rfl⟩
      | leaf => exact htree _ hnames
      | and => exact htree _ hnames
      | or => exact htree _ hnames
  refine ⟨?_, ?_⟩
  · rw [hl]
    exact List.forall_mem_append.2 ⟨hp.named, htail.1⟩
  · have h := placeholders_append d 0 n (condLeaves cond)
    rw [Nat.zero_add] at h
    rw [hl, params_append, hp.params_eq, htail.2, h]

theorem idents_mem (h : Built names d n text) {x : CStr} (hx : x ∈ idents (lex text)) :
    names x := by
  obtain ⟨t, ht, htx⟩ := List.mem_filterMap.1 hx
  have hnamed := h.named t ht
  cases t with
  | ident y =>
    cases htx
    exact hnamed
  | word => cases htx
  | str => cases htx
  | param => cases htx
  | sym => cases htx

theorem length_params (h : Built names d n text) : (params (lex text)).length = n := by
  simp [h.params_eq, placeholders]

/-- The PostgreSQL driver counts the placeholders of a built statement right. -/
theorem pgCountParams_eq (h : Built names .postgres n text)
    (hnames : ∀ x, names x → byte '$' ∉ x) (hn : n < 2 ^ 31) : pgCountParams text = n := by
  rw [C2Sql.pgCountParams_eq hnames h.named, paramMax_placeholders h.params_eq]
  intro k hk
  have hmem : some k ∈ params (lex text) := List.mem_filterMap.2 ⟨_, hk, rfl⟩
  rw [h.params_eq, placeholders, List.mem_map] at hmem
  obtain ⟨j, hj, hjk⟩ := hmem
  obtain rfl : j = k := by simpa [placeholderNumber] using hjk
  rw [List.mem_range'_1] at hj
  omega

end Built

/-! ## Queries -/

namespace SqlRDBQuerySpec

/-- The names that the text of a query may quote: the table, the columns of its schema, and the new
column of an ALTER statement. -/
def Quotable (spec : SqlRDBQuerySpec) (x : CStr) : Prop :=
  x = spec.schema.name ∨ (∃ c ∈ spec.schema.cols, c.name = x) ∨
    (spec.op = .alterAdd ∧ ∃ c, spec.newCol = some c ∧ c.name = x)

/-- A condition-taking operation names a leaf column, or a field operation a target column, that the
schema does not have. -/
def NamesUnknown (spec : SqlRDBQuerySpec) : Prop :=
  (isCondOp spec.op = true ∧
      ∃ col ∈ condCols spec.cond, schemaHasColumn spec.schema col = false) ∨
    (isFieldOp spec.op = true ∧
      ∃ col, spec.targetCol = some col ∧ schemaHasColumn spec.schema col = false)

/-- What the callers of the query builder guarantee. -/
structure Admissible (spec : SqlRDBQuerySpec) : Prop where
  accepted : spec.schema.Accepted
  upsert_pk : spec.op = .upsert → spec.schema.pkIndex.isSome = true
  target : isFieldOp spec.op = true → spec.targetCol.isSome = true
  newCol : spec.op = .alterAdd →
    ∃ s : SqlRDBSchema, s.Accepted ∧ ∃ c ∈ s.cols, spec.newCol = some c
  leaves : condLeaves spec.cond < 2 ^ 31

/-- The text of a query is safe, and its placeholders are counted right. -/
structure SafeAndCounted (spec : SqlRDBQuerySpec) : Prop where
  unknown_iff : internalQbBuild spec = .error .errUnknownColumn ↔ spec.NamesUnknown
  built : ¬spec.NamesUnknown → ∃ text n, internalQbBuild spec = .ok (text, n) ∧
    (∀ x ∈ idents (lex text), spec.Quotable x) ∧ (params (lex text)).length = n ∧
    (spec.dialect = .postgres →
      params (lex text) = (List.range' 1 n).map some ∧ pgCountParams text = n)
  value_free : ∀ cond : Option SqlRDBCondition,
    cond.map SqlRDBCondition.eraseValues = spec.cond.map SqlRDBCondition.eraseValues →
      internalQbBuild { spec with cond := cond } = internalQbBuild spec

variable {spec : SqlRDBQuerySpec}

theorem Admissible.dollar_not_mem (h : spec.Admissible) {x : CStr} (hx : spec.Quotable x) :
    byte '$' ∉ x := by
  have hs := (SqlRDBSchema.accepted_iff _).1 h.accepted
  rcases hx with rfl | ⟨c, hc, rfl⟩ | ⟨hop, c, hc, rfl⟩
  · exact not_mem_of_identifierValid hs.name_valid rfl
  · exact not_mem_of_identifierValid (hs.col_valid c hc) rfl
  · obtain ⟨s, hacc, c', hc', hnew⟩ := h.newCol hop
    rw [hnew, Option.some.injEq] at hc
    subst hc
    exact not_mem_of_identifierValid (((SqlRDBSchema.accepted_iff _).1 hacc).col_valid c' hc') rfl

/-- An unknown column is an error. -/
theorem Admissible.build_eq_error (h : spec.Admissible) (hunk : spec.NamesUnknown) :
    internalQbBuild spec = .error .errUnknownColumn := by
  have hop : isCondOp spec.op = true := by
    rcases hunk with ⟨hop, -⟩ | ⟨hf, -⟩
    · exact hop
    · cases hspec : spec.op <;> simp_all [isFieldOp, isCondOp]
  have htarget : isFieldOp spec.op = true → spec.targetCol = some (spec.targetCol.getD []) := by
    intro hf
    obtain ⟨col, hcol⟩ := Option.isSome_iff_exists.1 (h.target hf)
    simp [hcol]
  rw [internalQbBuild_eq hop htarget, if_neg]
  rw [Bool.and_eq_true, Bool.or_eq_true, knownCols_iff, not_and]
  intro hf hknown
  rcases hunk with ⟨-, col, hcol, hun⟩ | ⟨hfield, col, hcol, hun⟩
  · rw [hknown col hcol] at hun
    cases hun
  · simp [hfield, hcol, hun] at hf

/-- A condition-taking operation without unknown columns is built. -/
theorem Admissible.built_cond (h : spec.Admissible) (hop : isCondOp spec.op = true)
    (hk : ¬spec.NamesUnknown) :
    ∃ text, internalQbBuild spec = .ok (text,
        (headText spec.op spec.schema spec.dialect []).2 + condLeaves spec.cond) ∧
      Built spec.Quotable spec.dialect
        ((headText spec.op spec.schema spec.dialect []).2 + condLeaves spec.cond) text := by
  have hs := (SqlRDBSchema.accepted_iff _).1 h.accepted
  have hknown : knownCols spec.schema (condCols spec.cond) = true := by
    rw [knownCols_iff]
    intro col hcol
    by_contra hneg
    exact hk (.inl ⟨hop, col, hcol, by simpa using hneg⟩)
  obtain ⟨c, hc, htarget, hcol⟩ := exists_headCol hs fun hf => by
    obtain ⟨col, hcol⟩ := Option.isSome_iff_exists.1 (h.target hf)
    refine ⟨col, hcol, ?_⟩
    by_contra hneg
    exact hk (.inr ⟨hf, col, hcol, by simpa using hneg⟩)
  have hhead : Pieces spec.Quotable spec.dialect 0
      (headText spec.op spec.schema spec.dialect c.name).2
      (headText spec.op spec.schema spec.dialect c.name).1 :=
    pieces_headText hs (.inl rfl) (fun c hc => .inr (.inl ⟨c, hc, rfl⟩)) spec.op
      (.inr (.inl ⟨c, hc, rfl⟩)) (quote_not_mem (hs.col_valid c hc))
  have hcount : (headText spec.op spec.schema spec.dialect c.name).2 =
      (headText spec.op spec.schema spec.dialect []).2 := by
    cases spec.op <;> rfl
  have hle : (headText spec.op spec.schema spec.dialect []).2 ≤ 1 := by
    cases spec.op <;> simp [headText]
  have hleaves := h.leaves
  rw [internalQbBuild_eq hop htarget, hcol, hknown]
  rw [hcount] at hhead ⊢
  exact ⟨_, rfl, Built.where_ hs (fun c hc => .inr (.inl ⟨c, hc, rfl⟩)) hhead hknown (by omega)⟩

/-- The other operations are built from the schema alone. -/
theorem Admissible.built_schema (h : spec.Admissible) (hop : isCondOp spec.op = false) :
    ∃ text n, internalQbBuild spec = .ok (text, n) ∧ n ≤ maxColumns ∧
      Built spec.Quotable spec.dialect n text := by
  have hs := (SqlRDBSchema.accepted_iff _).1 h.accepted
  have hname : spec.Quotable spec.schema.name := .inl rfl
  have hcols : ∀ c ∈ spec.schema.cols, spec.Quotable c.name := fun c hc => .inr (.inl ⟨c, hc, rfl⟩)
  have hlen := hs.length_le
  have hmax : maxColumns = 64 := rfl
  cases hspec : spec.op with
  | create =>
    refine ⟨buildCreate spec.schema spec.dialect, 0, by simp [internalQbBuild, hspec], by omega, ?_⟩
    exact (pieces_buildCreate hs hname hcols).built
  | insert =>
    refine ⟨(buildInsert spec.schema spec.dialect 0).1, spec.schema.cols.length, ?_, hlen,
      (pieces_buildInsert hs hname hcols (by omega)).built⟩
    simp [internalQbBuild, hspec, buildInsert]
  | upsert =>
    refine ⟨(buildUpsert spec.schema spec.dialect 0).1, spec.schema.cols.length, ?_, hlen,
      (pieces_buildUpsert hs hname hcols (h.upsert_pk hspec) (by omega)).built⟩
    simp [internalQbBuild, hspec, buildUpsert, buildInsert]
  | alterAdd =>
    obtain ⟨s, hacc, c, hc, hnew⟩ := h.newCol hspec
    refine ⟨buildAlterAdd spec.schema spec.dialect c, 0, by simp [internalQbBuild, hspec, hnew],
      by omega, ?_⟩
    exact (pieces_buildAlterAdd hs hname (.inr (.inr ⟨hspec, c, hnew, rfl⟩))
      (((SqlRDBSchema.accepted_iff _).1 hacc).col_valid c hc)).built
  | select => simp [hspec, isCondOp] at hop
  | count => simp [hspec, isCondOp] at hop
  | delete => simp [hspec, isCondOp] at hop
  | updateField => simp [hspec, isCondOp] at hop
  | selectField => simp [hspec, isCondOp] at hop

/-- The text of a query does not depend on the values in its condition. -/
theorem internalQbBuild_eraseValues (spec : SqlRDBQuerySpec) :
    internalQbBuild { spec with cond := spec.cond.map SqlRDBCondition.eraseValues } =
      internalQbBuild spec := by
  obtain ⟨op, schema, cond, newCol, target, dialect⟩ := spec
  cases op <;> simp only [internalQbBuild, buildSelect, buildCount, buildDelete, buildUpdateField,
    buildSelectField, appendWhere_eraseValues]

/-- **Generated statements are safe and counted right.** -/
theorem internalQbBuild_safe (h : spec.Admissible)
    (hint : spec.op = .updateField → spec.dialect = .postgres →
      condLeaves spec.cond + 1 < 2 ^ 31) : spec.SafeAndCounted := by
  have hmax : maxColumns = 64 := rfl
  have hleaves := h.leaves
  have hbuilt : ¬spec.NamesUnknown → ∃ text n, internalQbBuild spec = .ok (text, n) ∧
      (spec.dialect = .postgres → n < 2 ^ 31) ∧ Built spec.Quotable spec.dialect n text := by
    intro hk
    by_cases hop : isCondOp spec.op = true
    · obtain ⟨text, hok, hb⟩ := h.built_cond hop hk
      refine ⟨text, _, hok, fun hd => ?_, hb⟩
      by_cases hup : spec.op = .updateField
      · have := hint hup hd
        simp only [hup, headText]
        omega
      · have : (headText spec.op spec.schema spec.dialect []).2 = 0 := by
          cases hspec : spec.op <;> simp_all [headText]
        omega
    · obtain ⟨text, n, hok, hn, hb⟩ := h.built_schema (by simpa using hop)
      exact ⟨text, n, hok, fun _ => by omega, hb⟩
  refine ⟨⟨fun herr => ?_, fun hunk => ?_⟩, fun hk => ?_, fun cond hcond => ?_⟩
  · by_contra hk
    obtain ⟨text, n, hok, -⟩ := hbuilt hk
    rw [hok] at herr
    cases herr
  · exact h.build_eq_error hunk
  · obtain ⟨text, n, hok, hn, hb⟩ := hbuilt hk
    refine ⟨text, n, hok, fun x hx => hb.idents_mem hx, hb.length_params, fun hd => ?_⟩
    rw [hd] at hb
    exact ⟨hb.params_eq, hb.pgCountParams_eq (fun x hx => h.dollar_not_mem hx) (hn hd)⟩
  · rw [← internalQbBuild_eraseValues spec, ← hcond,
      ← internalQbBuild_eraseValues { spec with cond := cond }]

theorem updateScore_admissible (cond : SqlRDBCondition) (dialect : C2SqlDialect)
    (h : cond.leafCount < 2 ^ 31) : (updateScore cond dialect).Admissible where
  accepted := personsSchema_accepted
  upsert_pk := by simp [updateScore]
  target := by simp [updateScore]
  newCol := by simp [updateScore]
  leaves := h

theorem updateScore_not_namesUnknown {cond : SqlRDBCondition} (dialect : C2SqlDialect)
    (h : ∀ col ∈ cond.leafCols, schemaHasColumn personsSchema col = true) :
    ¬(updateScore cond dialect).NamesUnknown := by
  rintro (⟨-, col, hcol, hun⟩ | ⟨-, col, hcol, hun⟩)
  · rw [show schemaHasColumn (updateScore cond dialect).schema col = true from h col hcol] at hun
    cases hun
  · obtain rfl : lit "score" = col := by simpa [updateScore] using hcol
    have hhas : schemaHasColumn personsSchema (lit "score") = true := by decide
    rw [show schemaHasColumn (updateScore cond dialect).schema (lit "score") = true from hhas]
      at hun
    cases hun

theorem internalQbBuild_safe_sample :
    (updateScore sampleCond .postgres).Admissible ∧
      ¬(updateScore sampleCond .postgres).NamesUnknown ∧
      (updateScore sampleCond .postgres).SafeAndCounted := by
  have hadm := updateScore_admissible sampleCond .postgres (by decide)
  exact ⟨hadm, updateScore_not_namesUnknown _ (by decide),
    internalQbBuild_safe hadm fun _ _ => by decide⟩

/-- The full binary conjunction of depth `k` over one column. -/
def fullTree : ℕ → SqlRDBCondition
  | 0 => .leaf (lit "id") .eq (.int 0)
  | k + 1 => .and (fullTree k) (fullTree k)

/-- Full trees of the depths `k`, .., `0` in a row. -/
def ladder : ℕ → SqlRDBCondition
  | 0 => fullTree 0
  | k + 1 => .and (fullTree (k + 1)) (ladder k)

theorem leafCount_fullTree (k : ℕ) : (fullTree k).leafCount = 2 ^ k := by
  induction k with
  | zero => rfl
  | succ k ih =>
    rw [fullTree, SqlRDBCondition.leafCount, ih, pow_succ]
    omega

theorem leafCount_ladder (k : ℕ) : (ladder k).leafCount + 1 = 2 ^ (k + 1) := by
  induction k with
  | zero => rfl
  | succ k ih =>
    rw [ladder, SqlRDBCondition.leafCount, leafCount_fullTree, Nat.add_assoc, ih]
    ring

theorem leafCols_fullTree (k : ℕ) : ∀ col ∈ (fullTree k).leafCols, col = lit "id" := by
  induction k with
  | zero => simp [fullTree, SqlRDBCondition.leafCols]
  | succ k ih =>
    rw [fullTree, SqlRDBCondition.leafCols]
    exact List.forall_mem_append.2 ⟨ih, ih⟩

theorem leafCols_ladder (k : ℕ) : ∀ col ∈ (ladder k).leafCols, col = lit "id" := by
  induction k with
  | zero => exact leafCols_fullTree 0
  | succ k ih =>
    rw [ladder, SqlRDBCondition.leafCols]
    exact List.forall_mem_append.2 ⟨leafCols_fullTree (k + 1), ih⟩

/-- An UPDATE whose condition has `2 ^ 31 - 1` leaves has one placeholder more than an `int` can
count. -/
theorem not_safeAndCounted_ladder :
    (updateScore (ladder 30) .postgres).Admissible ∧
      ¬(updateScore (ladder 30) .postgres).SafeAndCounted := by
  have hcount : (ladder 30).leafCount + 1 = 2 ^ 31 := leafCount_ladder 30
  have hadm := updateScore_admissible (ladder 30) .postgres (by omega)
  refine ⟨hadm, fun hsafe => ?_⟩
  have hk : ¬(updateScore (ladder 30) .postgres).NamesUnknown := by
    refine updateScore_not_namesUnknown _ fun col hcol => ?_
    rw [leafCols_ladder 30 col hcol]
    decide
  obtain ⟨text, n, hok, -, -, hpg⟩ := hsafe.built hk
  obtain ⟨text', hok', -⟩ := hadm.built_cond rfl hk
  have hn : n = 1 + (ladder 30).leafCount := by
    rw [hok'] at hok
    cases hok
    rfl
  have hcnt := (hpg rfl).2
  have hlt := pgCountParams_lt text
  omega

end SqlRDBQuerySpec

end C2Sql
