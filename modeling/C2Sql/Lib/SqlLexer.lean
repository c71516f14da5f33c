import Mathlib.Data.Nat.Digits.Lemmas
import Mathlib.Tactic.IntervalCases
import Mathlib.Tactic.Ring

/-!
# A lexer for SQL text

A byte-at-a-time lexer for the part of SQL that program-generated statements use: double-quoted
identifiers and single-quoted literals (a doubled quote stands for one), bare words, the
placeholders `?` and `$n`, comparison operators of one and two bytes, and single-byte symbols.
Comments are not part of it.

The lexer is a state machine with output, so the tokens of a text are read off piece by piece:

* `lex_append`: where the second piece does not continue the last token of the first one
  (`LexState.Breaks`), the tokens of a text are those of its pieces;
* `run_quote`, `lex_quoted`, `run_dollar_decimal`, `lex_dollar_decimal`: the two pieces that are
  not fixed texts, quoted names and numbered placeholders;
* `number_append`: numbering the placeholders of a text piece by piece.
-/

namespace SqlText

/-- The code of an ASCII character. -/
def byte (c : Char) : UInt8 := UInt8.ofNat c.toNat

/-- White space between tokens. -/
def isSpace (c : UInt8) : Bool := c == 32 || (9 ≤ c && c ≤ 13)

/-- A decimal digit. -/
def isDigit (c : UInt8) : Bool := byte '0' ≤ c && c ≤ byte '9'

/-- A byte of a bare word: a letter, a digit or an underscore. -/
def isWord (c : UInt8) : Bool :=
  (byte 'A' ≤ c && c ≤ byte 'Z') || (byte 'a' ≤ c && c ≤ byte 'z') || isDigit c || c == byte '_'

/-- Tokens. -/
inductive Token
  /-- A double-quoted identifier, without its quotes. -/
  | ident (s : List UInt8)
  /-- A bare word or number. -/
  | word (s : List UInt8)
  /-- A single-quoted literal, without its quotes. -/
  | str (s : List UInt8)
  /-- A placeholder: `?`, or `$n` with its number. -/
  | param (n : Option ℕ)
  /-- Any other symbol; two bytes for `<=`, `>=`, `!=`, `<>` and `==`. -/
  | sym (s : List UInt8)
  deriving DecidableEq, Repr

/-- The states of the lexer. The bytes of a token being read are kept in reverse. -/
inductive LexState
  | start
  | word (acc : List UInt8)
  | quote (acc : List UInt8)
  /-- A quote was read inside a quoted identifier: its end, or the first half of a doubled one. -/
  | quoteEnd (acc : List UInt8)
  | str (acc : List UInt8)
  | strEnd (acc : List UInt8)
  | dollar (v : Option ℕ)
  /-- A symbol that may be the first of two. -/
  | sym (c : UInt8)
  deriving DecidableEq, Repr

/-- The token that ends when the text does, or when its next byte does not belong to it. -/
def LexState.flush : LexState → List Token
  | .start => []
  | .word acc => [.word acc.reverse]
  | .quote _ => [.sym [byte '"']]
  | .quoteEnd acc => [.ident acc.reverse]
  | .str _ => [.sym [byte '\'']]
  | .strEnd acc => [.str acc.reverse]
  | .dollar none => [.sym [byte '$']]
  | .dollar (some v) => [.param (some v)]
  | .sym c => [.sym [c]]

/-- The first byte of a token. -/
def begin (c : UInt8) : List Token × LexState :=
  if isSpace c then ([], .start)
  else if isWord c then ([], .word [c])
  else if c = byte '"' then ([], .quote [])
  else if c = byte '\'' then ([], .str [])
  else if c = byte '?' then ([.param none], .start)
  else if c = byte '$' then ([], .dollar none)
  else if c = byte '<' ∨ c = byte '>' ∨ c = byte '!' ∨ c = byte '=' then ([], .sym c)
  else ([.sym [c]], .start)

/-- The token in progress ends, and `c` starts the next one. -/
def LexState.next (st : LexState) (c : UInt8) : List Token × LexState :=
  (st.flush ++ (begin c).1, (begin c).2)

/-- One byte of input: the tokens that it completes, and the next state. -/
def step (st : LexState) (c : UInt8) : List Token × LexState :=
  match st with
  | .start => begin c
  | .word acc => if isWord c then ([], .word (c :: acc)) else st.next c
  | .quote acc => if c = byte '"' then ([], .quoteEnd acc) else ([], .quote (c :: acc))
  | .quoteEnd acc => if c = byte '"' then ([], .quote (c :: acc)) else st.next c
  | .str acc => if c = byte '\'' then ([], .strEnd acc) else ([], .str (c :: acc))
  | .strEnd acc => if c = byte '\'' then ([], .str (c :: acc)) else st.next c
  | .dollar v =>
    if isDigit c then ([], .dollar (some (10 * v.getD 0 + (c.toNat - 48)))) else st.next c
  | .sym p =>
    if c = byte '=' ∨ (p = byte '<' ∧ c = byte '>') then ([.sym [p, c]], .start) else st.next c

/-- The tokens that a piece of text completes, and the state it leads to. -/
def run (st : LexState) : List UInt8 → List Token × LexState
  | [] => ([], st)
  | c :: cs => ((step st c).1 ++ (run (step st c).2 cs).1, (run (step st c).2 cs).2)

/-- The tokens of a text read from the state `st` to its end. -/
def lexFrom (st : LexState) (text : List UInt8) : List Token :=
  (run st text).1 ++ (run st text).2.flush

/-- The tokens of a text. -/
def lex (text : List UInt8) : List Token := lexFrom .start text

theorem run_append (st : LexState) (a b : List UInt8) :
    run st (a ++ b) =
      ((run st a).1 ++ (run (run st a).2 b).1, (run (run st a).2 b).2) := by
  induction a generalizing st with
  | nil => simp [run]
  | cons c a ih => simp only [List.cons_append, run, ih, List.append_assoc]

/-- A text is lexed piece by piece. -/
theorem lexFrom_append (st : LexState) (a b : List UInt8) :
    lexFrom st (a ++ b) = (run st a).1 ++ lexFrom (run st a).2 b := by
  simp only [lexFrom, run_append, List.append_assoc]

theorem lexFrom_cons (st : LexState) (c : UInt8) (cs : List UInt8) :
    lexFrom st (c :: cs) = (step st c).1 ++ lexFrom (step st c).2 cs := by
  simp only [lexFrom, run, List.append_assoc]

theorem lexFrom_nil (st : LexState) : lexFrom st [] = st.flush := by simp [lexFrom, run]

/-! ## Cutting a text between tokens -/

/-- The text `b` does not continue the token that is being read. -/
def LexState.Breaks (st : LexState) (b : List UInt8) : Prop :=
  ∀ c ∈ b.head?, step st c = st.next c

theorem LexState.Breaks.start (b : List UInt8) : LexState.start.Breaks b := fun _ _ => rfl

theorem LexState.Breaks.nil (st : LexState) : st.Breaks [] := by
  intro c hc
  cases hc

theorem run_of_breaks {st : LexState} {b : List UInt8} (h : st.Breaks b) (hb : b ≠ []) :
    run st b = (st.flush ++ (run .start b).1, (run .start b).2) := by
  obtain ⟨c, cs, rfl⟩ := List.exists_cons_of_ne_nil hb
  have hc : step st c = (st.flush ++ (begin c).1, (begin c).2) := h c rfl
  have h0 : step .start c = begin c := rfl
  simp only [run, hc, h0, List.append_assoc]

/-- The state after a text. -/
def endState (text : List UInt8) : LexState := (run .start text).2

theorem endState_append {a b : List UInt8} (h : (endState a).Breaks b) (hb : b ≠ []) :
    endState (a ++ b) = endState b := by
  rw [endState, run_append, show (run .start a).2 = endState a from rfl, run_of_breaks h hb]
  rfl

/-- A text that does not continue the token in progress is lexed on its own. -/
theorem lexFrom_of_breaks {st : LexState} {b : List UInt8} (h : st.Breaks b) :
    lexFrom st b = st.flush ++ lex b := by
  by_cases hb : b = []
  · subst hb
    simp [lexFrom, run, lex, LexState.flush]
  · simp only [lex, lexFrom, run_of_breaks h hb, List.append_assoc]

/-- The tokens of two pieces with a break between them. -/
theorem lex_append {a b : List UInt8} (h : (endState a).Breaks b) :
    lex (a ++ b) = lex a ++ lex b := by
  rw [lex, lexFrom_append, show (run .start a).2 = endState a from rfl, lexFrom_of_breaks h,
    ← List.append_assoc]
  rfl

/-- States outside quotes. -/
def LexState.closed : LexState → Bool
  | .quote _ => false
  | .str _ => false
  | _ => true

/-- White space, parentheses and commas end any token outside quotes. -/
def isBreak (c : UInt8) : Bool :=
  c == byte ' ' || c == byte '(' || c == byte ')' || c == byte ','

/-- The text is empty or begins with one of those. -/
def startsBreak : List UInt8 → Bool
  | [] => true
  | c :: _ => isBreak c

theorem LexState.closed.breaks {st : LexState} {b : List UInt8} (h : st.closed = true)
    (hb : startsBreak b = true) : st.Breaks b := by
  intro c hc
  obtain ⟨cs, rfl⟩ := List.head?_eq_some_iff.1 hc
  have hcs : c = byte ' ' ∨ c = byte '(' ∨ c = byte ')' ∨ c = byte ',' := by
    simpa [startsBreak, isBreak, or_assoc] using hb
  cases st with
  | quote => cases h
  | str => cases h
  | start => rfl
  | word => rcases hcs with rfl | rfl | rfl | rfl <;> rfl
  | quoteEnd => rcases hcs with rfl | rfl | rfl | rfl <;> rfl
  | strEnd => rcases hcs with rfl | rfl | rfl | rfl <;> rfl
  | dollar => rcases hcs with rfl | rfl | rfl | rfl <;> rfl
  | sym p => rcases hcs with rfl | rfl | rfl | rfl <;> simp [step, byte]

/-- The text ends outside quotes, and its tokens are `ts`. -/
structure Lexes (text : List UInt8) (ts : List Token) : Prop where
  closed : (endState text).closed = true
  lex_eq : lex text = ts

namespace Lexes

variable {a b : List UInt8} {ts us : List Token}

theorem nil : Lexes [] [] := ⟨rfl, rfl⟩

theorem append (ha : Lexes a ts) (hb : Lexes b us) (h : (endState a).Breaks b) :
    Lexes (a ++ b) (ts ++ us) := by
  refine ⟨?_, by rw [lex_append h, ha.lex_eq, hb.lex_eq]⟩
  by_cases hn : b = []
  · subst hn
    simpa using ha.closed
  · rw [endState_append h hn]
    exact hb.closed

/-- A piece that begins with white space, a parenthesis or a comma. -/
theorem append_break (ha : Lexes a ts) (hb : Lexes b us) (h : startsBreak b = true) :
    Lexes (a ++ b) (ts ++ us) :=
  ha.append hb (LexState.closed.breaks ha.closed h)

/-- Any piece after a complete token. -/
theorem append_start (ha : Lexes a ts) (hs : endState a = .start) (hb : Lexes b us) :
    Lexes (a ++ b) (ts ++ us) :=
  ha.append hb (hs ▸ LexState.Breaks.start b)

/-- Two pieces around a separator. -/
theorem sep {text : List UInt8} {vs : List Token} (ha : Lexes a ts) (ht : Lexes text us)
    (hbr : startsBreak text = true) (hne : text ≠ []) (hst : endState text = .start)
    (hb : Lexes b vs) : Lexes (a ++ text ++ b) (ts ++ us ++ vs) := by
  refine (ha.append_break ht hbr).append_start ?_ hb
  rw [endState_append (LexState.closed.breaks ha.closed hbr) hne, hst]

end Lexes

/-! ## Quoted names -/

/-- Inside a quoted identifier every byte but the quote belongs to it. -/
theorem run_quote {s : List UInt8} (hs : byte '"' ∉ s) (acc : List UInt8) :
    run (.quote acc) s = ([], .quote (s.reverse ++ acc)) := by
  induction s generalizing acc with
  | nil => simp [run]
  | cons c s ih =>
    have hc : c ≠ byte '"' := fun h => hs (by simp [h])
    simp only [run, step, if_neg hc, ih fun h => hs (List.mem_cons_of_mem _ h)]
    simp

theorem run_quoted {s : List UInt8} (hs : byte '"' ∉ s) :
    run .start (byte '"' :: s ++ [byte '"']) = ([], .quoteEnd s.reverse) := by
  have h0 : run .start (byte '"' :: s) = ([], .quote s.reverse) := by
    rw [run, show step .start (byte '"') = ([], .quote []) from rfl, run_quote hs]
    simp
  rw [run_append, h0]
  rfl

theorem endState_quoted {s : List UInt8} (hs : byte '"' ∉ s) :
    endState (byte '"' :: s ++ [byte '"']) = .quoteEnd s.reverse := by
  rw [endState, run_quoted hs]

/-- A quoted name without quotes in it is one token. -/
theorem lex_quoted {s : List UInt8} (hs : byte '"' ∉ s) :
    lex (byte '"' :: s ++ [byte '"']) = [.ident s] := by
  rw [lex, lexFrom, run_quoted hs]
  simp [LexState.flush]

theorem lexes_quoted {s : List UInt8} (hs : byte '"' ∉ s) :
    Lexes (byte '"' :: s ++ [byte '"']) [.ident s] :=
  ⟨by rw [endState_quoted hs]; rfl, lex_quoted hs⟩

/-! ## Decimal numbers -/

/-- The bytes of a decimal number without leading zeros. -/
def decimalBytes (n : ℕ) : List UInt8 :=
  if n = 0 then [48] else (Nat.digits 10 n).reverse.map fun k => UInt8.ofNat (48 + k)

theorem isDigit_ofNat {k : ℕ} (hk : k < 10) : isDigit (UInt8.ofNat (48 + k)) = true := by
  interval_cases k <;> decide

theorem toNat_ofNat_digit {k : ℕ} (hk : k < 10) : (UInt8.ofNat (48 + k)).toNat - 48 = k := by
  interval_cases k <;> decide

theorem isDigit_of_mem_decimalBytes {n : ℕ} {c : UInt8} (hc : c ∈ decimalBytes n) :
    isDigit c = true := by
  rw [decimalBytes] at hc
  split_ifs at hc with hn
  · rw [List.mem_singleton.1 hc]
    decide
  · obtain ⟨k, hk, rfl⟩ := List.mem_map.1 hc
    exact isDigit_ofNat (Nat.digits_lt_base (by omega) (List.mem_reverse.1 hk))

/-- The lexer reads a list of digits, most significant first, by Horner's rule. -/
theorem run_dollar_digits {ds : List ℕ} (hds : ∀ k ∈ ds, k < 10) (v : ℕ) :
    run (.dollar (some v)) (ds.reverse.map fun k => UInt8.ofNat (48 + k)) =
      ([], .dollar (some (v * 10 ^ ds.length + Nat.ofDigits 10 ds))) := by
  induction ds generalizing v with
  | nil => simp [run]
  | cons k ds ih =>
    have hk : k < 10 := hds k (by simp)
    simp only [List.reverse_cons, List.map_append, List.map_cons, List.map_nil]
    rw [run_append, ih fun k hk => hds k (by simp [hk])]
    simp only [run, step, isDigit_ofNat hk, if_true, toNat_ofNat_digit hk, Option.getD_some,
      List.append_nil, Nat.ofDigits_cons, List.length_cons, pow_succ]
    congr 3
    ring

/-- After the dollar sign the lexer reads the number of the placeholder. -/
theorem run_dollar_decimal (n : ℕ) :
    run (.dollar none) (decimalBytes n) = ([], .dollar (some n)) := by
  by_cases hn : n = 0
  · subst hn
    decide
  · have hds : ∀ k ∈ Nat.digits 10 n, k < 10 := fun k hk => Nat.digits_lt_base (by omega) hk
    have h := run_dollar_digits hds 0
    rw [zero_mul, zero_add, Nat.ofDigits_digits] at h
    -- before its first digit the machine behaves as with the value zero
    have h0 : ∀ ds : List UInt8, ds ≠ [] →
        (∀ c ∈ ds, isDigit c = true) → run (.dollar none) ds = run (.dollar (some 0)) ds := by
      intro ds hne hd
      obtain ⟨c, cs, rfl⟩ := List.exists_cons_of_ne_nil hne
      simp [run, step, hd c (by simp)]
    have hdigits : ∀ c ∈ decimalBytes n, isDigit c = true := fun c hc =>
      isDigit_of_mem_decimalBytes hc
    rw [decimalBytes, if_neg hn] at hdigits ⊢
    rw [h0 _ (by simpa using Nat.digits_ne_nil_iff_ne_zero.2 hn) hdigits, h]

theorem run_numbered (n : ℕ) :
    run .start (byte '$' :: decimalBytes n) = ([], .dollar (some n)) := by
  rw [run, show step .start (byte '$') = ([], .dollar none) from rfl, run_dollar_decimal]
  rfl

/-- A numbered placeholder is one token. -/
theorem lex_dollar_decimal (n : ℕ) : lex (byte '$' :: decimalBytes n) = [.param (some n)] := by
  rw [lex, lexFrom, run_numbered]
  rfl

theorem lexes_dollar_decimal (n : ℕ) : Lexes (byte '$' :: decimalBytes n) [.param (some n)] :=
  ⟨by rw [endState, run_numbered]; rfl, lex_dollar_decimal n⟩

theorem length_decimalBytes_le {n k : ℕ} (hk : 0 < k) (h : n < 10 ^ k) :
    (decimalBytes n).length ≤ k := by
  rw [decimalBytes]
  split_ifs with hn
  · exact hk
  · rw [List.length_map, List.length_reverse]
    exact (Nat.digits_length_le_iff (by omega) n).2 h

/-! ## Placeholders -/

/-- The placeholders of a token list, in order. -/
def params (ts : List Token) : List (Option ℕ) :=
  ts.filterMap fun
    | .param n => some n
    | _ => none

/-- The quoted identifiers of a token list, in order. -/
def idents (ts : List Token) : List (List UInt8) :=
  ts.filterMap fun
    | .ident s => some s
    | _ => none

@[simp]
theorem params_append (a b : List Token) : params (a ++ b) = params a ++ params b :=
  List.filterMap_append

/-- Number the placeholders: a `?` is one greater than the greatest number so far. -/
def number : ℕ → List Token → List Token
  | _, [] => []
  | m, .param none :: ts => .param (some (m + 1)) :: number (m + 1) ts
  | m, .param (some n) :: ts => .param (some n) :: number (max m n) ts
  | m, t :: ts => t :: number m ts

/-- The greatest number after numbering the placeholders. -/
def lastNumber : ℕ → List Token → ℕ
  | m, [] => m
  | m, .param none :: ts => lastNumber (m + 1) ts
  | m, .param (some n) :: ts => lastNumber (max m n) ts
  | m, _ :: ts => lastNumber m ts

theorem number_append (m : ℕ) (a b : List Token) :
    number m (a ++ b) = number m a ++ number (lastNumber m a) b := by
  induction a generalizing m with
  | nil => rfl
  | cons t a ih =>
    rcases t with s | s | s | n | s
    case param => cases n <;> simp [number, lastNumber, ih]
    all_goals simp [number, lastNumber, ih]

/-- The greatest number after one more placeholder. -/
def nextNumber (m : ℕ) : Option ℕ → ℕ
  | none => m + 1
  | some n => max m n

theorem lastNumber_eq_foldl (m : ℕ) (ts : List Token) :
    lastNumber m ts = (params ts).foldl nextNumber m := by
  induction ts generalizing m with
  | nil => rfl
  | cons t ts ih =>
    rcases t with s | s | s | n | s
    case param => cases n <;> exact ih _
    all_goals exact ih _

theorem lastNumber_append (m : ℕ) (a b : List Token) :
    lastNumber m (a ++ b) = lastNumber (lastNumber m a) b := by
  induction a generalizing m with
  | nil => rfl
  | cons t a ih =>
    rcases t with s | s | s | n | s
    case param => cases n <;> exact ih _
    all_goals exact ih _

/-- Tokens without placeholders are not changed. -/
theorem number_of_params {ts : List Token} (h : params ts = []) (m : ℕ) :
    number m ts = ts ∧ lastNumber m ts = m := by
  induction ts generalizing m with
  | nil => exact ⟨rfl, rfl⟩
  | cons t ts ih =>
    rcases t with s | s | s | n | s
    case param => simp [params] at h
    all_goals
      obtain ⟨hn, hl⟩ := ih (by simpa [params] using h) m
      exact ⟨congrArg (List.cons _) hn, hl⟩

end SqlText
