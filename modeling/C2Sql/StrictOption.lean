import C2Sql.Migration
import C2Sql.Lib.SqlLexer

/-!
# The STRICT option of a stored table

The scan of `check_strict` over the text of a CREATE TABLE statement, against the grammar of what
can follow the column list. The scan knows spaces, tabs, newlines and commas between words of
letters, digits and underscores. At any other byte its loop goes round without moving.

* `strictRun`: rounds of the loop; `scanStrict_iff`: the model's scan ends as some number of rounds
  does;
* `scans_iff`: what the scan finds, in terms of the words of the text;
* `TailText`: the texts that can follow the column list, with or without the option;
* `strict_scan_iff`: the texts on which the scan is right.
-/

namespace C2Sql

open SqlText

/-! ## Rounds of the loop -/

/-- The comparison of the scan: the word STRICT, and no letter or digit behind it. -/
def isStrictWord (q : CStr) : Bool :=
  (q.take 6).map toupper = lit "STRICT" ∧ ((q.drop 6).head?.map isalnum).getD false = false

/-- One round of the loop of `check_strict`: the text from which it goes on, or what it has found.
-/
def strictRound (q : CStr) : CStr ⊕ Bool :=
  if q = [] then .inr false
  else
    let q := q.dropWhile strictSep
    if q.length < 6 then .inr false
    else if isStrictWord q then .inr true
    else .inl (q.dropWhile identByte)

/-- What the loop has found after at most `k` rounds. -/
def strictRun : ℕ → CStr → Option Bool
  | 0, _ => none
  | k + 1, q =>
    match strictRound q with
    | .inr b => some b
    | .inl q => strictRun k q

/-- The loop ends with `b`. -/
def Scans (q : CStr) (b : Bool) : Prop := ∃ k, strictRun k q = some b

theorem scans_of_inr {q : CStr} {b b' : Bool} (h : strictRound q = .inr b') :
    Scans q b ↔ b = b' := by
  constructor
  · rintro ⟨_ | k, hk⟩
    · cases hk
    · rw [strictRun, h] at hk
      exact (Option.some.inj hk).symm
  · rintro rfl
    exact ⟨1, by rw [strictRun, h]⟩

theorem scans_of_inl {q q' : CStr} {b : Bool} (h : strictRound q = .inl q') :
    Scans q b ↔ Scans q' b := by
  constructor
  · rintro ⟨_ | k, hk⟩
    · cases hk
    · rw [strictRun, h] at hk
      exact ⟨k, hk⟩
  · rintro ⟨k, hk⟩
    exact ⟨k + 1, by rw [strictRun, h]; exact hk⟩

theorem scans_congr {q q' : CStr} (h : strictRound q = strictRound q') (b : Bool) :
    Scans q b ↔ Scans q' b := by
  cases hr : strictRound q' with
  | inr b' => rw [scans_of_inr (h.trans hr), scans_of_inr hr]
  | inl p => rw [scans_of_inl (h.trans hr), scans_of_inl hr]

/-- A round that does not move is repeated forever. -/
theorem not_scans_of_stall {q : CStr} (h : strictRound q = .inl q) (b : Bool) : ¬Scans q b := by
  rintro ⟨k, hk⟩
  induction k with
  | zero => cases hk
  | succ k ih =>
    rw [strictRun, h] at hk
    exact ih hk

theorem strictRound_suffix {q q' : CStr} (h : strictRound q = .inl q') : q' <:+ q := by
  unfold strictRound at h
  dsimp only at h
  split_ifs at h
  cases h
  exact (List.dropWhile_suffix _).trans (List.dropWhile_suffix _)

/-- **The scan of the model is the loop**, with as many rounds as it needs. -/
theorem scanStrict_iff {k : ℕ} {q : CStr} (hk : q.length < k) (b : Bool) :
    scanStrict k q = some b ↔ Scans q b := by
  induction k generalizing q with
  | zero => omega
  | succ k ih =>
    have hround : scanStrict (k + 1) q =
        match strictRound q with
        | .inr b => some b
        | .inl q' => if q'.length = q.length then none else scanStrict k q' := by
      have hword : ∀ p : CStr, ((p.take 6).map toupper = lit "STRICT" ∧
          ((p.drop 6).head?.map isalnum).getD false = false) ↔ isStrictWord p = true := fun p =>
        (decide_eq_true_iff ..).symm
      rw [scanStrict, strictRound]
      simp only [hword]
      split_ifs with h0 hshort hstrict hlen
      · rfl
      · rfl
      · rfl
      · exact (if_pos hlen).symm
      · exact (if_neg hlen).symm
    rw [hround]
    cases hr : strictRound q with
    | inr b' =>
      rw [scans_of_inr hr, Option.some.injEq, eq_comm]
    | inl q' =>
      have hsuffix := strictRound_suffix hr
      dsimp only
      split_ifs with hlen
      · obtain rfl := hsuffix.eq_of_length hlen
        simp [not_scans_of_stall hr b]
      · have hle := hsuffix.length_le
        rw [ih (by omega), scans_of_inl hr]

/-! ## What the scan finds -/

/-- A byte that the scan moves over. -/
def scanned (c : UInt8) : Bool := strictSep c || identByte c

/-- The text up to the first byte that the scan does not move over. -/
def scannedPart (q : CStr) : CStr := q.takeWhile scanned

/-- The text from that byte on. -/
def strangePart (q : CStr) : CStr := q.dropWhile scanned

/-- The word STRICT stands between separators. -/
def HasStrictWord (q : CStr) : Prop := ∃ w ∈ q.splitOnP strictSep, isStrictWord w = true

/-- The scan is right about the presence `b` of the option: STRICT is among the words before the
first strange byte if it is present, and otherwise it is not and less than six bytes are left
there. -/
def ScanRight (q : CStr) (b : Bool) : Prop :=
  (HasStrictWord (scannedPart q) ↔ b = true) ∧ (b = false → (strangePart q).length < 6)

theorem isalpha_toupper (c : UInt8) : isalpha (toupper c) = isalpha c := by
  unfold isalpha toupper
  split_ifs <;> grind

theorem identByte_of_strictSep {c : UInt8} (h : strictSep c = true) : identByte c = false := by
  unfold strictSep at h
  simp only [Bool.or_eq_true, beq_iff_eq] at h
  rcases h with ((rfl | rfl) | rfl) | rfl <;> decide

theorem not_hasStrictWord_nil : ¬HasStrictWord [] := by
  rintro ⟨w, hw, hs⟩
  rw [List.splitOnP_nil, List.mem_singleton] at hw
  subst hw
  cases hs

section Separators

variable {c : UInt8} (hc : strictSep c = true) (q : CStr)

include hc

theorem strictRound_sep : strictRound (c :: q) = strictRound q := by
  unfold strictRound
  rw [if_neg (List.cons_ne_nil c q), List.dropWhile_cons_of_pos hc]
  split_ifs with h0
  · subst h0
    rfl
  · rfl

theorem hasStrictWord_sep : HasStrictWord (c :: q) ↔ HasStrictWord q := by
  have hsplit : (c :: q).splitOnP strictSep = [] :: q.splitOnP strictSep :=
    List.splitOnP_append_cons [] q hc
  constructor
  · rintro ⟨w, hw, hs⟩
    rw [hsplit] at hw
    obtain rfl | hw := List.mem_cons.1 hw
    · cases hs
    · exact ⟨w, hw, hs⟩
  · rintro ⟨w, hw, hs⟩
    exact ⟨w, hsplit ▸ List.mem_cons_of_mem _ hw, hs⟩

theorem scanRight_sep (b : Bool) : ScanRight (c :: q) b ↔ ScanRight q b := by
  have hknown : scanned c = true := by rw [scanned, hc, Bool.true_or]
  rw [ScanRight, ScanRight, scannedPart, strangePart, List.takeWhile_cons_of_pos hknown,
    List.dropWhile_cons_of_pos hknown, hasStrictWord_sep hc]
  rfl

end Separators

/-- The bytes of a word, in any case. -/
theorem identByte_of_map_toupper {w word : CStr} (h : w.map toupper = word)
    (hword : ∀ c ∈ word, isalpha c = true) : ∀ c ∈ w, identByte c = true := by
  intro c hc
  have hmem : toupper c ∈ word := h ▸ List.mem_map_of_mem hc
  rw [identByte, isalnum, ← isalpha_toupper, hword _ hmem, Bool.true_or, Bool.true_or]

/-- The letters of STRICT are bytes of a word, in either case. -/
theorem identByte_of_strict {w : CStr} (h : w.map toupper = lit "STRICT") :
    ∀ c ∈ w, identByte c = true :=
  identByte_of_map_toupper h (by decide +kernel)

/-- A text that is shorter is not the word. -/
theorem isStrictWord_of_length_lt {q : CStr} (h : q.length < 6) : isStrictWord q = false := by
  rw [isStrictWord, decide_eq_false_iff_not]
  rintro ⟨hword, -⟩
  have hlen := congrArg List.length hword
  rw [List.length_map, List.length_take] at hlen
  have hsix : (lit "STRICT").length = 6 := rfl
  omega

theorem strictRound_short {q : CStr} (h : q.length < 6) : strictRound q = .inr false := by
  have hle := (List.dropWhile_suffix strictSep (l := q)).length_le
  unfold strictRound
  dsimp only
  rw [if_pos (show (q.dropWhile strictSep).length < 6 by omega)]
  split <;> rfl

section Words

variable {w : CStr} (hne : w ≠ []) (hw : ∀ c ∈ w, identByte c = true) {q : CStr}
  (hq : ∀ c ∈ q.head?, identByte c = false)

include hw hq

omit hw in
/-- The comparison reads no further than the word. -/
theorem isStrictWord_append (hlen : 6 ≤ (w ++ q).length) :
    isStrictWord (w ++ q) = isStrictWord w := by
  by_cases hlong : 6 ≤ w.length
  · have hhead : ((w ++ q).drop 6).head?.map isalnum =
        ((w.drop 6).head?.or q.head?).map isalnum := by
      rw [List.drop_append_of_le_length hlong, List.head?_append]
    rw [isStrictWord, isStrictWord, List.take_append_of_le_length hlong, hhead]
    cases hd : (w.drop 6).head? with
    | some c => rfl
    | none =>
      cases hqh : q.head? with
      | none => rfl
      | some c =>
        have hc := hq c hqh
        rw [identByte, Bool.or_eq_false_iff] at hc
        simp [hc.1]
  · rw [isStrictWord_of_length_lt (not_le.1 hlong), isStrictWord, decide_eq_false_iff_not]
    rintro ⟨hword, -⟩
    -- the sixth letter or an earlier one is the byte behind the word
    obtain ⟨c, rest, rfl⟩ : ∃ c rest, q = c :: rest := by
      cases q with
      | nil =>
        rw [List.append_nil] at hlen
        exact absurd hlen hlong
      | cons c rest => exact ⟨c, rest, rfl⟩
    have hmem : c ∈ (w ++ c :: rest).take 6 := by
      rw [List.take_append, List.mem_append]
      right
      rw [show 6 - w.length = (6 - w.length - 1) + 1 by omega, List.take_succ_cons]
      exact List.mem_cons_self
    have hno := hq c rfl
    rw [identByte_of_strict hword c hmem] at hno
    cases hno

include hne

theorem strictRound_word :
    strictRound (w ++ q) =
      if (w ++ q).length < 6 then .inr false
      else if isStrictWord w then .inr true else .inl q := by
  have hdrop : (w ++ q).dropWhile strictSep = w ++ q := by
    obtain ⟨c, cs, rfl⟩ := List.exists_cons_of_ne_nil hne
    refine List.dropWhile_cons_of_neg fun hc => ?_
    have hword := hw c List.mem_cons_self
    rw [identByte_of_strictSep hc] at hword
    cases hword
  have hrest : (w ++ q).dropWhile identByte = q := by
    rw [List.dropWhile_append_of_pos hw]
    cases q with
    | nil => rfl
    | cons c cs => exact List.dropWhile_cons_of_neg (by simp [hq c rfl])
  unfold strictRound
  rw [if_neg (by simp [hne]), hdrop]
  dsimp only
  by_cases hshort : (w ++ q).length < 6
  · rw [if_pos hshort, if_pos hshort]
  · rw [if_neg hshort, if_neg hshort, isStrictWord_append hq (not_lt.1 hshort), hrest]

omit hne in
theorem hasStrictWord_word :
    HasStrictWord (w ++ scannedPart q) ↔ isStrictWord w = true ∨ HasStrictWord (scannedPart q) := by
  have hnosep : ∀ c ∈ w, strictSep c = false := by
    intro c hc
    by_contra hsep
    have hword := hw c hc
    rw [identByte_of_strictSep (Bool.not_eq_false _ ▸ hsep)] at hword
    cases hword
  -- behind the word there is a separator or nothing
  cases hp : scannedPart q with
  | nil =>
    rw [List.append_nil, or_iff_left not_hasStrictWord_nil, HasStrictWord,
      List.splitOnP_eq_singleton hnosep]
    simp
  | cons c p =>
    have hc : strictSep c = true := by
      rw [scannedPart] at hp
      cases q with
      | nil => cases hp
      | cons d ds =>
        rw [List.takeWhile_cons] at hp
        split_ifs at hp with hknown
        cases hp
        rwa [scanned, hq c rfl, Bool.or_false] at hknown
    rw [hasStrictWord_sep hc, HasStrictWord,
      List.splitOnP_append_cons_of_forall_mem hnosep c hc p]
    simp [HasStrictWord]

omit hne in
theorem scanRight_word (b : Bool) :
    ScanRight (w ++ q) b ↔ if isStrictWord w then b = true else ScanRight q b := by
  have hknown : ∀ c ∈ w, scanned c = true := fun c hc => by rw [scanned, hw c hc, Bool.or_true]
  have hplain : scannedPart (w ++ q) = w ++ scannedPart q := List.takeWhile_append_of_pos hknown
  have hstrange : strangePart (w ++ q) = strangePart q := List.dropWhile_append_of_pos hknown
  rw [ScanRight, hplain, hstrange, hasStrictWord_word hw hq]
  split_ifs with hstrict
  · cases b <;> simp [hstrict]
  · rw [or_iff_right hstrict]
    rfl

end Words

/-- **What the scan finds.** It ends with `b` exactly if it is right about `b`. -/
theorem scans_iff (q : CStr) (b : Bool) : Scans q b ↔ ScanRight q b := by
  -- along the text, a separator or a word at a time
  induction hn : q.length using Nat.strong_induction_on generalizing q with
  | _ n ih =>
  subst hn
  cases q with
  | nil =>
    rw [scans_of_inr (q := []) rfl, ScanRight, scannedPart, List.takeWhile_nil]
    simp [not_hasStrictWord_nil, strangePart]
  | cons c t =>
    by_cases hc : strictSep c = true
    · rw [scans_congr (strictRound_sep hc t), scanRight_sep hc]
      exact ih t.length (by simp) t rfl
    by_cases hid : identByte c = true
    · obtain ⟨w, q, hwq, hne, hw, hq⟩ : ∃ w q, c :: t = w ++ q ∧ w ≠ [] ∧
          (∀ c ∈ w, identByte c = true) ∧ ∀ c ∈ q.head?, identByte c = false := by
        refine ⟨(c :: t).takeWhile identByte, (c :: t).dropWhile identByte,
          List.takeWhile_append_dropWhile.symm, ?_, List.all_eq_true.1 List.all_takeWhile, ?_⟩
        · rw [List.takeWhile_cons_of_pos hid]
          exact List.cons_ne_nil _ _
        · intro d hd
          have hhead := List.head?_dropWhile_not identByte (c :: t)
          rw [hd] at hhead
          exact hhead
      rw [hwq, scanRight_word hw hq]
      have hlt : q.length < (c :: t).length := by
        rw [hwq, List.length_append]
        exact Nat.lt_add_of_pos_left (List.length_pos_iff.2 hne)
      have hround := strictRound_word hne hw hq
      by_cases hshort : (w ++ q).length < 6
      · rw [if_pos hshort] at hround
        rw [List.length_append] at hshort
        rw [scans_of_inr hround, isStrictWord_of_length_lt (by omega), if_neg Bool.false_ne_true,
          ← ih q.length hlt q rfl, scans_of_inr (strictRound_short (q := q) (by omega))]
      · rw [if_neg hshort] at hround
        split_ifs at hround ⊢ with hstrict
        · exact scans_of_inr hround
        · rw [scans_of_inl hround]
          exact ih q.length hlt q rfl
    · have hdrop : (c :: t).dropWhile strictSep = c :: t := List.dropWhile_cons_of_neg hc
      have hstay : (c :: t).dropWhile identByte = c :: t := List.dropWhile_cons_of_neg hid
      have hstrange : scanned c = false := by simp [scanned, hc, hid]
      have hright : ScanRight (c :: t) b ↔ b = false ∧ (c :: t).length < 6 := by
        have hpart : scannedPart (c :: t) = [] := List.takeWhile_cons_of_neg (by simp [hstrange])
        have hrest : strangePart (c :: t) = c :: t :=
          List.dropWhile_cons_of_neg (by simp [hstrange])
        rw [ScanRight, hpart, hrest, iff_false_left not_hasStrictWord_nil, Bool.not_eq_true]
        exact and_congr_right fun hb => ⟨fun h => h hb, fun h _ => h⟩
      rw [hright]
      by_cases hshort : (c :: t).length < 6
      · rw [scans_of_inr (strictRound_short hshort), and_iff_left hshort]
      · -- the loop stays at the strange byte
        have hword : isStrictWord (c :: t) = false :=
          isStrictWord_append (w := []) (q := c :: t)
            (fun d hd => by cases hd; exact Bool.eq_false_iff.2 hid) (not_lt.1 hshort)
        have hstall : strictRound (c :: t) = .inl (c :: t) := by
          rw [strictRound, if_neg (List.cons_ne_nil c t), hdrop]
          dsimp only
          rw [if_neg hshort, hword, if_neg Bool.false_ne_true, hstay]
        exact iff_of_false (not_scans_of_stall hstall b) fun h => hshort h.2

/-! ## What follows the column list -/

/-- White space of SQL. -/
def isSqlSpace (c : UInt8) : Bool := c == 32 || c == 9 || c == 10 || c == 12 || c == 13

/-- White space and comments. -/
inductive Trivia : CStr → Prop
  | nil : Trivia []
  | space {c : UInt8} {s : CStr} : isSqlSpace c = true → Trivia s → Trivia (c :: s)
  | block {body s : CStr} : ¬lit "*/" <:+: body → Trivia s →
      Trivia (lit "/*" ++ body ++ lit "*/" ++ s)
  | line {body s : CStr} : byte '\n' ∉ body → Trivia s → Trivia (lit "--" ++ body ++ lit "\n" ++ s)

/-- A comment that the end of the text closes, or nothing. -/
inductive EndComment : CStr → Prop
  | nil : EndComment []
  | block {body : CStr} : body ≠ [] → ¬lit "*/" <:+: body → EndComment (lit "/*" ++ body)
  | line {body : CStr} : byte '\n' ∉ body → EndComment (lit "--" ++ body)

/-- A table option in any case, and whether it is STRICT. -/
inductive TableOption : Bool → CStr → Prop
  | strict {w : CStr} : w.map toupper = lit "STRICT" → TableOption true w
  | withoutRowid {v s w : CStr} : v.map toupper = lit "WITHOUT" → Trivia s → s ≠ [] →
      w.map toupper = lit "ROWID" → TableOption false (v ++ (s ++ w))

/-- Table options with commas between them, and whether STRICT is among them. -/
inductive OptionList : Bool → CStr → Prop
  | one {b : Bool} {w s : CStr} : TableOption b w → Trivia s → OptionList b (w ++ s)
  | more {b b' : Bool} {w s s' rest : CStr} : TableOption b w → Trivia s → Trivia s' →
      OptionList b' rest → OptionList (b || b') (w ++ (s ++ byte ',' :: (s' ++ rest)))

/-- What can follow the column list of a stored statement, and whether STRICT is among it. -/
inductive TailText : Bool → CStr → Prop
  | bare {s e : CStr} : Trivia s → EndComment e → TailText false (s ++ e)
  | options {b : Bool} {s rest e : CStr} : Trivia s → OptionList b rest → EndComment e →
      TailText b (s ++ (rest ++ e))

/-! ## Plain tails -/

theorem Trivia.strictSep {s : CStr} (h : Trivia s) (hs : ∀ c ∈ s, scanned c = true) :
    ∀ c ∈ s, strictSep c = true := by
  induction h with
  | nil => nofun
  | @space c s hc _ ih =>
    intro d hd
    obtain rfl | hd := List.mem_cons.1 hd
    · have hknown := hs d List.mem_cons_self
      simp only [isSqlSpace, Bool.or_eq_true, beq_iff_eq] at hc
      -- form feed and carriage return are not scanned
      rcases hc with (((rfl | rfl) | rfl) | rfl) | rfl
      · rfl
      · rfl
      · rfl
      · cases hknown
      · cases hknown
    · exact ih (fun d hd => hs d (List.mem_cons_of_mem _ hd)) d hd
  | block => cases hs (byte '/') List.mem_cons_self
  | line => cases hs (byte '-') List.mem_cons_self

theorem EndComment.eq_nil {e : CStr} (h : EndComment e) (he : ∀ c ∈ e, scanned c = true) :
    e = [] := by
  cases h with
  | nil => rfl
  | block => cases he (byte '/') List.mem_cons_self
  | line => cases he (byte '-') List.mem_cons_self

theorem scanRight_nil (b : Bool) : ScanRight [] b ↔ b = false := by
  rw [ScanRight, scannedPart, List.takeWhile_nil, iff_false_left not_hasStrictWord_nil,
    Bool.not_eq_true]
  exact and_iff_left fun _ => show 0 < 6 by norm_num

theorem scanRight_seps {s : CStr} (hs : ∀ c ∈ s, strictSep c = true) (q : CStr) (b : Bool) :
    ScanRight (s ++ q) b ↔ ScanRight q b := by
  induction s with
  | nil => rfl
  | cons c s ih =>
    rw [List.cons_append, scanRight_sep (hs c List.mem_cons_self)]
    exact ih fun d hd => hs d (List.mem_cons_of_mem _ hd)

theorem head_seps {s q : CStr} (hs : ∀ c ∈ s, strictSep c = true)
    (hq : ∀ c ∈ q.head?, identByte c = false) : ∀ c ∈ (s ++ q).head?, identByte c = false := by
  cases s with
  | nil => exact hq
  | cons d s =>
    rintro c ⟨rfl⟩
    exact identByte_of_strictSep (hs _ List.mem_cons_self)

/-- A word that is not STRICT is passed over. -/
theorem scanRight_other {w word q : CStr} (hw : w.map toupper = word)
    (hword : ∀ c ∈ word, isalpha c = true) (hne : word.take 6 ≠ lit "STRICT")
    (hq : ∀ c ∈ q.head?, identByte c = false) (b : Bool) :
    ScanRight (w ++ q) b ↔ ScanRight q b := by
  have hno : isStrictWord w = false := by
    rw [isStrictWord, decide_eq_false_iff_not]
    rintro ⟨hstrict, -⟩
    rw [List.map_take, hw] at hstrict
    exact hne hstrict
  rw [scanRight_word (identByte_of_map_toupper hw hword) hq, hno]
  rfl

theorem TableOption.scanRight {b : Bool} {w : CStr} (h : TableOption b w)
    (hs : ∀ c ∈ w, scanned c = true) {q : CStr} (hq : ∀ c ∈ q.head?, identByte c = false)
    (b' : Bool) : ScanRight (w ++ q) b' ↔ if b then b' = true else ScanRight q b' := by
  cases h with
  | strict hw =>
    have hyes : isStrictWord w = true := by
      have hlen : w.length = 6 := by
        rw [← List.length_map (f := toupper), hw]
        rfl
      rw [isStrictWord, decide_eq_true_iff, List.take_of_length_le hlen.le,
        List.drop_of_length_le hlen.le]
      exact ⟨hw, rfl⟩
    rw [scanRight_word (identByte_of_strict hw) hq, hyes]
  | @withoutRowid v s w hv hsp hne hw =>
    have hsep := hsp.strictSep fun c hc => hs c (by simp [hc])
    have hhead : ∀ c ∈ (s ++ (w ++ q)).head?, identByte c = false := by
      obtain ⟨c, cs, rfl⟩ := List.exists_cons_of_ne_nil hne
      rintro d ⟨rfl⟩
      exact identByte_of_strictSep (hsep _ List.mem_cons_self)
    rw [List.append_assoc, List.append_assoc,
      scanRight_other hv (by decide +kernel) (by decide) hhead, scanRight_seps hsep,
      scanRight_other hw (by decide +kernel) (by decide) hq]
    rfl

theorem OptionList.scanRight {b : Bool} {text : CStr} (h : OptionList b text)
    (hs : ∀ c ∈ text, scanned c = true) (b' : Bool) : ScanRight text b' ↔ b' = b := by
  induction h with
  | @one b w s hopt hsp =>
    have hsep := hsp.strictSep fun c hc => hs c (by simp [hc])
    have hhead : ∀ c ∈ s.head?, identByte c = false := by
      rw [← List.append_nil s]
      exact head_seps hsep nofun
    rw [hopt.scanRight (fun c hc => hs c (by simp [hc])) hhead]
    split_ifs with hb
    · rw [hb]
    · rw [← List.append_nil s, scanRight_seps hsep, scanRight_nil, Bool.eq_false_iff.2 hb]
  | @more b b₁ w s s' rest hopt hsp hsp' _ ih =>
    have hsep := hsp.strictSep fun c hc => hs c (by simp [hc])
    have hsep' := hsp'.strictSep fun c hc => hs c (by simp [hc])
    have hcomma : strictSep (byte ',') = true := rfl
    have hhead : ∀ c ∈ (s ++ byte ',' :: (s' ++ rest)).head?, identByte c = false := by
      refine head_seps hsep ?_
      rintro c ⟨rfl⟩
      rfl
    rw [hopt.scanRight (fun c hc => hs c (by simp [hc])) hhead]
    split_ifs with hb
    · rw [hb, Bool.true_or]
    · rw [scanRight_seps hsep, scanRight_sep hcomma, scanRight_seps hsep',
        ih fun c hc => hs c (by simp [hc]), Bool.eq_false_iff.2 hb, Bool.false_or]

/-- **On a tail of scanned bytes** the scan finds whether STRICT is among the options. -/
theorem TailText.scanRight {b : Bool} {tail : CStr} (h : TailText b tail)
    (hs : ∀ c ∈ tail, scanned c = true) (b' : Bool) : ScanRight tail b' ↔ b' = b := by
  cases h with
  | @bare s e hsp hend =>
    have hsep := hsp.strictSep fun c hc => hs c (by simp [hc])
    rw [hend.eq_nil fun c hc => hs c (by simp [hc]), scanRight_seps hsep, scanRight_nil]
  | @options b s rest e hsp hopts hend =>
    have hsep := hsp.strictSep fun c hc => hs c (by simp [hc])
    rw [hend.eq_nil fun c hc => hs c (by simp [hc]), scanRight_seps hsep, List.append_nil,
      hopts.scanRight fun c hc => hs c (by simp [hc])]

/-! ## The text of a statement -/

/-- What stands behind the last closing parenthesis of a text, or all of it. -/
def afterParen (s : CStr) : CStr := (s.reverse.takeWhile fun c => c ≠ 41).reverse

theorem afterParen_eq_self {s : CStr} (hs : byte ')' ∉ s) : afterParen s = s := by
  have hall : ∀ c ∈ s.reverse, decide (c ≠ 41) = true := by
    intro c hc
    refine decide_eq_true fun h => hs ?_
    rw [← List.mem_reverse, show byte ')' = c from h.symm]
    exact hc
  have htake : (s.reverse ++ []).takeWhile (fun c => decide (c ≠ 41)) = s.reverse ++ [] :=
    List.takeWhile_append_of_pos hall
  rw [List.append_nil] at htake
  rw [afterParen, htake, List.reverse_reverse]

/-- The search for the last parenthesis looks at what follows the column list only. -/
theorem strictOfText_eq (pre tail : CStr) (b : Bool) :
    strictOfText (pre ++ byte ')' :: tail) = some b ↔ Scans (afterParen tail) b := by
  have hafter : afterLastParen (pre ++ byte ')' :: tail) = some (afterParen tail) := by
    have hmem : (pre ++ byte ')' :: tail).contains 41 = true := by
      rw [List.contains_iff_mem]
      exact List.mem_append_right _ List.mem_cons_self
    have hstop : (tail.reverse ++ byte ')' :: pre.reverse).takeWhile (fun c => decide (c ≠ 41)) =
        tail.reverse.takeWhile fun c => decide (c ≠ 41) := by
      have hparen : (byte ')' :: pre.reverse).takeWhile (fun c => decide (c ≠ 41)) = [] := rfl
      rw [List.takeWhile_append, hparen, List.append_nil]
      split_ifs with hall
      · exact ((List.takeWhile_prefix _).eq_of_length hall).symm
      · rfl
    rw [afterLastParen, if_pos hmem, List.reverse_append, List.reverse_cons, List.append_assoc,
      List.singleton_append, hstop]
    rfl
  rw [strictOfText, hafter]
  exact scanStrict_iff (Nat.lt_succ_self _) b

/-- **STRICT detection.** On every text that can be stored, `check_strict` ends and is right exactly
if the scan of what follows the last closing parenthesis finds STRICT before any strange byte, or
there is no STRICT and less than six bytes are left from the first strange byte on. This is so if
only spaces, tabs, newlines and commas separate the options. -/
theorem strict_scan_iff (pre : CStr) {tail : CStr} {b : Bool} (htail : TailText b tail) :
    (strictOfText (pre ++ byte ')' :: tail) = some b ↔ ScanRight (afterParen tail) b) ∧
      ((∀ c ∈ tail, scanned c = true) → ScanRight (afterParen tail) b) := by
  refine ⟨(strictOfText_eq ..).trans (scans_iff ..), fun hs => ?_⟩
  have hparen : byte ')' ∉ tail := by
    intro hmem
    cases hs _ hmem
  rw [afterParen_eq_self hparen]
  exact (htail.scanRight hs _).2 rfl

/-- Both options, with a comma between them. -/
theorem strict_scan_plain :
    strictOfText (lit "CREATE TABLE t(a INT) WITHOUT ROWID,\n\tstrict") = some true ∧
      ScanRight (afterParen (lit " WITHOUT ROWID,\n\tstrict")) true := by
  have hspace : Trivia (lit " ") := .space rfl .nil
  have hlines : Trivia (lit "\n\t") := .space rfl (.space rfl .nil)
  have hrowid : TableOption false (lit "WITHOUT" ++ (lit " " ++ lit "ROWID")) :=
    .withoutRowid rfl hspace (by decide) rfl
  have hstrict : OptionList true (lit "strict" ++ []) := .one (.strict rfl) .nil
  have hboth : OptionList true (lit "WITHOUT ROWID" ++
      ([] ++ byte ',' :: (lit "\n\t" ++ (lit "strict" ++ [])))) := .more hrowid .nil hlines hstrict
  have htail : TailText true (lit " WITHOUT ROWID,\n\tstrict") := .options hspace hboth .nil
  obtain ⟨hiff, hplain⟩ := strict_scan_iff (lit "CREATE TABLE t(a INT") htail
  have hright := hplain (by decide +kernel)
  exact ⟨hiff.2 hright, hright⟩

/-- A carriage return before the option, and no number of rounds ends the loop. -/
theorem strict_scan_hangs :
    TailText true (lit "\r\nSTRICT") ∧ strictOfText (lit "CREATE TABLE t(a INT)\r\nSTRICT") = none ∧
      ∀ k, strictRun k (lit "\r\nSTRICT") = none := by
  have hlines : Trivia (lit "\r\n") := .space rfl (.space rfl .nil)
  have hstrict : OptionList true (lit "STRICT" ++ []) := .one (.strict rfl) .nil
  have htail : TailText true (lit "\r\nSTRICT") := .options hlines hstrict .nil
  have hstall : strictRound (lit "\r\nSTRICT") = .inl (lit "\r\nSTRICT") := rfl
  refine ⟨htail, rfl, fun k => ?_⟩
  cases hk : strictRun k (lit "\r\nSTRICT") with
  | none => rfl
  | some b => exact absurd ⟨k, hk⟩ (not_scans_of_stall hstall b)

end C2Sql
