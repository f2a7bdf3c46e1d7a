import IndexQuery.Proofs.Compilation.Meaning
import IndexQuery.Proofs.Encoding.Sources
import IndexQuery.Proofs.QueryText.Literals
set_option autoImplicit false

/-! # The words of a pattern, written and matched

A query carries the words of a pattern as the index cuts them, at white space, hyphens and slashes.
Matching cuts at every character that belongs to no word. The two agree on a pattern exactly when
each of its characters belongs to a word or is one of those separators (`words_eq_iff`); one way
follows from cutting twice at the same places, the other from counting characters, which lower case
never makes fewer. A pattern is written as the bare wildcard when it has separators only, but
matches every text as soon as no character belongs to a word
(`pattern_words_agree_iff`). -/

namespace IndexQuery

namespace Text

/-! ## Lengths in lower case -/

/-- The number of characters of a text in lower case, one character at a time. -/
def lowerLength (s : List Char) : Nat := (s.map fun c => (lowerChar c).length).sum

theorem lowerLength_cons (c : Char) (s : List Char) :
    lowerLength (c :: s) = (lowerChar c).length + lowerLength s := by
  rw [lowerLength, List.map_cons, List.sum_cons, lowerLength]

theorem length_lowerChar_pos (c : Char) : 0 < (lowerChar c).length := by
  unfold lowerChar
  split
  · exact Nat.zero_lt_one
  · split
    · exact Nat.zero_lt_two
    · split <;> exact Nat.zero_lt_one

/-- A capital sigma stays one character, final or not. -/
theorem length_lowerChar_sigma {c : Char} (hc : c.toNat = 0x3A3) : (lowerChar c).length = 1 := by
  have hlatin : ¬ c.toNat < 128 := by omega
  have hdot : ¬ c.toNat = 0x130 := by omega
  unfold lowerChar
  rw [if_neg hlatin, if_neg hdot]
  split <;> rfl

theorem length_lowercaseAfter (before s : List Char) :
    (lowercaseAfter before s).length = lowerLength s := by
  induction s generalizing before with
  | nil => rfl
  | cons c s ih =>
      rw [lowercaseAfter, List.length_append, ih, lowerLength_cons]
      split
      · next hsigma => rw [length_lowerChar_sigma hsigma, List.length_singleton]
      · rfl

theorem length_flatten_lowercase (ws : List (List Char)) :
    (ws.map lowercase).flatten.length = lowerLength ws.flatten := by
  induction ws with
  | nil => rfl
  | cons w ws ih =>
      rw [List.map_cons, List.flatten_cons, List.length_append, ih, List.flatten_cons, lowercase,
        length_lowercaseAfter, lowerLength, lowerLength, lowerLength, List.map_append,
        List.sum_append]

/-- Fewer characters have a smaller length, so two filters of one length keep the same. -/
theorem lowerLength_filter {p q : Char → Bool} (hpq : ∀ c, p c = true → q c = true)
    (s : List Char) :
    lowerLength (s.filter p) ≤ lowerLength (s.filter q) ∧
      (lowerLength (s.filter p) = lowerLength (s.filter q) →
        ∀ c ∈ s, q c = true → p c = true) := by
  induction s with
  | nil => exact ⟨Nat.le_refl _, fun _ c hc => by cases hc⟩
  | cons c s ih =>
      obtain ⟨hle, hsame⟩ := ih
      have hpos := length_lowerChar_pos c
      rw [List.filter_cons, List.filter_cons]
      by_cases hp : p c = true
      · rw [if_pos hp, if_pos (hpq c hp), lowerLength_cons, lowerLength_cons]
        refine ⟨by omega, fun heq d hd hq => ?_⟩
        rcases List.mem_cons.mp hd with rfl | hd
        · exact hp
        · exact hsame (by omega) d hd hq
      · rw [if_neg hp]
        by_cases hq : q c = true
        · rw [if_pos hq, lowerLength_cons]
          exact ⟨by omega, fun heq => by omega⟩
        · rw [if_neg hq]
          refine ⟨hle, fun heq d hd hqd => ?_⟩
          rcases List.mem_cons.mp hd with rfl | hd
          · exact absurd hqd hq
          · exact hsame heq d hd hqd

end Text

namespace Matching

open QueryText (isWordBreak textOperand textComparand write_textComparand isValid_textComparand
  markedWords_of_comparand unambiguous_comparand)

/-! ## Agreement on the words -/

theorem isWordBreak_of_isWordChar {c : Char} (hc : isWordChar c = true) :
    isWordBreak c = false := by
  cases hbreak : isWordBreak c with
  | false => rfl
  | true =>
      rw [isWordChar_of_isWordBreak hbreak] at hc
      cases hc

/-- The words of a pattern as they are written, in lower case, are the words that are matched
exactly when every character belongs to a word or is a separator. -/
theorem words_eq_iff (s : List Char) :
    words s = (QueryText.words s).map Text.lowercase ↔
      ∀ c ∈ s, isWordChar c = true ∨ isWordBreak c = true := by
  constructor
  · intro heq c hc
    have hkept : ∀ c, isWordChar c = true → (!isWordBreak c) = true := by
      intro c hword
      rw [isWordBreak_of_isWordChar hword]
      rfl
    -- both sides have the same number of characters, and the right one has no fewer of any kind
    have hlength : Text.lowerLength (s.filter isWordChar)
        = Text.lowerLength (s.filter (!isWordBreak ·)) := by
      have hsame := congrArg (fun ws : List (List Char) => ws.flatten.length) heq
      simpa only [words, QueryText.words, Text.length_flatten_lowercase, Text.flatten_pieces,
        Bool.not_not] using hsame
    cases hbreak : isWordBreak c with
    | true => exact .inr rfl
    | false =>
        refine .inl ((Text.lowerLength_filter hkept s).2 hlength c hc ?_)
        rw [hbreak]
        rfl
  · intro hclass
    have hcut : ∀ c ∈ s, (!isWordChar c) = isWordBreak c := by
      intro c hc
      rcases hclass c hc with hword | hbreak
      · rw [hword, isWordBreak_of_isWordChar hword]
        rfl
      · rw [hbreak, isWordChar_of_isWordBreak hbreak]
        rfl
    rw [words, QueryText.words, Text.pieces_congr hcut]

/-! ## Patterns without words -/

theorem pieces_eq_nil_iff {p : Char → Bool} {s : List Char} :
    Text.pieces p s = [] ↔ ∀ c ∈ s, p c = true := by
  constructor
  · intro hnil c hc
    have hnone : s.filter (!p ·) = [] := by rw [← Text.flatten_pieces, hnil]; rfl
    have hkept := List.filter_eq_nil_iff.mp hnone c hc
    simpa using hkept
  · intro hall
    have hnone : (Text.pieces p s).flatten = [] := by
      rw [Text.flatten_pieces, List.filter_eq_nil_iff]
      intro c hc
      simp [hall c hc]
    -- a piece would have a character
    refine List.eq_nil_iff_forall_not_mem.mpr fun w hw => ?_
    exact (Text.of_mem_pieces hw).1 (List.flatten_eq_nil_iff.mp hnone w hw)

/-- A text without words has no character of a word. -/
theorem words_eq_nil_iff {s : List Char} : words s = [] ↔ ∀ c ∈ s, isWordChar c = false := by
  rw [words, List.map_eq_nil_iff, pieces_eq_nil_iff]
  simp only [Bool.not_eq_true']

/-- A pattern is written as the bare wildcard exactly when it has separators only. -/
theorem textOperand_eq_wildcard_iff {mode : TextMode} (hmode : mode ≠ .exact) (s : List Char) :
    textOperand mode s = ['*'] ↔ ∀ c ∈ s, isWordBreak c = true := by
  rw [← pieces_eq_nil_iff]
  have hnone : textOperand mode [] = ['*'] := by
    cases mode with
    | exact => exact absurd rfl hmode
    | _ => rfl
  constructor
  · intro h
    have hcomparand : textComparand mode s = textComparand mode [] := by
      refine unambiguous_comparand.eq (isValid_textComparand _ _) (isValid_textComparand _ _) ?_
      rw [write_textComparand, write_textComparand, h, hnone]
    exact (markedWords_of_comparand hmode hmode hcomparand).2
  · intro hwords
    have hempty : QueryText.words [] = QueryText.words s := hwords.symm
    rw [← hnone, ← write_textComparand, ← write_textComparand, textComparand, textComparand,
      if_neg hmode, if_neg hmode, hempty]

/-- Without words of its own a text is met by no pattern with words. -/
theorem textMatches_nil {mode : TextMode} {s : List Char} (hs : words s ≠ []) :
    textMatches mode s [] = false := by
  obtain ⟨w, rest, hwords⟩ := List.exists_cons_of_ne_nil hs
  have hempty : words [] = [] := rfl
  unfold textMatches
  rw [hwords, hempty]
  cases mode with
  | starts =>
      cases rest with
      | nil => rfl
      | cons v rest => rfl
  | _ => rfl

/-- A pattern matches every text exactly when none of its characters belongs to a word. -/
theorem textMatches_all_iff {mode : TextMode} (hmode : mode ≠ .exact) (s : List Char) :
    (∀ text, textMatches mode s text = true) ↔ ∀ c ∈ s, isWordChar c = false := by
  rw [← words_eq_nil_iff]
  constructor
  · intro hall
    by_contra hs
    have hfails : textMatches mode s [] = false := textMatches_nil hs
    rw [hall []] at hfails
    cases hfails
  · intro hs text
    unfold textMatches
    rw [hs]
    exact bne_iff_ne.mpr hmode

end Matching

/-! ## Conditions on patterns -/

namespace Predicate

open Matching
open QueryText (isWordBreak fieldRef textOperand)

variable {f : Field} {c : Condition} {mode : TextMode} {v : String}

/-- A pattern has a mode of its own, and the fields it can be asked of include the texts. -/
theorem of_pattern? {w : Operand} (hc : c.pattern? = some (w, mode)) :
    mode ≠ .exact ∧ c.operator.supports .text = true := by
  cases c with
  | startsWith v => cases hc; exact ⟨by simp, rfl⟩
  | endsWith v => cases hc; exact ⟨by simp, rfl⟩
  | containing v => cases hc; exact ⟨by simp, rfl⟩
  | like v => cases hc; exact ⟨by simp, rfl⟩
  | _ => cases hc

/-- The predicate of a pattern on a text. -/
theorem of_text_pattern (hf : f.type = .text) (hc : c.pattern? = some (.text v, mode))
    (hv : v ≠ "") : of f c = .ok ⟨f, c.operator, .term (.text mode v)⟩ := by
  have hne : ¬ (Operand.text v).isEmpty = true := by simpa [Operand.isEmpty] using hv
  have hliteral : Encoding.patternLiteral f c.operator (.text v) mode = .ok (.text mode v) := by
    unfold Encoding.patternLiteral
    rw [hf]
    rfl
  refine of_eq_ok_iff.mpr ⟨hf ▸ (of_pattern? hc).2, _, ?_, rfl⟩
  rw [criterionOf_of_pattern? hc, pattern, unlessEmpty, if_neg hne, hliteral]
  rfl

/-- A pattern on a text is written with the words that the index would cut, and matched by the words
that documents have. The words are the same exactly when every character belongs to a word or is a
separator. The bare wildcard is written for separators only, but every text is matched when no
character belongs to a word. -/
theorem pattern_words_agree_iff (hf : f.type = .text)
    (hc : c.pattern? = some (.text v, mode)) (hv : v ≠ "") :
    ∃ p, of f c = .ok p ∧
      (∀ config, ((compile [p]).rendered config).query
        = String.ofList (fieldRef f.key.toList ++ ':' :: textOperand mode v.toList)) ∧
      (words v.toList = (QueryText.words v.toList).map Text.lowercase ↔
        ∀ x ∈ v.toList, isWordChar x = true ∨ isWordBreak x = true) ∧
      (textOperand mode v.toList = ['*'] ↔ ∀ x ∈ v.toList, isWordBreak x = true) ∧
      ((∀ d s, stored f.key d = some (.text s) → (compile [p]).accepts d = true) ↔
        ∀ x ∈ v.toList, isWordChar x = false) := by
  have hmode := (of_pattern? hc).1
  refine ⟨_, of_text_pattern hf hc hv, fun config => ?_, words_eq_iff _,
    textOperand_eq_wildcard_iff hmode _, ?_⟩
  · rfl
  · rw [← textMatches_all_iff hmode]
    constructor
    · intro hall text
      have hstored : stored f.key (.record [(f.key, .text (String.ofList text))])
          = some (.text (String.ofList text)) := by
        simp [stored, Datum.get?, Datum.isNull]
      have haccepts := hall _ _ hstored
      rw [accepts_compile_one] at haccepts
      simpa [Criterion.accepts, termMatches, literalMatches, hstored, Datum.text?] using haccepts
    · intro hall d s hstored
      rw [accepts_compile_one]
      simp [Criterion.accepts, termMatches, literalMatches, hstored, Datum.text?, hall]

/-- A name with an apostrophe and a hyphen: written as two words, matched by three. -/
theorem pattern_words_agree_iff_apostrophe :
    let name : Field := ⟨"name", "name", .text, false, by decide, by decide, by decide⟩
    let c : Condition := .startsWith (.text "O'Neil-Ros")
    name.type = .text ∧ c.pattern? = some (.text "O'Neil-Ros", .starts) ∧ "O'Neil-Ros" ≠ "" ∧
      ∃ p, of name c = .ok p ∧
        ((compile [p]).rendered SearchConfig.default).query = "@name:(O\\'Neil Ros*)" ∧
        words "O'Neil-Ros".toList ≠ (QueryText.words "O'Neil-Ros".toList).map Text.lowercase := by
  intro name c
  have hne : "O'Neil-Ros" ≠ "" := by decide
  obtain ⟨p, hp, hrendered, hwords, _⟩ :=
    pattern_words_agree_iff (f := name) (c := c) rfl rfl hne
  refine ⟨rfl, rfl, hne, p, hp, ?_, fun h => ?_⟩
  · rw [hrendered]
    decide +kernel
  · -- the apostrophe belongs to no word and is no separator
    have hclass := hwords.mp h '\'' (by decide)
    exact absurd hclass (by decide +kernel)

/-- Three exclamation marks are written as a word, but matched as no word at all, so that every name
matches them. -/
theorem pattern_without_letters_matches_all :
    let name : Field := ⟨"name", "name", .text, false, by decide, by decide, by decide⟩
    ∃ p, of name (.startsWith (.text "!!!")) = .ok p ∧
      ((compile [p]).rendered SearchConfig.default).query = "@name:\\!\\!\\!*" ∧
      words "!!!".toList ≠ (QueryText.words "!!!".toList).map Text.lowercase ∧
      textOperand .starts "!!!".toList ≠ ['*'] ∧
      ∀ s, (compile [p]).accepts (.record [("name", .text s)]) = true := by
  intro name
  refine ⟨_, rfl, by decide +kernel, by decide +kernel, by decide +kernel, fun s => ?_⟩
  have hnone : ∀ x ∈ "!!!".toList, isWordChar x = false := by
    intro x hx
    have hmark : x = '!' := by simpa using hx
    rw [hmark]
    decide
  have hall := (textMatches_all_iff (by decide : TextMode.starts ≠ .exact) _).mpr hnone
  rw [accepts_compile_one]
  exact hall s.toList

end Predicate

end IndexQuery
