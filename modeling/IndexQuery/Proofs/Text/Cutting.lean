import IndexQuery.Matching.Words
import IndexQuery.QueryText.Escape
set_option autoImplicit false

/-! # Cutting a text twice

Cutting at a class of characters and then at a larger class gives the same pieces as cutting at the
larger class at once (`pieces_refine`). The index cuts a pattern at white space, hyphens and
slashes; matching cuts at every character that belongs to no word, and these include the former.
Hence the words that are matched depend on the words of the pattern only (`words_eq_of_words`): how
many separators stand between them, and which, does not matter. -/

namespace IndexQuery

namespace Text

variable {p q : Char → Bool}

theorem splitOnP_refine (hqp : ∀ c, q c = true → p c = true) (s : List Char) :
    s.splitOnP p = (s.splitOnP q).flatMap (·.splitOnP p) := by
  induction s with
  | nil => rfl
  | cons c s ih =>
      obtain ⟨first, rest, hcut⟩ := List.exists_cons_of_ne_nil (List.splitOnP_ne_nil q s)
      rw [hcut, List.flatMap_cons] at ih
      rw [List.splitOnP_cons_eq_if_modifyHead, List.splitOnP_cons_eq_if_modifyHead, hcut, ih]
      by_cases hq : q c = true
      · -- both cut here
        rw [if_pos hq, if_pos (hqp c hq)]
        rfl
      · rw [if_neg hq, List.modifyHead_cons, List.flatMap_cons, List.splitOnP_cons_eq_if_modifyHead]
        by_cases hp : p c = true
        · rw [if_pos hp, if_pos hp]
          rfl
        · -- the first piece of the first piece grows by the character
          obtain ⟨piece, pieces, hpiece⟩ :=
            List.exists_cons_of_ne_nil (List.splitOnP_ne_nil p first)
          rw [if_neg hp, if_neg hp, hpiece]
          rfl

/-- Cutting at a class and then at a larger one is cutting at the larger one. -/
theorem pieces_refine (hqp : ∀ c, q c = true → p c = true) (s : List Char) :
    pieces p s = (pieces q s).flatMap (pieces p) := by
  have hdrop : ∀ cut : List (List Char),
      cut.flatMap (pieces p) = (cut.filter (!·.isEmpty)).flatMap (pieces p) := by
    intro cut
    induction cut with
    | nil => rfl
    | cons w cut ih =>
        cases w with
        | nil => rw [List.flatMap_cons, ih]; rfl
        | cons c w => rw [List.filter_cons_of_pos rfl, List.flatMap_cons, List.flatMap_cons, ih]
  unfold pieces at hdrop ⊢
  rw [splitOnP_refine hqp, List.filter_flatMap, hdrop]

theorem not_mem_splitOnP (s : List Char) : ∀ w ∈ s.splitOnP p, ∀ c ∈ w, p c = false := by
  induction s with
  | nil => simp
  | cons c s ih =>
      obtain ⟨first, rest, hcut⟩ := List.exists_cons_of_ne_nil (List.splitOnP_ne_nil p s)
      rw [List.splitOnP_cons_eq_if_modifyHead]
      rw [hcut] at ih ⊢
      intro w hw
      by_cases hp : p c = true
      · rw [if_pos hp] at hw
        rcases List.mem_cons.mp hw with rfl | hw
        · simp
        · exact ih w hw
      · rw [if_neg hp, List.modifyHead_cons] at hw
        rcases List.mem_cons.mp hw with rfl | hw
        · intro d hd
          rcases List.mem_cons.mp hd with rfl | hd
          · simpa using hp
          · exact ih first List.mem_cons_self d hd
        · exact ih w (List.mem_cons_of_mem _ hw)

/-- A piece has characters, and none of the class. -/
theorem of_mem_pieces {s w : List Char} (hw : w ∈ pieces p s) :
    w ≠ [] ∧ ∀ c ∈ w, p c = false := by
  obtain ⟨hmem, hne⟩ := List.mem_filter.mp hw
  exact ⟨by simpa using hne, not_mem_splitOnP s w hmem⟩

/-- Classes that agree on the characters of a text cut it in the same places. -/
theorem pieces_congr {s : List Char} (h : ∀ c ∈ s, p c = q c) : pieces p s = pieces q s := by
  have hsplit : s.splitOnP p = s.splitOnP q := by
    induction s with
    | nil => rfl
    | cons c s ih =>
        have hrest := ih fun d hd => h d (List.mem_cons_of_mem c hd)
        rw [List.splitOnP_cons_eq_if_modifyHead, List.splitOnP_cons_eq_if_modifyHead, hrest,
          h c List.mem_cons_self]
  rw [pieces, pieces, hsplit]

/-- The pieces hold the characters outside the class, in order. -/
theorem flatten_pieces (s : List Char) : (pieces p s).flatten = s.filter (!p ·) := by
  unfold pieces
  rw [List.flatten_filter_not_isEmpty]
  induction s with
  | nil => rfl
  | cons c s ih =>
      obtain ⟨first, rest, hcut⟩ := List.exists_cons_of_ne_nil (List.splitOnP_ne_nil p s)
      rw [hcut, List.flatten_cons] at ih
      rw [List.splitOnP_cons_eq_if_modifyHead, hcut, List.filter_cons, ← ih]
      cases hp : p c with
      | true => rfl
      | false => rfl

end Text

namespace Matching

/-- The code points of white space. -/
def blankCodes : List Nat :=
  [9, 10, 11, 12, 13, 0x20, 0x85, 0xA0, 0x1680, 0x2000, 0x2001, 0x2002, 0x2003, 0x2004, 0x2005,
    0x2006, 0x2007, 0x2008, 0x2009, 0x200A, 0x2028, 0x2029, 0x202F, 0x205F, 0x3000]

theorem mem_blankCodes {c : Char} (hc : Text.isBlank c = true) : c.toNat ∈ blankCodes := by
  simp only [Text.isBlank, Bool.or_eq_true, Bool.and_eq_true, decide_eq_true_eq, beq_iff_eq] at hc
  simp only [blankCodes, List.mem_cons, List.not_mem_nil, or_false]
  omega

/-- A character at which the index cuts belongs to no word. -/
theorem isWordChar_of_isWordBreak {c : Char} (hc : QueryText.isWordBreak c = true) :
    isWordChar c = false := by
  have hblanks : ∀ n ∈ blankCodes, isWordChar (Char.ofNat n) = false := by decide +kernel
  unfold QueryText.isWordBreak at hc
  simp only [Bool.or_eq_true, beq_iff_eq] at hc
  rcases hc with (hblank | rfl) | rfl
  · rw [← Char.ofNat_toNat c]
    exact hblanks _ (mem_blankCodes hblank)
  · decide
  · decide

/-- The words that are matched are cut from the words of a pattern. -/
theorem words_eq_flatMap (s : List Char) :
    words s = ((QueryText.words s).flatMap (Text.pieces (!isWordChar ·))).map Text.lowercase := by
  unfold words QueryText.words
  rw [Text.pieces_refine (q := QueryText.isWordBreak)]
  intro c hc
  rw [isWordChar_of_isWordBreak hc]
  rfl

theorem words_eq_of_words {s t : List Char} (h : QueryText.words s = QueryText.words t) :
    words s = words t := by
  rw [words_eq_flatMap, words_eq_flatMap t, h]

/-- What a pattern matches depends on its words only. -/
theorem textMatches_of_words {mode : TextMode} {s t text : List Char}
    (h : QueryText.words s = QueryText.words t) :
    textMatches mode s text = textMatches mode t text := by
  unfold textMatches
  rw [words_eq_of_words h]

end Matching

end IndexQuery
