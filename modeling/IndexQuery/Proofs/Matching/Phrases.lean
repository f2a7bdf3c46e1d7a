import IndexQuery.Proofs.Matching.Modes
import IndexQuery.Proofs.Matching.PatternWords
set_option autoImplicit false

/-! # Phrases

On a text field equality asks for a phrase: the words of the operand have to stand in the text side
by side. A text that is cut in front of a separator has the words of both parts, each part put into
lower case as it is in the whole (`words_append_separator`), because the case of a word is folded
after the cut. So an operand is found wherever it stands between two separators, and what else
stands in the text does not matter (`equal_finds_phrases`).

The words are looked for in windows of as many words as the operand has. There are no windows of
length zero, and they are never asked for (`phraseSearch?_eq`). -/

namespace IndexQuery

/-! ## Windows -/

namespace Text

variable {α : Type} {size : Nat} {w xs : List α}

/-- The windows of a list: its runs of a given length, from left to right. A window has an item at
least, so that a length of zero is not answered. -/
def windows? (size : Nat) (xs : List α) : Option (List (List α)) :=
  if size = 0 then none
  else some ((List.range (xs.length + 1 - size)).map fun i => (xs.drop i).take size)

theorem windows?_eq_none_iff : windows? size xs = none ↔ size = 0 := by
  unfold windows?
  split <;> simp [*]

/-- The windows of a length are the runs of this length. -/
theorem mem_of_windows? {ws : List (List α)} (hws : windows? size xs = some ws) :
    w ∈ ws ↔ w <:+: xs ∧ w.length = size := by
  have hsize : size ≠ 0 := by
    intro hzero
    rw [windows?_eq_none_iff.mpr hzero] at hws
    cases hws
  rw [windows?, if_neg hsize] at hws
  cases hws
  rw [List.mem_map]
  constructor
  · rintro ⟨i, hi, rfl⟩
    have hplace : i < xs.length + 1 - size := List.mem_range.mp hi
    refine ⟨(List.take_prefix _ _).isInfix.trans (List.drop_suffix _ _).isInfix, ?_⟩
    rw [List.length_take, List.length_drop]
    omega
  · rintro ⟨⟨before, after, rfl⟩, rfl⟩
    -- the window that starts behind what stands before the run
    refine ⟨before.length, List.mem_range.mpr ?_, ?_⟩
    · simp only [List.length_append]
      omega
    · rw [List.append_assoc, List.drop_left, List.take_left]

end Text

/-! ## Words between separators -/

namespace Matching

variable {a b s text : List Char} {x y : Char}

/-- A separator parts the words of a text, whatever stands around it. -/
theorem words_append_separator (hx : isWordChar x = false) (a b : List Char) :
    words (a ++ x :: b) = words a ++ words b := by
  have hcut : (a ++ x :: b).splitOnP (!isWordChar ·)
      = a.splitOnP (!isWordChar ·) ++ b.splitOnP (!isWordChar ·) :=
    List.splitOnP_append_cons a b (by simp [hx])
  rw [words, words, words, Text.pieces, Text.pieces, Text.pieces, hcut, List.filter_append,
    List.map_append]

/-- Between two separators a text has its own words. -/
theorem words_between_separators (hx : isWordChar x = false) (hy : isWordChar y = false)
    (a s b : List Char) : words (a ++ x :: (s ++ y :: b)) = words a ++ words s ++ words b := by
  calc words (a ++ x :: (s ++ y :: b))
      = words a ++ words (s ++ y :: b) := words_append_separator hx a _
    _ = words a ++ (words s ++ words b) := by rw [words_append_separator hy s b]
    _ = words a ++ words s ++ words b := (List.append_assoc _ _ _).symm

theorem words_ne_nil_iff : words s ≠ [] ↔ ∃ c ∈ s, isWordChar c = true := by
  rw [Ne, words_eq_nil_iff]
  push Not
  simp only [Bool.not_eq_false]

/-! ## The search in windows -/

/-- Whether the wanted words stand side by side among the present ones: one of the windows of as
many words holds them. Where no words are wanted there is nothing to be found. -/
def phraseSearch? (wanted present : List (List Char)) : Option Bool :=
  if wanted.isEmpty then some false
  else (Text.windows? wanted.length present).map (·.contains wanted)

/-- The search never asks for windows of length zero, and it finds what a phrase matches. -/
theorem phraseSearch?_eq (pattern text : List Char) :
    phraseSearch? (words pattern) (words text) = some (textMatches .exact pattern text) := by
  unfold phraseSearch?
  by_cases hnone : words pattern = []
  · have hmatches : textMatches .exact pattern text = false := by
      simp [textMatches, hnone]
    rw [hnone, hmatches]
    rfl
  · have hlength : (words pattern).length ≠ 0 := by simpa using hnone
    obtain ⟨ws, hws⟩ : ∃ ws, Text.windows? (words pattern).length (words text) = some ws :=
      Option.ne_none_iff_exists'.mp (mt Text.windows?_eq_none_iff.mp hlength)
    have hfound : ws.contains (words pattern) = textMatches .exact pattern text := by
      rw [Bool.eq_iff_iff, List.contains_iff_mem, Text.mem_of_windows? hws, textMatches_exact_iff]
      simp only [and_true, ne_eq, hnone, not_false_eq_true, true_and]
    rw [if_neg (by simpa using hnone), hws, Option.map_some, hfound]

end Matching

/-! ## Equality on text fields -/

namespace Condition

open Matching Predicate

variable {f : Field} {d : Datum} {v : String}

/-- A phrase that is not empty is met by the texts that have its words side by side. -/
theorem accepts_equal_text_iff (hf : f.type = .text) (hv : v ≠ "") :
    (equal (.text v)).Accepts f d ↔ ∃ text, stored f.key d = some (.text text) ∧
      words v.toList ≠ [] ∧ words v.toList <:+: words text.toList := by
  have hequal := accepts_inMode_text (d := d) hf .exact hv
  simp only [textMatches_exact_iff] at hequal
  exact hequal

theorem appliesTo_equal_text (hf : f.type = .text) (hv : v ≠ "") :
    (equal (.text v)).AppliesTo f := by
  obtain ⟨p, hp, -⟩ :=
    isConstrained_inMode (hf ▸ supports_text .exact _) (criterionOf_inMode_text hf .exact hv)
  exact ⟨p, hp⟩

/-- Equality on a text field. An operand with a character of a word is met by the texts in which its
words stand side by side, hence by every text in which it stands between two separators. An operand
without such a character is met by no text, unless it is empty. The words are looked for in windows,
of which there is always at least one word asked for. -/
theorem equal_finds_phrases (hf : f.type = .text) (v : String) :
    ((∃ c ∈ v.toList, isWordChar c = true) →
      (equal (.text v)).AppliesTo f ∧
      (∀ d, (equal (.text v)).Accepts f d ↔
        ∃ text, stored f.key d = some (.text text) ∧ words v.toList <:+: words text.toList) ∧
      ∀ d text a b x y, stored f.key d = some (.text text) →
        text.toList = a ++ x :: (v.toList ++ y :: b) →
        isWordChar x = false → isWordChar y = false → (equal (.text v)).Accepts f d) ∧
    (v ≠ "" → (∀ c ∈ v.toList, isWordChar c = false) →
      (equal (.text v)).AppliesTo f ∧ ∀ d, ¬ (equal (.text v)).Accepts f d) ∧
    ∀ text,
      phraseSearch? (words v.toList) (words text) = some (textMatches .exact v.toList text) := by
  refine ⟨fun hword => ?_, fun hv hnone => ?_, phraseSearch?_eq v.toList⟩
  · have hwords : words v.toList ≠ [] := words_ne_nil_iff.mpr hword
    have hv : v ≠ "" := by
      rintro rfl
      exact hwords rfl
    have haccepts : ∀ d, (equal (.text v)).Accepts f d ↔
        ∃ text, stored f.key d = some (.text text) ∧ words v.toList <:+: words text.toList := by
      intro d
      rw [accepts_equal_text_iff hf hv]
      simp only [ne_eq, hwords, not_false_eq_true, true_and]
    refine ⟨appliesTo_equal_text hf hv, haccepts, ?_⟩
    intro d text a b x y hstored htext hx hy
    refine (haccepts d).mpr ⟨text, hstored, words a, words b, ?_⟩
    rw [htext, words_between_separators hx hy]
  · refine ⟨appliesTo_equal_text hf hv, fun d haccepts => ?_⟩
    obtain ⟨text, -, hwords, -⟩ := (accepts_equal_text_iff hf hv).mp haccepts
    exact hwords (words_eq_nil_iff.mpr hnone)

/-- Two words of a title, in capitals whose last sigma is final, and an operand of dots. -/
theorem equal_finds_phrases_between_marks :
    let title : Field := ⟨"title", "title", .text, false, by decide, by decide, by decide⟩
    let d : Datum := .record [("title", .text "Στο «Ο ΛΟΓΟΣ» (1953)")]
    title.type = .text ∧ (∃ c ∈ "Ο ΛΟΓΟΣ".toList, isWordChar c = true) ∧
      stored title.key d = some (.text "Στο «Ο ΛΟΓΟΣ» (1953)") ∧
      "Στο «Ο ΛΟΓΟΣ» (1953)".toList
        = "Στο ".toList ++ '«' :: ("Ο ΛΟΓΟΣ".toList ++ '»' :: " (1953)".toList) ∧
      isWordChar '«' = false ∧ isWordChar '»' = false ∧
      (equal (.text "Ο ΛΟΓΟΣ")).Accepts title d ∧
      "..." ≠ "" ∧ (∀ c ∈ "...".toList, isWordChar c = false) ∧
      ¬ (equal (.text "...")).Accepts title d := by
  intro title d
  have hword : ∃ c ∈ "Ο ΛΟΓΟΣ".toList, isWordChar c = true :=
    ⟨'Ο', by decide, by decide +kernel⟩
  have hopen : isWordChar '«' = false := by decide +kernel
  have hclose : isWordChar '»' = false := by decide +kernel
  have hdots : ∀ c ∈ "...".toList, isWordChar c = false := by
    intro c hc
    have hdot : c = '.' := by simpa using hc
    rw [hdot]
    decide
  obtain ⟨hfound, -, -⟩ := equal_finds_phrases (f := title) rfl "Ο ΛΟΓΟΣ"
  obtain ⟨-, hnothing, -⟩ := equal_finds_phrases (f := title) rfl "..."
  have haccepts := (hfound hword).2.2 d _ "Στο ".toList " (1953)".toList '«' '»' rfl (by decide)
    hopen hclose
  exact ⟨rfl, hword, rfl, by decide, hopen, hclose, haccepts, by decide, hdots,
    (hnothing (by decide) hdots).2 d⟩

end Condition

end IndexQuery
