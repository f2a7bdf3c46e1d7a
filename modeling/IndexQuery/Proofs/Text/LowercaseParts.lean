import IndexQuery.Text.Lowercase
import Mathlib.Logic.Basic
set_option autoImplicit false

/-! # Lower case of the parts of a text

The form of a capital sigma depends on what stands around it, so the lower case of a part of a text
need not be a part of the lower case of the text. `lowercaseBetween` is the lower case of a part
where it stands; the lower case of a text is put together from the parts
(`lowercaseBetween_append`). A part keeps its lower case exactly when each of its capital sigmas has
the same form in the part alone (`KeepsSigmas`, `lowercase_eq_between_iff`).

All parts of a text keep it exactly when no capital sigma of the text stands behind a cased letter
(`keepsSigmas_of_uncased`, `uncased_of_keepsSigmas`): such a sigma is final when the text is cut
behind it, and is not final when the text is cut in front of it. -/

namespace IndexQuery.Text

/-! ## Lower case in a context -/

/-- Whether a capital sigma between two texts takes the final form: a cased letter comes before it
and none comes after it. -/
def isFinalSigma (before after : List Char) : Bool :=
  startsCased before.reverse && !startsCased after

/-- The lower case of a character between two texts. -/
def lowerCharBetween (before : List Char) (c : Char) (after : List Char) : List Char :=
  if c = 'Σ' then [if isFinalSigma before after then 'ς' else 'σ'] else lowerChar c

/-- The lower case of a part of a text, between what stands before and after it. -/
def lowercaseBetween (before : List Char) : List Char → List Char → List Char
  | [], _ => []
  | c :: s, after =>
    lowerCharBetween before c (s ++ after) ++ lowercaseBetween (before ++ [c]) s after

variable {a b a' b' p q r s t w : List Char} {c : Char}

theorem eq_sigma_iff : c = 'Σ' ↔ c.toNat = 0x3A3 := by
  constructor
  · rintro rfl
    rfl
  · intro h
    rw [← Char.ofNat_toNat c, h]

theorem lowercaseAfter_reverse (before s : List Char) :
    lowercaseAfter before.reverse s = lowercaseBetween before s [] := by
  induction s generalizing before with
  | nil => rfl
  | cons c s ih =>
      have hrest : lowercaseAfter (c :: before.reverse) s
          = lowercaseBetween (before ++ [c]) s [] := by
        rw [← ih, List.reverse_append, List.reverse_singleton, List.singleton_append]
      rw [lowercaseAfter, lowercaseBetween, hrest, List.append_nil]
      congr 1
      unfold lowerCharBetween isFinalSigma
      by_cases hc : c.toNat = 0x3A3
      · rw [if_pos hc, if_pos (eq_sigma_iff.mpr hc)]
        split <;> rfl
      · rw [if_neg hc, if_neg (mt eq_sigma_iff.mp hc)]

theorem lowercase_eq (s : List Char) : lowercase s = lowercaseBetween [] s [] :=
  lowercaseAfter_reverse [] s

/-- A text is put into lower case part by part, each where it stands. -/
theorem lowercaseBetween_append (a s t b : List Char) :
    lowercaseBetween a (s ++ t) b
      = lowercaseBetween a s (t ++ b) ++ lowercaseBetween (a ++ s) t b := by
  induction s generalizing a with
  | nil => simp [lowercaseBetween]
  | cons c s ih => simp [lowercaseBetween, ih]

/-! ## Parts that keep their lower case -/

/-- The number of characters does not depend on the context. -/
theorem length_lowerCharBetween (a b a' b' : List Char) (c : Char) :
    (lowerCharBetween a c b).length = (lowerCharBetween a' c b').length := by
  unfold lowerCharBetween
  by_cases hc : c = 'Σ' <;> simp [hc]

theorem length_lowercaseBetween (a b a' b' s : List Char) :
    (lowercaseBetween a s b).length = (lowercaseBetween a' s b').length := by
  induction s generalizing a a' with
  | nil => rfl
  | cons c s ih =>
      rw [lowercaseBetween, lowercaseBetween, List.length_append, List.length_append,
        ih (a ++ [c]) (a' ++ [c]), length_lowerCharBetween a _ a' (s ++ b')]

theorem lowerCharBetween_eq_iff : lowerCharBetween a c b = lowerCharBetween a' c b' ↔
    (c = 'Σ' → isFinalSigma a b = isFinalSigma a' b') := by
  unfold lowerCharBetween
  by_cases hc : c = 'Σ'
  · cases isFinalSigma a b <;> cases isFinalSigma a' b' <;> simp [hc]
  · simp [hc]

/-- In two contexts a part has the same lower case when each of its capital sigmas has the same
form. -/
theorem lowercaseBetween_eq_iff : lowercaseBetween a s b = lowercaseBetween a' s b' ↔
    ∀ u v, s = u ++ 'Σ' :: v →
      isFinalSigma (a ++ u) (v ++ b) = isFinalSigma (a' ++ u) (v ++ b') := by
  induction s generalizing a a' with
  | nil => simp [lowercaseBetween]
  | cons c s ih =>
      have hsplit : lowercaseBetween a (c :: s) b = lowercaseBetween a' (c :: s) b' ↔
          lowerCharBetween a c (s ++ b) = lowerCharBetween a' c (s ++ b') ∧
            lowercaseBetween (a ++ [c]) s b = lowercaseBetween (a' ++ [c]) s b' := by
        rw [lowercaseBetween, lowercaseBetween]
        constructor
        · exact fun h => List.append_inj h (length_lowerCharBetween _ _ _ _ c)
        · rintro ⟨hfirst, hrest⟩
          rw [hfirst, hrest]
      rw [hsplit, lowerCharBetween_eq_iff, ih]
      constructor
      · rintro ⟨hfirst, hrest⟩ u v hs
        -- the sigma is the first character, or stands behind it
        cases u with
        | nil =>
            obtain ⟨rfl, rfl⟩ := List.cons.inj hs
            simpa using hfirst rfl
        | cons x u =>
            obtain ⟨rfl, rfl⟩ := List.cons.inj hs
            simpa using hrest u v rfl
      · intro h
        constructor
        · rintro rfl
          simpa using h [] s rfl
        · rintro u v rfl
          simpa using h (c :: u) v rfl

/-- Every capital sigma of a part has the same form in the part alone as between what stands before
and after it. -/
def KeepsSigmas (before s after : List Char) : Prop :=
  ∀ u v, s = u ++ 'Σ' :: v → isFinalSigma u v = isFinalSigma (before ++ u) (v ++ after)

theorem lowercase_eq_between_iff : lowercase s = lowercaseBetween a s b ↔ KeepsSigmas a s b := by
  rw [lowercase_eq, lowercaseBetween_eq_iff, KeepsSigmas]
  simp only [List.nil_append, List.append_nil]

/-- The start of a text is the start of its lower case too, if it keeps its sigmas. -/
theorem lowercase_prefix_iff : lowercase p <+: lowercase (p ++ r) ↔ KeepsSigmas [] p r := by
  have hwhole : lowercase (p ++ r) = lowercaseBetween [] p r ++ lowercaseBetween p r [] := by
    rw [lowercase_eq, lowercaseBetween_append, List.append_nil, List.nil_append]
  rw [hwhole, ← lowercase_eq_between_iff]
  constructor
  · intro h
    -- as long as the start of the lower case, it can only be this start
    have hlength : (lowercase p).length = (lowercaseBetween [] p r).length := by
      rw [lowercase_eq]
      exact length_lowercaseBetween _ _ _ _ p
    have hprefix : lowercase p <+: lowercaseBetween [] p r :=
      List.prefix_of_prefix_length_le h (List.prefix_append _ _) (Nat.le_of_eq hlength)
    exact hprefix.eq_of_length hlength
  · intro h
    rw [h]
    exact List.prefix_append _ _

/-- The end of a text is the end of its lower case too, if it keeps its sigmas. -/
theorem lowercase_suffix_iff : lowercase s <:+ lowercase (q ++ s) ↔ KeepsSigmas q s [] := by
  have hwhole : lowercase (q ++ s) = lowercaseBetween [] q s ++ lowercaseBetween q s [] := by
    rw [lowercase_eq, lowercaseBetween_append, List.append_nil, List.nil_append]
  rw [hwhole, ← lowercase_eq_between_iff]
  constructor
  · intro h
    have hlength : (lowercase s).length = (lowercaseBetween q s []).length := by
      rw [lowercase_eq]
      exact length_lowercaseBetween _ _ _ _ s
    have hsuffix : lowercase s <:+ lowercaseBetween q s [] :=
      List.suffix_of_suffix_length_le h (List.suffix_append _ _) (Nat.le_of_eq hlength)
    exact hsuffix.eq_of_length hlength
  · intro h
    rw [h]
    exact List.suffix_append _ _

/-- A part of a text is a part of its lower case too, if it keeps its sigmas. -/
theorem lowercase_infix (h : KeepsSigmas p s r) : lowercase s <:+: lowercase (p ++ (s ++ r)) := by
  have hwhole : lowercase (p ++ (s ++ r))
      = lowercaseBetween [] p (s ++ r) ++ lowercase s ++ lowercaseBetween (p ++ s) r [] := by
    rw [lowercase_eq_between_iff.mpr h, lowercase_eq, lowercaseBetween_append,
      lowercaseBetween_append, List.append_nil, List.append_nil, List.nil_append, List.append_assoc]
  rw [hwhole]
  exact ⟨_, _, rfl⟩

/-! ## Texts all of whose parts keep it -/

theorem startsCased_append (h : startsCased s = true) (t : List Char) :
    startsCased (s ++ t) = true := by
  unfold startsCased at h ⊢
  rw [List.dropWhile_append]
  split at h
  · cases h
  · next c rest hrest =>
      rw [hrest]
      exact h

/-- Behind no cased letter, no capital sigma is final in any part. -/
theorem keepsSigmas_of_uncased (hw : w = p ++ (s ++ r))
    (h : ∀ u v, w = u ++ 'Σ' :: v → startsCased u.reverse = false) : KeepsSigmas p s r := by
  rintro u v rfl
  have hwhole : startsCased (u.reverse ++ p.reverse) = false := by
    rw [← List.reverse_append]
    exact h (p ++ u) (v ++ r) (by simp [hw])
  have hpart : startsCased u.reverse = false := by
    cases hcased : startsCased u.reverse with
    | false => rfl
    | true =>
        rw [startsCased_append hcased] at hwhole
        cases hwhole
  simp [isFinalSigma, hwhole, hpart]

/-- A capital sigma that has the same form when the text is cut before or behind it stands behind no
cased letter. -/
theorem uncased_of_keepsSigmas (hstart : KeepsSigmas [] (p ++ ['Σ']) r)
    (hend : KeepsSigmas p ('Σ' :: r) []) : startsCased p.reverse = false := by
  -- in front of the cut the sigma has nothing behind it, behind the cut nothing in front of it
  have hcutBehind : isFinalSigma p [] = isFinalSigma p r := hstart p [] rfl
  have hcutBefore : isFinalSigma [] r = isFinalSigma p r := by simpa using hend [] r rfl
  have hfirst : isFinalSigma [] r = false := rfl
  have hlast : isFinalSigma p [] = startsCased p.reverse := by simp [isFinalSigma, startsCased]
  rw [← hlast, hcutBehind, ← hcutBefore, hfirst]

/-- A capital sigma at the end of a word, which is not at the end of a longer one. -/
example : lowercase "ΜΟΥΣ".toList = "μους".toList ∧ lowercase "ΜΟΥΣΑ".toList = "μουσα".toList := by
  decide +kernel

end IndexQuery.Text
