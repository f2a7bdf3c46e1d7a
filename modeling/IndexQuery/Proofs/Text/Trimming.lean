import IndexQuery.Text.Blank
import Mathlib.Data.List.DropRight
set_option autoImplicit false

/-! # First cuts and trimmed texts

`splitFirst` loses nothing, and what it leaves in front of the cut is free of the character it cuts
at (`splitFirst_eq_some_iff`). `trim` takes characters away and adds none (`mem_of_mem_trim`),
leaves nothing of a text of blanks and something of every other (`isEmpty_trim`), and a second
`trim` finds nothing to take away (`trim_trim`). The trimmed texts are the ones that neither start
nor end with a blank (`trim_eq_self_iff`), and a text is such a one between blanks (`trim_padded`,
`exists_padding`). -/

namespace IndexQuery

namespace Text

variable {c : Char} {s a b : List Char}

/-! ## The first cut -/

theorem splitFirst_eq_none_iff : splitFirst c s = none ↔ c ∉ s := by
  induction s with
  | nil => simp [splitFirst]
  | cons x s ih =>
      by_cases hx : x = c
      · simp [splitFirst, hx]
      · simp [splitFirst, hx, ih, Ne.symm hx]

theorem splitFirst_append (ha : c ∉ a) : splitFirst c (a ++ c :: b) = some (a, b) := by
  induction a with
  | nil => simp [splitFirst]
  | cons x a ih =>
      obtain ⟨hx, ha⟩ := not_or.mp (mt List.mem_cons.mpr ha)
      have hcut : splitFirst c (a ++ c :: b) = some (a, b) := ih ha
      simp [splitFirst, Ne.symm hx, hcut]

/-- A cut is made at the first occurrence, and loses nothing but it. -/
theorem splitFirst_eq_some_iff : splitFirst c s = some (a, b) ↔ s = a ++ c :: b ∧ c ∉ a := by
  constructor
  · intro h
    induction s generalizing a with
    | nil => cases h
    | cons x s ih =>
        unfold splitFirst at h
        split at h
        · next hx =>
            cases Option.some.inj h
            exact ⟨by rw [hx]; rfl, List.not_mem_nil⟩
        · next hx =>
            obtain ⟨⟨first, rest⟩, hcut, heq⟩ := Option.map_eq_some_iff.mp h
            cases heq
            obtain ⟨rfl, hfirst⟩ := ih hcut
            refine ⟨rfl, fun hmem => ?_⟩
            rcases List.mem_cons.mp hmem with rfl | hmem
            · exact hx rfl
            · exact hfirst hmem
  · rintro ⟨rfl, ha⟩
    exact splitFirst_append ha

/-! ## Trimming -/

theorem trimEnd_eq_rdropWhile (s : List Char) : trimEnd s = s.rdropWhile isBlank := rfl

theorem mem_of_mem_trim (hc : c ∈ trim s) : c ∈ s := by
  -- both ends of the trimmed text are inside the text: it is a prefix of a suffix
  have hend : c ∈ s.dropWhile isBlank :=
    (List.rdropWhile_prefix isBlank _).subset hc
  exact (List.dropWhile_suffix isBlank).subset hend

/-- A text is trimmed to nothing exactly when it is blank. -/
theorem isEmpty_trim (s : List Char) : (trim s).isEmpty = isBlankText s := by
  have hkept : trim s = [] ↔ ∀ x ∈ s.dropWhile isBlank, isBlank x = true := by
    rw [trim, trimEnd_eq_rdropWhile, List.rdropWhile_eq_nil_iff]
  rw [Bool.eq_iff_iff, List.isEmpty_iff, hkept, isBlankText, List.all_eq_true]
  constructor
  · intro h x hx
    rw [← List.takeWhile_append_dropWhile (p := isBlank) (l := s)] at hx
    rcases List.mem_append.mp hx with hx | hx
    · exact List.mem_takeWhile_imp hx
    · exact h x hx
  · intro h x hx
    exact h x ((List.dropWhile_suffix isBlank).subset hx)

/-- Where a text starts with no blank, it does so without its last blanks too. -/
theorem dropWhile_trimEnd (h : s.dropWhile isBlank = s) :
    (trimEnd s).dropWhile isBlank = trimEnd s := by
  -- what is kept is a prefix of the text, so it starts with the same character or is empty
  obtain ⟨blanks, hs⟩ : trimEnd s <+: s := List.rdropWhile_prefix isBlank s
  cases hkept : trimEnd s with
  | nil => rfl
  | cons x rest =>
      rw [hkept] at hs
      rw [List.dropWhile_eq_self_iff] at h ⊢
      intro _
      simpa [← hs] using h

/-- There is nothing left to trim. -/
theorem trim_trim (s : List Char) : trim (trim s) = trim s := by
  have hstart : (trim s).dropWhile isBlank = trim s :=
    dropWhile_trimEnd (List.dropWhile_idempotent isBlank s)
  calc trim (trim s)
      = trimEnd (trim s) := by rw [trim, hstart]
    _ = trim s := List.rdropWhile_idempotent isBlank _

/-- Blanks are no letters. -/
theorem toLower_of_isBlank (hc : isBlank c = true) : c.toLower = c := by
  simp only [isBlank, Bool.or_eq_true, Bool.and_eq_true, decide_eq_true_eq, beq_iff_eq] at hc
  refine dif_neg ?_
  rintro ⟨hfirst, hlast⟩
  have hfrom : 65 ≤ c.toNat := hfirst
  have hto : c.toNat ≤ 90 := hlast
  omega

/-! ## Trimmed texts -/

/-- Neither the first nor the last character is a blank. -/
def IsTrimmed (s : List Char) : Prop :=
  (∀ c ∈ s.head?, isBlank c = false) ∧ ∀ c ∈ s.getLast?, isBlank c = false

theorem dropWhile_eq_self_iff_head? :
    s.dropWhile isBlank = s ↔ ∀ c ∈ s.head?, isBlank c = false := by
  cases s with
  | nil => simp
  | cons x s => simp [List.dropWhile_eq_self_iff]

theorem trimEnd_eq_self_iff : trimEnd s = s ↔ ∀ c ∈ s.getLast?, isBlank c = false := by
  rw [trimEnd_eq_rdropWhile, List.rdropWhile_eq_self_iff]
  constructor
  · intro h c hc
    have hne : s ≠ [] := by
      rintro rfl
      cases hc
    rw [List.getLast?_eq_some_getLast hne] at hc
    cases hc
    simpa using h hne
  · intro h hne
    simpa using h _ (List.getLast?_eq_some_getLast hne)

/-- Trimming keeps a text exactly when it neither starts nor ends with a blank. -/
theorem trim_eq_self_iff : trim s = s ↔ IsTrimmed s := by
  rw [IsTrimmed, ← dropWhile_eq_self_iff_head?, ← trimEnd_eq_self_iff]
  constructor
  · intro h
    -- what is left after the first blanks is at most the text, and at least the trimmed text
    have hstart : s.dropWhile isBlank = s := by
      refine (List.dropWhile_suffix isBlank).eq_of_length_le ?_
      calc s.length = (trim s).length := by rw [h]
        _ ≤ (s.dropWhile isBlank).length := (List.rdropWhile_prefix isBlank _).length_le
    exact ⟨hstart, by rw [trim, hstart] at h; exact h⟩
  · rintro ⟨hstart, hend⟩
    rw [trim, hstart, hend]

instance (s : List Char) : Decidable (IsTrimmed s) := decidable_of_iff (trim s = s) trim_eq_self_iff

theorem isTrimmed_trim (s : List Char) : IsTrimmed (trim s) := trim_eq_self_iff.mp (trim_trim s)

/-- Blanks around a trimmed text are what trimming takes away. -/
theorem trim_padded {before after : List Char} (hbefore : isBlankText before = true)
    (hafter : isBlankText after = true) (hs : IsTrimmed s) : trim (before ++ (s ++ after)) = s := by
  cases s with
  | nil =>
      have hblank : isBlankText (before ++ ([] ++ after)) = true := by
        rw [isBlankText, List.all_append, List.nil_append, Bool.and_eq_true]
        exact ⟨hbefore, hafter⟩
      exact List.isEmpty_iff.mp ((isEmpty_trim _).trans hblank)
  | cons x s =>
      have hx : isBlank x = false := hs.1 x rfl
      have hstart : (before ++ (x :: s ++ after)).dropWhile isBlank = x :: s ++ after := by
        rw [List.dropWhile_append_of_pos (List.all_eq_true.mp hbefore), List.cons_append,
          List.dropWhile_cons_of_neg (by simp [hx])]
      have hend : trimEnd (x :: s ++ after) = trimEnd (x :: s) := by
        rw [trimEnd, List.reverse_append, List.dropWhile_append_of_pos]
        · rfl
        · intro c hc
          exact List.all_eq_true.mp hafter c (List.mem_reverse.mp hc)
      rw [trim, hstart, hend, trimEnd_eq_self_iff.mpr hs.2]

/-- Every text is its trimmed text between blanks. -/
theorem exists_padding (s : List Char) : ∃ before after, isBlankText before = true ∧
    isBlankText after = true ∧ s = before ++ (trim s ++ after) := by
  refine ⟨s.takeWhile isBlank, (s.dropWhile isBlank).rtakeWhile isBlank, ?_, ?_, ?_⟩
  · exact List.all_eq_true.mpr fun c hc => List.mem_takeWhile_imp hc
  · exact List.all_eq_true.mpr fun c hc => List.mem_rtakeWhile_imp hc
  · have hend : trim s ++ (s.dropWhile isBlank).rtakeWhile isBlank = s.dropWhile isBlank :=
      List.rdropWhile_append_rtakeWhile
    rw [hend, List.takeWhile_append_dropWhile]

end Text

end IndexQuery
