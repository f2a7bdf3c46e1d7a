import IndexQuery.Proofs.Matching.TagSets
import IndexQuery.Proofs.Text.LowercaseParts
set_option autoImplicit false

/-! # Patterns cut from what they look for

A text of one word and a text of one tag are looked through as a whole, in lower case. A pattern is
put into lower case on its own. So the start, the end or a part of such a text, taken as a pattern,
finds the text as long as it keeps its lower case, which only capital sigmas can lose
(`cut_patterns_find_iff`): the start and the end of a text find it exactly when they keep their
sigmas, and all parts find it exactly when no capital sigma of the text stands behind a cased
letter. -/

namespace IndexQuery

open Matching

/-! ## Single words and single tags -/

namespace Matching

variable {w : List Char}

/-- A text of word characters is one word. -/
theorem words_of_forall (hw : ∀ c ∈ w, isWordChar c = true) (hne : w ≠ []) :
    words w = [Text.lowercase w] := by
  have hcut : w.splitOnP (!isWordChar ·) = [w] :=
    List.splitOnP_eq_singleton fun c hc => by simp [hw c hc]
  have hkept : (!w.isEmpty) = true := by simpa using hne
  rw [words, Text.pieces, hcut, List.filter_singleton, hkept]
  rfl

end Matching

/-- How a wanted word and a stored one are compared in a mode, both in lower case. -/
def TextMode.Finds : TextMode → List Char → List Char → Prop
  | exact, wanted, present => wanted = present
  | starts, wanted, present => wanted <+: present
  | ends, wanted, present => wanted <:+ present
  | contains, wanted, present => wanted <:+: present
  | fuzzy, wanted, present => present = wanted ∨ Edit present wanted

namespace Matching

variable {mode : TextMode} {tagged : TagMode} {pattern text wanted present : List Char}

/-- A pattern of one word is compared with a text of one word. -/
theorem textMatches_one_iff (hpattern : words pattern = [wanted]) (htext : words text = [present]) :
    textMatches mode pattern text = true ↔ mode.Finds wanted present := by
  cases mode with
  | exact =>
      rw [textMatches_exact_iff, hpattern, htext]
      simp [TextMode.Finds, List.infix_cons_iff]
  | starts => simp [textMatches_starts, hpattern, htext, meetsStarts, TextMode.Finds]
  | ends => simp [textMatches_ends, hpattern, htext, meetsEnds, TextMode.Finds]
  | contains => simp [textMatches_contains_iff, hpattern, htext, TextMode.Finds]
  | fuzzy => simp [textMatches_fuzzy_iff, hpattern, htext, TextMode.Finds]

/-- A wanted tag is put into lower case and compared with the stored one. -/
theorem tagMatches_iff (hmode : Encoding.tagMode? mode = some tagged) :
    tagMatches tagged wanted present = true ↔ mode.Finds (Text.lowercase wanted) present := by
  cases mode with
  | exact =>
      cases hmode
      rw [tagMatches_exact_iff, TextMode.Finds, eq_comm]
  | starts =>
      cases hmode
      exact List.isPrefixOf_iff_prefix
  | ends =>
      cases hmode
      exact List.isSuffixOf_iff_suffix
  | contains =>
      cases hmode
      exact hasRun_iff
  | fuzzy => cases hmode

end Matching

namespace Condition

open Predicate
open Text (KeepsSigmas lowercase startsCased)

/-- The field looks through the text as a whole: a tag field a trimmed text without commas, a text
field a text of word characters. -/
def TakesWhole (f : Field) (w : String) : Prop :=
  (f.type = .tag ∧ ',' ∉ w.toList ∧ Text.IsTrimmed w.toList) ∨
    (f.type = .text ∧ ∀ c ∈ w.toList, isWordChar c = true)

variable {f : Field} {d : Datum} {v w : String}

/-- A pattern with characters of the stored text only is compared with the text in lower case. -/
theorem accepts_inMode_iff_finds (mode : TextMode) (hmode : mode ≠ .fuzzy) (hw : TakesWhole f w)
    (hstored : stored f.key d = some (.text w)) (hv : v ≠ "")
    (hsub : ∀ c ∈ v.toList, c ∈ w.toList) :
    (inMode mode (.text v)).Accepts f d ↔
      mode.Finds (lowercase v.toList) (lowercase w.toList) := by
  rcases hw with ⟨hf, hcomma, htrimmed⟩ | ⟨hf, hword⟩
  · obtain ⟨tagged, htagged⟩ := exists_tagMode hmode
    have htags : tagsOf (.text w) = [lowercase w.toList] := by
      rw [tagsOf, splitTags_of_comma_not_mem hcomma htrimmed]
    rw [accepts_inMode_tag hf htagged hv, hstored]
    simp [htags, tagMatches_iff htagged]
  -- a pattern from the characters of one word is one word
  · have hne : v.toList ≠ [] := by simpa using hv
    obtain ⟨c, rest, hcons⟩ := List.exists_cons_of_ne_nil hne
    have hstoredNe : w.toList ≠ [] := List.ne_nil_of_mem (hsub c (by simp [hcons]))
    have hwanted : words v.toList = [lowercase v.toList] :=
      words_of_forall (fun c hc => hword c (hsub c hc)) hne
    have hpresent : words w.toList = [lowercase w.toList] := words_of_forall hword hstoredNe
    rw [accepts_inMode_text hf mode hv, hstored]
    simp [textMatches_one_iff hwanted hpresent]

/-- What each condition on a part of a stored text needs to be met. -/
theorem accepts_parts (hw : TakesWhole f w) (hstored : stored f.key d = some (.text w))
    {p m s : String} (hcut : w = p ++ m ++ s) :
    (p ≠ "" → ((startsWith (.text p)).Accepts f d ↔
      KeepsSigmas [] p.toList (m.toList ++ s.toList))) ∧
    (m ≠ "" → KeepsSigmas p.toList m.toList s.toList → (containing (.text m)).Accepts f d) ∧
    (s ≠ "" → ((endsWith (.text s)).Accepts f d ↔
      KeepsSigmas (p.toList ++ m.toList) s.toList [])) := by
  have hchars : w.toList = p.toList ++ (m.toList ++ s.toList) := by simp [hcut]
  refine ⟨fun hp => ?_, fun hm hkeeps => ?_, fun hs => ?_⟩
  · have hfinds := accepts_inMode_iff_finds .starts (by decide) hw hstored hp
      (by simp +contextual [hchars])
    rw [hchars] at hfinds
    exact hfinds.trans Text.lowercase_prefix_iff
  · have hfinds := accepts_inMode_iff_finds .contains (by decide) hw hstored hm
      (by simp +contextual [hchars])
    rw [hchars] at hfinds
    exact hfinds.mpr (Text.lowercase_infix hkeeps)
  · have hfinds := accepts_inMode_iff_finds .ends (by decide) hw hstored hs
      (by simp +contextual [hchars])
    rw [hchars, ← List.append_assoc] at hfinds
    exact hfinds.trans Text.lowercase_suffix_iff

/-- A text cut in two places is found by its start, its middle part and its end, as far as they are
not empty. -/
structure FoundByParts (f : Field) (d : Datum) (p m s : String) : Prop where
  starts : p ≠ "" → (startsWith (.text p)).Accepts f d
  contains : m ≠ "" → (containing (.text m)).Accepts f d
  ends : s ≠ "" → (endsWith (.text s)).Accepts f d

/-- Where no capital sigma stands behind a cased letter, all parts find the text. -/
theorem foundByParts_of_uncased (hw : TakesWhole f w) (hstored : stored f.key d = some (.text w))
    (huncased : ∀ u v, w.toList = u ++ 'Σ' :: v → startsCased u.reverse = false)
    {p m s : String} (hcut : w = p ++ m ++ s) : FoundByParts f d p m s := by
  obtain ⟨hstarts, hcontains, hends⟩ := accepts_parts hw hstored hcut
  have hchars : w.toList = p.toList ++ (m.toList ++ s.toList) := by simp [hcut]
  constructor
  · intro hp
    exact (hstarts hp).mpr (Text.keepsSigmas_of_uncased (p := []) (by simpa using hchars) huncased)
  · intro hm
    exact hcontains hm (Text.keepsSigmas_of_uncased hchars huncased)
  · intro hs
    exact (hends hs).mpr (Text.keepsSigmas_of_uncased (r := []) (by simpa using hchars) huncased)

/-- A text can be cut in front of a capital sigma and behind it. When both parts find the text, the
sigma stands behind no cased letter. -/
theorem uncased_of_foundByParts (hw : TakesWhole f w) (hstored : stored f.key d = some (.text w))
    (hfound : ∀ p m s, w = p ++ m ++ s → FoundByParts f d p m s) {u v : List Char}
    (hsigma : w.toList = u ++ 'Σ' :: v) : startsCased u.reverse = false := by
  have hbehind : w = String.ofList (u ++ ['Σ']) ++ "" ++ String.ofList v := by
    rw [← String.toList_inj]
    simp [hsigma]
  have hbefore : w = String.ofList u ++ "" ++ String.ofList ('Σ' :: v) := by
    rw [← String.toList_inj]
    simp [hsigma]
  have hstart := ((accepts_parts hw hstored hbehind).1 (by simp)).mp
    ((hfound _ _ _ hbehind).starts (by simp))
  have hend := ((accepts_parts hw hstored hbefore).2.2 (by simp)).mp
    ((hfound _ _ _ hbefore).ends (by simp))
  simp only [String.toList_ofList, String.toList_empty, List.nil_append, List.append_nil]
    at hstart hend
  exact Text.uncased_of_keepsSigmas hstart hend

/-- The start and the end of a stored text find it exactly when they keep their sigmas, a middle
part finds it if it does. All parts of all cuts find the text exactly when no capital sigma of it stands
behind a cased letter. -/
theorem cut_patterns_find_iff (hw : TakesWhole f w) (hstored : stored f.key d = some (.text w)) :
    (∀ p m s, w = p ++ m ++ s →
      (p ≠ "" → ((startsWith (.text p)).Accepts f d ↔
        KeepsSigmas [] p.toList (m.toList ++ s.toList))) ∧
      (m ≠ "" → KeepsSigmas p.toList m.toList s.toList → (containing (.text m)).Accepts f d) ∧
      (s ≠ "" → ((endsWith (.text s)).Accepts f d ↔
        KeepsSigmas (p.toList ++ m.toList) s.toList []))) ∧
    ((∀ p m s, w = p ++ m ++ s → FoundByParts f d p m s) ↔
      ∀ u v, w.toList = u ++ 'Σ' :: v → startsCased u.reverse = false) := by
  refine ⟨fun p m s hcut => accepts_parts hw hstored hcut, ?_⟩
  constructor
  · exact fun hfound u v hsigma => uncased_of_foundByParts hw hstored hfound hsigma
  · exact fun huncased p m s hcut => foundByParts_of_uncased hw hstored huncased hcut

/-- The first three letters of a name find it, although it has a capital sigma further on. -/
theorem cut_patterns_find_iff_before_sigma :
    let name : Field := ⟨"name", "name", .text, false, by decide, by decide, by decide⟩
    let d : Datum := .record [("name", .text "ΜΟΥΣΑ")]
    TakesWhole name "ΜΟΥΣΑ" ∧ stored name.key d = some (.text "ΜΟΥΣΑ") ∧
      "ΜΟΥΣΑ" = "ΜΟΥ" ++ "Σ" ++ "Α" ∧ (startsWith (.text "ΜΟΥ")).Accepts name d ∧
      ¬ ∀ p m s, "ΜΟΥΣΑ" = p ++ m ++ s → FoundByParts name d p m s := by
  intro name d
  have hword : "ΜΟΥΣΑ".toList.all isWordChar = true := by decide +kernel
  have hw : TakesWhole name "ΜΟΥΣΑ" := .inr ⟨rfl, List.all_eq_true.mp hword⟩
  obtain ⟨hparts, hall⟩ := cut_patterns_find_iff (f := name) (d := d) hw rfl
  have hkeeps : KeepsSigmas [] "ΜΟΥ".toList ("Σ".toList ++ "Α".toList) := by
    intro u v hsigma
    have hmem : 'Σ' ∈ "ΜΟΥ".toList := hsigma ▸ by simp
    exact absurd hmem (by decide)
  have hstarts := ((hparts "ΜΟΥ" "Σ" "Α" (by decide)).1 (by decide)).mpr hkeeps
  refine ⟨hw, rfl, by decide, hstarts, fun hfound => ?_⟩
  have huncased : startsCased "ΜΟΥ".toList.reverse = false := hall.mp hfound _ ['Α'] (by decide)
  exact absurd huncased (by decide +kernel)

/-- A name is not found by its own first four letters. -/
theorem name_not_found_by_its_start :
    let name : Field := ⟨"name", "name", .text, false, by decide, by decide, by decide⟩
    let d : Datum := .record [("name", .text "ΜΟΥΣΑ")]
    (∀ c ∈ "ΜΟΥΣΑ".toList, isWordChar c = true) ∧ stored name.key d = some (.text "ΜΟΥΣΑ") ∧
      "ΜΟΥΣΑ" = "ΜΟΥΣ" ++ "" ++ "Α" ∧ "ΜΟΥΣ" ≠ "" ∧ (startsWith (.text "ΜΟΥΣ")).AppliesTo name ∧
      ¬ (startsWith (.text "ΜΟΥΣ")).Accepts name d := by
  intro name d
  have hword : "ΜΟΥΣΑ".toList.all isWordChar = true := by decide +kernel
  refine ⟨List.all_eq_true.mp hword, rfl, by decide, by decide, ⟨_, rfl⟩, ?_⟩
  rintro ⟨p, hp, haccepts⟩
  cases Except.ok.inj hp
  exact absurd haccepts (by decide +kernel)

end Condition

end IndexQuery
