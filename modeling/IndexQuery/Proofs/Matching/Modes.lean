import IndexQuery.Proofs.Matching.Edits
import IndexQuery.Proofs.Matching.EqualityFamily
set_option autoImplicit false

/-! # Modes and their strength

A text is asked for as a whole, as the start, the end or a part of what is stored, or up to one
edit; `Condition.inMode` is the condition of a mode. On a text field such a condition compares the
words, on a tag field the tags (`accepts_inMode_text`, `accepts_inMode_tag`).

Equality is stronger than every other mode, and to start or to end with a text is stronger than to
contain it (`TextMode.Stronger`): what meets a text in a mode meets it in every weaker one, however
many words the text has and however many tags are stored (`stronger_mode_implies_weaker`). -/

namespace IndexQuery

/-! ## Runs -/

namespace Matching

theorem hasRun_iff {α : Type} [BEq α] [LawfulBEq α] {run xs : List α} :
    hasRun run xs = true ↔ run <:+: xs := by
  induction xs with
  | nil => rw [hasRun, List.isEmpty_iff, List.infix_nil]
  | cons x xs ih =>
      rw [hasRun, Bool.or_eq_true, List.isPrefixOf_iff_prefix, ih, List.infix_cons_iff]

end Matching

/-! ## The order of the modes -/

/-- The first mode is at least as strong as the second one. -/
inductive TextMode.Stronger : TextMode → TextMode → Prop
  | exact (mode : TextMode) : Stronger .exact mode
  | starts : Stronger .starts .contains
  | ends : Stronger .ends .contains

/-- The first mode is at least as strong as the second one. -/
inductive TagMode.Stronger : TagMode → TagMode → Prop
  | exact (mode : TagMode) : Stronger .exact mode
  | starts : Stronger .starts .contains
  | ends : Stronger .ends .contains

/-- Every other mode than likeness is one of tags too. -/
theorem exists_tagMode {mode : TextMode} (h : mode ≠ .fuzzy) :
    ∃ tagged, Encoding.tagMode? mode = some tagged := by
  cases mode with
  | fuzzy => exact absurd rfl h
  | _ => exact ⟨_, rfl⟩

/-- The modes of tags have the order of the modes of texts. -/
theorem TextMode.Stronger.tagMode {mode mode' : TextMode} {tagged tagged' : TagMode}
    (h : mode.Stronger mode') (htagged : Encoding.tagMode? mode = some tagged)
    (htagged' : Encoding.tagMode? mode' = some tagged') : tagged.Stronger tagged' := by
  cases h with
  | exact mode =>
      cases htagged
      exact .exact tagged'
  | starts =>
      cases htagged
      cases htagged'
      exact .starts
  | ends =>
      cases htagged
      cases htagged'
      exact .ends

namespace Matching

variable {wanted present : List (List Char)} {pattern text tag : List Char}

theorem meetsStarts_of_subset (h : ∀ w ∈ wanted, w ∈ present) :
    meetsStarts present wanted = true := by
  fun_induction meetsStarts present wanted with
  | case1 => rfl
  | case2 w =>
      have hw : w ∈ present := h w List.mem_cons_self
      exact List.any_eq_true.mpr ⟨w, hw, List.isPrefixOf_iff_prefix.mpr List.prefix_rfl⟩
  | case3 w rest _ ih =>
      have hw : w ∈ present := h w List.mem_cons_self
      rw [Bool.and_eq_true]
      exact ⟨List.contains_iff_mem.mpr hw, ih fun v hv => h v (List.mem_cons_of_mem w hv)⟩

theorem meetsEnds_of_subset (h : ∀ w ∈ wanted, w ∈ present) :
    meetsEnds present wanted = true := by
  cases wanted with
  | nil => rfl
  | cons w rest =>
      have hw : w ∈ present := h w List.mem_cons_self
      rw [meetsEnds, Bool.and_eq_true, List.all_eq_true]
      refine ⟨?_, fun v hv => List.contains_iff_mem.mpr (h v (List.mem_cons_of_mem w hv))⟩
      exact List.any_eq_true.mpr ⟨w, hw, List.isSuffixOf_iff_suffix.mpr List.suffix_rfl⟩

theorem exists_infix_of_meetsStarts (h : meetsStarts present wanted = true) :
    ∀ w ∈ wanted, ∃ p ∈ present, w <:+: p := by
  fun_induction meetsStarts present wanted with
  | case1 => simp
  | case2 w =>
      obtain ⟨p, hp, hprefix⟩ := List.any_eq_true.mp h
      intro v hv
      rw [List.mem_singleton.mp hv]
      exact ⟨p, hp, (List.isPrefixOf_iff_prefix.mp hprefix).isInfix⟩
  | case3 w rest _ ih =>
      -- all words but the last one are looked for as a whole
      obtain ⟨hw, hrest⟩ := Bool.and_eq_true_iff.mp h
      intro v hv
      rcases List.mem_cons.mp hv with rfl | hv
      · exact ⟨v, List.contains_iff_mem.mp hw, List.infix_rfl⟩
      · exact ih hrest v hv

theorem exists_infix_of_meetsEnds (h : meetsEnds present wanted = true) :
    ∀ w ∈ wanted, ∃ p ∈ present, w <:+: p := by
  cases wanted with
  | nil => simp
  | cons w rest =>
      rw [meetsEnds, Bool.and_eq_true, List.all_eq_true] at h
      obtain ⟨hw, hrest⟩ := h
      obtain ⟨p, hp, hsuffix⟩ := List.any_eq_true.mp hw
      intro v hv
      rcases List.mem_cons.mp hv with rfl | hv
      · exact ⟨p, hp, (List.isSuffixOf_iff_suffix.mp hsuffix).isInfix⟩
      · exact ⟨v, List.contains_iff_mem.mp (hrest v hv), List.infix_rfl⟩

/-! ## Matching in a mode -/

theorem textMatches_exact_iff :
    textMatches .exact pattern text = true ↔
      words pattern ≠ [] ∧ words pattern <:+: words text := by
  cases hwords : words pattern with
  | nil => simp [textMatches, hwords]
  | cons w rest => simp [textMatches, hwords, hasRun_iff]

theorem textMatches_starts (pattern text : List Char) :
    textMatches .starts pattern text = meetsStarts (words text) (words pattern) := by
  cases hwords : words pattern with
  | nil => simp [textMatches, hwords, meetsStarts]
  | cons w rest => simp [textMatches, hwords]

theorem textMatches_ends (pattern text : List Char) :
    textMatches .ends pattern text = meetsEnds (words text) (words pattern) := by
  cases hwords : words pattern with
  | nil => simp [textMatches, hwords, meetsEnds]
  | cons w rest => simp [textMatches, hwords]

/-- Each word of the pattern is a part of a word of the text. -/
theorem textMatches_contains_iff : textMatches .contains pattern text = true ↔
    ∀ w ∈ words pattern, ∃ p ∈ words text, w <:+: p := by
  cases hwords : words pattern with
  | nil => simp [textMatches, hwords]
  | cons w rest => simp [textMatches, hwords, hasRun_iff]

/-- Words that stand in the text as a phrase meet it in every mode. -/
theorem textMatches_of_exact (mode : TextMode) (h : textMatches .exact pattern text = true) :
    textMatches mode pattern text = true := by
  have hpresent : ∀ w ∈ words pattern, w ∈ words text := (textMatches_exact_iff.mp h).2.subset
  cases mode with
  | exact => exact h
  | starts =>
      rw [textMatches_starts]
      exact meetsStarts_of_subset hpresent
  | ends =>
      rw [textMatches_ends]
      exact meetsEnds_of_subset hpresent
  | contains => exact textMatches_contains_iff.mpr fun w hw => ⟨w, hpresent w hw, List.infix_rfl⟩
  | fuzzy => exact (textMatches_fuzzy_iff _ _).mpr fun w hw => ⟨w, hpresent w hw, .inl rfl⟩

/-- What meets a text in a mode meets it in every weaker mode. -/
theorem textMatches_of_stronger {mode mode' : TextMode} (h : mode.Stronger mode')
    (hmatches : textMatches mode pattern text = true) : textMatches mode' pattern text = true := by
  cases h with
  | exact => exact textMatches_of_exact mode' hmatches
  | starts =>
      rw [textMatches_starts] at hmatches
      exact textMatches_contains_iff.mpr (exists_infix_of_meetsStarts hmatches)
  | ends =>
      rw [textMatches_ends] at hmatches
      exact textMatches_contains_iff.mpr (exists_infix_of_meetsEnds hmatches)

theorem tagMatches_exact_iff {wanted : List Char} :
    tagMatches .exact wanted tag = true ↔ tag = Text.lowercase wanted := beq_iff_eq

/-- A tag that meets a text in a mode meets it in every weaker mode. -/
theorem tagMatches_of_stronger {mode mode' : TagMode} {wanted : List Char}
    (h : mode.Stronger mode') (hmatches : tagMatches mode wanted tag = true) :
    tagMatches mode' wanted tag = true := by
  cases h with
  | exact =>
      rw [tagMatches_exact_iff] at hmatches
      cases mode' with
      | exact => exact tagMatches_exact_iff.mpr hmatches
      | starts => exact List.isPrefixOf_iff_prefix.mpr (hmatches ▸ List.prefix_rfl)
      | ends => exact List.isSuffixOf_iff_suffix.mpr (hmatches ▸ List.suffix_rfl)
      | contains => exact hasRun_iff.mpr (hmatches ▸ List.infix_rfl)
  | starts => exact hasRun_iff.mpr (List.isPrefixOf_iff_prefix.mp hmatches).isInfix
  | ends => exact hasRun_iff.mpr (List.isSuffixOf_iff_suffix.mp hmatches).isInfix

/-- A tag literal is met by the values with a tag that matches it. -/
theorem termMatches_tag_iff {key wanted : String} {mode : TagMode} {doc : Datum} :
    termMatches key (.tag mode wanted) doc = true ↔
      ∃ value, stored key doc = some value ∧
        ∃ tag ∈ tagsOf value, tagMatches mode wanted.toList tag = true := by
  simp only [termMatches, literalMatches, Option.any_eq_true, List.any_eq_true]

end Matching

/-! ## Conditions in a mode -/

namespace Condition

open Encoding Matching Predicate

/-- The condition that a field meets an operand in a mode. -/
def inMode (mode : TextMode) (v : Operand) : Condition :=
  match mode with
  | .exact => equal v
  | .starts => startsWith v
  | .ends => endsWith v
  | .contains => containing v
  | .fuzzy => like v

variable {f : Field} {d : Datum} {mode mode' : TextMode} {tagged : TagMode} {v : String}

theorem supports_text (mode : TextMode) (v : Operand) :
    (inMode mode v).operator.supports .text = true := by
  cases mode <;> rfl

theorem supports_tag (hmode : tagMode? mode = some tagged) (v : Operand) :
    (inMode mode v).operator.supports .tag = true := by
  cases mode with
  | fuzzy => cases hmode
  | _ => rfl

/-- The empty text asks for nothing, in any mode. -/
theorem criterionOf_inMode_empty (f : Field) (mode : TextMode) :
    criterionOf f (inMode mode (.text "")) = .ok .unconstrained := by
  cases mode <;> rfl

theorem criterionOf_inMode_text (hf : f.type = .text) (mode : TextMode) (hv : v ≠ "") :
    criterionOf f (inMode mode (.text v)) = .ok (.term (.text mode v)) := by
  have hne : (Operand.text v).isEmpty = false := by simpa [Operand.isEmpty] using hv
  cases mode <;>
    simp [inMode, criterionOf, pattern, unlessEmpty, hne, equalityLiteral, patternLiteral, hf,
      stringOperand, Except.map]

theorem criterionOf_inMode_tag (hf : f.type = .tag) (hmode : tagMode? mode = some tagged)
    (hv : v ≠ "") : criterionOf f (inMode mode (.text v)) = .ok (.term (.tag tagged v)) := by
  have hne : (Operand.text v).isEmpty = false := by simpa [Operand.isEmpty] using hv
  cases mode <;> cases hmode <;>
    simp [inMode, criterionOf, pattern, unlessEmpty, hne, equalityLiteral, patternLiteral, hf,
      stringOperand, tagMode?, Except.map]

/-- A condition is judged by its criterion. -/
theorem accepts_iff_of_criterionOf {c : Condition} {criterion : Criterion}
    (hc : c.operator.supports f.type = true) (h : criterionOf f c = .ok criterion) :
    c.Accepts f d ↔ criterion.accepts f.key d = true := by
  rw [accepts_iff hc, h]
  constructor
  · rintro ⟨found, hfound, haccepts⟩
    cases Except.ok.inj hfound
    exact haccepts
  · exact fun haccepts => ⟨criterion, rfl, haccepts⟩

theorem accepts_inMode_text (hf : f.type = .text) (mode : TextMode) (hv : v ≠ "") :
    (inMode mode (.text v)).Accepts f d ↔
      ∃ s, stored f.key d = some (.text s) ∧ textMatches mode v.toList s.toList = true := by
  rw [accepts_iff_of_criterionOf (hf ▸ supports_text mode _) (criterionOf_inMode_text hf mode hv)]
  exact termMatches_text_iff

theorem accepts_inMode_tag (hf : f.type = .tag) (hmode : tagMode? mode = some tagged)
    (hv : v ≠ "") : (inMode mode (.text v)).Accepts f d ↔
      ∃ value, stored f.key d = some value ∧
        ∃ tag ∈ tagsOf value, tagMatches tagged v.toList tag = true := by
  rw [accepts_iff_of_criterionOf (hf ▸ supports_tag hmode _) (criterionOf_inMode_tag hf hmode hv)]
  exact termMatches_tag_iff

/-- Asked for the empty text, a field accepts every document. -/
theorem accepts_inMode_empty (hc : (inMode mode (.text "")).operator.supports f.type = true) :
    (inMode mode (.text "")).Accepts f d :=
  (accepts_iff_of_criterionOf hc (criterionOf_inMode_empty f mode)).mpr rfl

/-! ## Strength -/

/-- On a text field a condition is met wherever it is met in a stronger mode. -/
theorem accepts_text_of_stronger (hf : f.type = .text) (h : mode.Stronger mode')
    (haccepts : (inMode mode (.text v)).Accepts f d) : (inMode mode' (.text v)).Accepts f d := by
  by_cases hv : v = ""
  · rw [hv]
    exact accepts_inMode_empty (hf ▸ supports_text mode' _)
  · obtain ⟨s, hs, hmatches⟩ := (accepts_inMode_text hf mode hv).mp haccepts
    exact (accepts_inMode_text hf mode' hv).mpr ⟨s, hs, textMatches_of_stronger h hmatches⟩

/-- On a tag field too, in the modes that tags have. -/
theorem accepts_tag_of_stronger {tagged' : TagMode} (hf : f.type = .tag)
    (h : mode.Stronger mode') (hmode : tagMode? mode = some tagged)
    (hmode' : tagMode? mode' = some tagged') (haccepts : (inMode mode (.text v)).Accepts f d) :
    (inMode mode' (.text v)).Accepts f d := by
  by_cases hv : v = ""
  · rw [hv]
    exact accepts_inMode_empty (hf ▸ supports_tag hmode' _)
  · obtain ⟨value, hvalue, tag, htag, hmatches⟩ := (accepts_inMode_tag hf hmode hv).mp haccepts
    have hstronger : tagged.Stronger tagged' := h.tagMode hmode hmode'
    exact (accepts_inMode_tag hf hmode' hv).mpr
      ⟨value, hvalue, tag, htag, tagMatches_of_stronger hstronger hmatches⟩

/-- A text that is not empty is asked for in every mode that the field has. -/
theorem isConstrained_inMode {literal : Literal}
    (hc : (inMode mode (.text v)).operator.supports f.type = true)
    (h : criterionOf f (inMode mode (.text v)) = .ok (.term literal)) :
    ∃ p, of f (inMode mode (.text v)) = .ok p ∧ p.isUnconstrained = false :=
  ⟨_, of_eq_ok_iff.mpr ⟨hc, _, h, rfl⟩, rfl⟩

/-- To equal a text is to start with it, to end with it, to contain it and to be like it, and to
start or to end with it is to contain it; on tag fields there is no likeness. The text may be empty,
but then the conditions ask for nothing. -/
theorem stronger_mode_implies_weaker (f : Field) (v : String) :
    (f.type = .text →
      (v ≠ "" → ∀ mode, ∃ p, of f (inMode mode (.text v)) = .ok p ∧ p.isUnconstrained = false) ∧
      ∀ d,
        ((equal (.text v)).Accepts f d →
          (startsWith (.text v)).Accepts f d ∧ (endsWith (.text v)).Accepts f d ∧
          (containing (.text v)).Accepts f d ∧ (like (.text v)).Accepts f d) ∧
        ((startsWith (.text v)).Accepts f d ∨ (endsWith (.text v)).Accepts f d →
          (containing (.text v)).Accepts f d)) ∧
    (f.type = .tag →
      (v ≠ "" → ∀ mode ≠ .fuzzy,
        ∃ p, of f (inMode mode (.text v)) = .ok p ∧ p.isUnconstrained = false) ∧
      ∀ d,
        ((equal (.text v)).Accepts f d →
          (startsWith (.text v)).Accepts f d ∧ (endsWith (.text v)).Accepts f d ∧
          (containing (.text v)).Accepts f d) ∧
        ((startsWith (.text v)).Accepts f d ∨ (endsWith (.text v)).Accepts f d →
          (containing (.text v)).Accepts f d)) := by
  refine ⟨fun hf => ⟨fun hv mode => ?_, fun d => ⟨fun h => ?_, fun h => ?_⟩⟩,
    fun hf => ⟨fun hv mode hmode => ?_, fun d => ⟨fun h => ?_, fun h => ?_⟩⟩⟩
  · exact isConstrained_inMode (hf ▸ supports_text mode _) (criterionOf_inMode_text hf mode hv)
  · have hweaker (mode : TextMode) : (inMode mode (.text v)).Accepts f d :=
      accepts_text_of_stronger hf (.exact mode) h
    exact ⟨hweaker .starts, hweaker .ends, hweaker .contains, hweaker .fuzzy⟩
  · rcases h with h | h
    · exact accepts_text_of_stronger hf .starts h
    · exact accepts_text_of_stronger hf .ends h
  · obtain ⟨tagged, htagged⟩ := exists_tagMode hmode
    exact isConstrained_inMode (hf ▸ supports_tag htagged _) (criterionOf_inMode_tag hf htagged hv)
  · have hweaker (mode : TextMode) (tagged : TagMode) (hmode : tagMode? mode = some tagged) :
        (inMode mode (.text v)).Accepts f d :=
      accepts_tag_of_stronger hf (.exact mode) rfl hmode h
    exact ⟨hweaker .starts _ rfl, hweaker .ends _ rfl, hweaker .contains _ rfl⟩
  · rcases h with h | h
    · exact accepts_tag_of_stronger hf .starts rfl rfl h
    · exact accepts_tag_of_stronger hf .ends rfl rfl h

/-- Two words of a longer name, and the end of one of three tags. -/
theorem stronger_mode_implies_weaker_two_words :
    let name : Field := ⟨"name", "name", .text, false, by decide, by decide, by decide⟩
    let shelf : Field := ⟨"shelf", "shelf", .tag, false, by decide, by decide, by decide⟩
    let d : Datum :=
      .record [("name", .text "Dr. Jon Smith-Doe"), ("shelf", .list [.int 7, .text "b, attic"])]
    name.type = .text ∧ "jon SMITH" ≠ "" ∧ (equal (.text "jon SMITH")).Accepts name d ∧
      (startsWith (.text "jon SMITH")).Accepts name d ∧ (like (.text "jon SMITH")).Accepts name d ∧
      (∃ p, of name (like (.text "jon SMITH")) = .ok p ∧ p.isUnconstrained = false) ∧
      shelf.type = .tag ∧ (endsWith (.text "Tic")).Accepts shelf d ∧
      (containing (.text "Tic")).Accepts shelf d := by
  intro name shelf d
  have hv : "jon SMITH" ≠ "" := by decide
  obtain ⟨hconstrained, hname⟩ := (stronger_mode_implies_weaker name "jon SMITH").1 rfl
  obtain ⟨-, hshelf⟩ := (stronger_mode_implies_weaker shelf "Tic").2 rfl
  have hequal : (equal (.text "jon SMITH")).Accepts name d := ⟨_, rfl, by decide +kernel⟩
  have hends : (endsWith (.text "Tic")).Accepts shelf d := ⟨_, rfl, by decide +kernel⟩
  obtain ⟨hstarts, -, -, hlike⟩ := (hname d).1 hequal
  exact ⟨rfl, hv, hequal, hstarts, hlike, hconstrained hv .fuzzy, rfl, hends,
    (hshelf d).2 (.inr hends)⟩

end Condition

end IndexQuery
