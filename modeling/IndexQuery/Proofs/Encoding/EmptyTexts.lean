import IndexQuery.Filter.Condition
import IndexQuery.Proofs.Encoding.Encoded
import IndexQuery.QueryText.Rendering
set_option autoImplicit false

/-! # Where empty texts come from

An empty operand asks for nothing, but the rule for empty operands looks at an operand as a whole.
A list with the empty text as a member is not empty, and the member is encoded like any other. This
is the only way in which a predicate comes to ask for the empty text or tag
(`empty_text_iff_listed`): patterns and single values are never empty, and textual filters drop the
empty pieces of a list. -/

namespace IndexQuery

/-- The literal asks for the empty text or the empty tag. -/
def Literal.IsEmptyText : Literal → Prop
  | text _ s => s = ""
  | tag _ s => s = ""
  | _ => False

theorem Literal.not_isEmptyText_boolean (flag : Bool) : ¬ (boolean flag).IsEmptyText := by
  intro hempty
  have hword : (if flag then "true" else "false") = "" := hempty
  cases flag <;> exact absurd hword (by decide)

namespace Encoding

open QueryText (fieldRef)

variable {f : Field} {op : Operator} {v : Operand}

/-! ## Single encodings -/

/-- Of the operands that have a text, only the empty text has no characters. -/
theorem stringOperand_eq_empty_iff {s : String} (h : stringOperand f v = .ok s) :
    s = "" ↔ v = .text "" := by
  constructor
  · rintro rfl
    cases v with
    | text t => rw [Except.ok.inj h]
    | int n => exact absurd rfl (stringOperand_ne_empty rfl h)
    | _ => cases h
  · rintro rfl
    exact (Except.ok.inj h).symm

/-- A literal for equality is empty exactly when the operand is the empty text. -/
theorem isEmptyText_equalityLiteral_iff {l : Literal} (h : equalityLiteral f op v = .ok l) :
    l.IsEmptyText ↔ v = .text "" := by
  cases encodesValue_of_equalityLiteral h with
  | text hf hs => exact stringOperand_eq_empty_iff hs
  | tag hf hs => exact stringOperand_eq_empty_iff hs
  | number hf hx =>
      refine iff_of_false id ?_
      rintro rfl
      cases hx
  | truth hf hb =>
      refine iff_of_false (Literal.not_isEmptyText_boolean _) ?_
      rintro rfl
      cases hb

/-- The literal of the empty text is written as an empty phrase or an empty tag. -/
theorem term_of_isEmptyText {key : String} {l : Literal} (h : equalityLiteral f op v = .ok l)
    (hempty : l.IsEmptyText) :
    QueryText.term key l = fieldRef key.toList ++ [':', '"', '"'] ∨
      QueryText.term key l = fieldRef key.toList ++ [':', '\x7b', '\x7d'] := by
  cases encodesValue_of_equalityLiteral h with
  | text hf hs =>
      cases hempty
      exact .inl rfl
  | tag hf hs =>
      cases hempty
      exact .inr rfl
  | number hf hx => exact hempty.elim
  | truth hf hb => exact absurd hempty (Literal.not_isEmptyText_boolean _)

/-- A literal for a pattern has characters. -/
theorem not_isEmptyText_patternLiteral {mode : TextMode} {l : Literal} (hv : v.isEmpty = false)
    (h : patternLiteral f op v mode = .ok l) : ¬ l.IsEmptyText := by
  cases encodesPattern_of_patternLiteral h with
  | text hf hs => exact stringOperand_ne_empty hv hs
  | tag hf hmode hs => exact stringOperand_ne_empty hv hs

end Encoding

open Encoding

/-! ## Conditions -/

/-- A literal is empty only if it stands for the empty text among the members of a list. -/
theorem Literal.ComesFrom.mem_listed {f : Field} {c : Condition} {l : Literal}
    (h : l.ComesFrom f c) (hempty : l.IsEmptyText) : .text "" ∈ c.listed := by
  cases h with
  | equality hv hkept h =>
      have htext := (isEmptyText_equalityLiteral_iff h).mp hempty
      rcases hkept with hne | hlisted
      · rw [htext] at hne
        cases hne
      · exact htext ▸ hlisted
  | pattern hc hv h => exact absurd hempty (not_isEmptyText_patternLiteral hv h)
  | range hop hr => exact hempty.elim
  | truth flag hop => exact absurd hempty (not_isEmptyText_boolean flag)
  | missing hop => exact hempty.elim
  | circle hop h => exact hempty.elim

namespace Predicate

variable {f : Field} {c : Condition}

/-- The members of a list are encoded one by one. -/
theorem mapM_of_listed {criterion : Criterion} {v : Operand} (hv : v ∈ c.listed)
    (h : criterionOf f c = .ok criterion) :
    c.listed.mapM (equalityLiteral f c.operator) = .ok criterion.literals := by
  -- a list with a member is not empty, so the rule for empty operands does not apply
  have hlist : ∀ (op : Operator) (vs : List Operand) (make : List Literal → Criterion),
      v ∈ vs → (∀ ls, (make ls).literals = ls) →
      unlessEmpty f op (.list vs) ((memberLiterals f op (.list vs)).map make) = .ok criterion →
      vs.mapM (equalityLiteral f op) = .ok criterion.literals := by
    intro op vs make hv hmake h
    rcases unlessEmpty_eq_ok h with ⟨hempty, _⟩ | ⟨_, h⟩
    · rw [List.isEmpty_iff.mp hempty] at hv
      cases hv
    · obtain ⟨ls, hls, rfl⟩ := map_eq_ok h
      rw [hmake]
      exact hls
  unfold Condition.listed at hv ⊢
  split at hv
  · exact hlist .isIn _ .anyOf hv (fun _ => rfl) h
  · exact hlist .notIn _ .noneOf hv (fun _ => rfl) h
  · exact hlist .containsAll _ .allOf hv (fun _ => rfl) h
  · cases hv

/-- A predicate asks for the empty text exactly when it stems from a list with the empty text as a
member. -/
theorem exists_isEmptyText_iff {p : Predicate} (h : of f c = .ok p) :
    (∃ l ∈ p.criterion.literals, l.IsEmptyText) ↔ .text "" ∈ c.listed := by
  obtain ⟨_, _, hcriterion⟩ := of_eq_ok h
  have hsources := (comesFrom_criterionOf hcriterion).literals
  constructor
  · rintro ⟨l, hl, hempty⟩
    exact (hsources l hl).mem_listed hempty
  · intro hmem
    obtain ⟨l, hl, hone⟩ := exists_result_of_mem (mapM_of_listed hmem hcriterion) hmem
    exact ⟨l, hl, (isEmptyText_equalityLiteral_iff hone).mpr rfl⟩

end Predicate

/-! ## Textual filters -/

namespace Filter

variable {f : Field}

theorem dateOf_ne_text {raw : List Char} {s : String} : dateOf raw ≠ .ok (.text s) := by
  intro h
  unfold dateOf at h
  split at h
  · cases h
  · split at h
    · cases h
    · split at h <;> cases h

/-- A value of a filter is never read as the empty text. -/
theorem operandOf_ne_empty {raw : List Char} {v : Operand} (h : operandOf f raw = .ok v) :
    v ≠ .text "" := by
  rintro rfl
  -- the texts that are kept are not blank
  have htext : (Text.trim raw).isEmpty = false → String.ofList raw ≠ "" := by
    rintro hblank hempty
    rw [String.ofList_eq_empty_iff.mp hempty] at hblank
    cases hblank
  unfold operandOf at h
  cases hblank : (Text.trim raw).isEmpty with
  | true =>
      simp only [hblank, if_true] at h
      cases h
  | false =>
      simp only [hblank, Bool.false_eq_true, if_false] at h
      cases htype : f.type <;> simp only [htype] at h
      case text => exact htext hblank (Operand.text.inj (Except.ok.inj h))
      case tag => exact htext hblank (Operand.text.inj (Except.ok.inj h))
      case numeric =>
        split at h
        · cases h
        · obtain ⟨x, _, hx⟩ := map_eq_ok h
          cases hx
      case boolean =>
        obtain ⟨b, _, hb⟩ := map_eq_ok h
        cases hb
      case date => exact dateOf_ne_text h
      case geo => cases h
      case vector => cases h

theorem listed_of_rangeCondition {filter : Filter} {c : Condition}
    (h : rangeCondition f filter = .ok c) : c.listed = [] := by
  obtain ⟨lower, _, h⟩ := bind_eq_ok h
  obtain ⟨upper, _, h⟩ := bind_eq_ok h
  cases lower <;> cases upper <;> cases h <;> rfl

theorem listed_of_nearCondition {filter : Filter} {c : Condition}
    (h : nearCondition f filter = .ok c) : c.listed = [] := by
  unfold nearCondition at h
  split at h
  · split at h
    · cases h
    · obtain ⟨lon, _, h⟩ := bind_eq_ok h
      obtain ⟨lat, _, h⟩ := bind_eq_ok h
      obtain ⟨radius, _, h⟩ := bind_eq_ok h
      cases h
      rfl
  · cases h

/-- No list in the condition of a filter has the empty text as a member. -/
theorem empty_not_mem_listed {filter : Filter} {c : Condition}
    (h : filter.condition f = .ok c) : .text "" ∉ c.listed := by
  have hnone : c.listed = [] → .text "" ∉ c.listed := by
    intro hlisted
    rw [hlisted]
    exact List.not_mem_nil
  have hsingle : ∀ {make : Operand → Condition}, (∀ v, (make v).listed = []) →
      (operandOf f filter.firstValue).map make = .ok c → .text "" ∉ c.listed := by
    intro make hmake h
    obtain ⟨v, _, rfl⟩ := map_eq_ok h
    exact hnone (hmake v)
  have hmany : ∀ {make : Operand → Condition}, (∀ vs, (make (.list vs)).listed = vs) →
      ((filter.rawValues.mapM (operandOf f)).map Operand.list).map make = .ok c →
      .text "" ∉ c.listed := by
    intro make hmake h
    obtain ⟨v, hv, rfl⟩ := map_eq_ok h
    obtain ⟨vs, hvs, rfl⟩ := map_eq_ok hv
    rw [hmake]
    intro hmem
    obtain ⟨raw, _, hraw⟩ := exists_of_mem_mapM hvs hmem
    exact operandOf_ne_empty hraw rfl
  unfold condition at h
  cases hop : filter.operator <;> simp only [hop] at h
  case isIn => exact hmany (fun _ => rfl) h
  case notIn => exact hmany (fun _ => rfl) h
  case all => exact hmany (fun _ => rfl) h
  case range => exact hnone (listed_of_rangeCondition h)
  case near => exact hnone (listed_of_nearCondition h)
  case bool =>
    obtain ⟨b, _, rfl⟩ := map_eq_ok h
    cases b <;> exact hnone rfl
  case missing => cases h; exact hnone rfl
  case starts => cases h; exact hnone rfl
  case ends => cases h; exact hnone rfl
  case contains => cases h; exact hnone rfl
  case fuzzy => cases h; exact hnone rfl
  all_goals exact hsingle (fun _ => rfl) h

end Filter

/-! ## Predicates -/

namespace Predicate

open QueryText (fieldRef)

/-- A predicate asks for the empty text or tag exactly when it stems from a list with the empty text
as a member. It is then written as an empty phrase or an empty tag. A textual filter never leads to
such a predicate. -/
theorem empty_text_iff_listed (f : Field) :
    (∀ (c : Condition) (p : Predicate), of f c = .ok p →
      ((∃ l ∈ p.criterion.literals, l.IsEmptyText) ↔ .text "" ∈ c.listed) ∧
      ∀ l ∈ p.criterion.literals, l.IsEmptyText →
        QueryText.term f.key l = fieldRef f.key.toList ++ [':', '"', '"'] ∨
        QueryText.term f.key l = fieldRef f.key.toList ++ [':', '\x7b', '\x7d']) ∧
    ∀ (filter : Filter) (p : Predicate), filter.predicate f = .ok p →
      ∀ l ∈ p.criterion.literals, ¬ l.IsEmptyText := by
  refine ⟨fun c p h => ⟨exists_isEmptyText_iff h, fun l hl hempty => ?_⟩,
    fun filter p h l hl hempty => ?_⟩
  · have hmem := (exists_isEmptyText_iff h).mp ⟨l, hl, hempty⟩
    obtain ⟨_, _, hcriterion⟩ := of_eq_ok h
    obtain ⟨v, _, hone⟩ := exists_of_mem_mapM (mapM_of_listed hmem hcriterion) hl
    exact term_of_isEmptyText hone hempty
  · obtain ⟨c, hc, h⟩ := bind_eq_ok h
    exact Filter.empty_not_mem_listed hc ((exists_isEmptyText_iff h).mp ⟨l, hl, hempty⟩)

/-- The empty tag next to another one in a list, and the same written as a textual filter. -/
theorem empty_text_iff_listed_tags :
    let tags : Field := ⟨"tags", "tags", .tag, false, by decide, by decide, by decide⟩
    let listed : Predicate := ⟨tags, .isIn, .anyOf [.tag .exact "", .tag .exact "x"]⟩
    let filtered : Predicate := ⟨tags, .isIn, .anyOf [.tag .exact "x"]⟩
    of tags (.isIn (.list [.text "", .text "x"])) = .ok listed ∧
      Filter.ofText "tags:in:|x" = .ok ⟨"tags", .isIn, ["x"]⟩ ∧
      Filter.predicate tags ⟨"tags", .isIn, ["x"]⟩ = .ok filtered ∧
      (∃ l ∈ listed.criterion.literals, l.IsEmptyText) ∧
      ∀ l ∈ filtered.criterion.literals, ¬ l.IsEmptyText := by
  intro tags listed filtered
  have hlisted : of tags (.isIn (.list [.text "", .text "x"])) = .ok listed := rfl
  have hfiltered : Filter.predicate tags ⟨"tags", .isIn, ["x"]⟩ = .ok filtered := rfl
  have hmem : .text "" ∈ (Condition.isIn (.list [.text "", .text "x"])).listed :=
    List.mem_cons_self
  exact ⟨hlisted, rfl, hfiltered, ((empty_text_iff_listed tags).1 _ _ hlisted).1.mpr hmem,
    (empty_text_iff_listed tags).2 _ _ hfiltered⟩

/-- A list with the empty text as its only member is not taken as empty: it asks for the empty tag,
whereas the empty text on its own asks for nothing. -/
theorem list_of_empty_text_asks_for_empty_tag :
    let tags : Field := ⟨"tags", "tags", .tag, false, by decide, by decide, by decide⟩
    (∃ p, of tags (.isIn (.list [.text ""])) = .ok p ∧
      (∃ l ∈ p.criterion.literals, l.IsEmptyText) ∧
      ((compile [p]).rendered SearchConfig.default).query = "@tags:\x7b\x7d") ∧
    ∃ p, of tags (.isIn (.text "")) = .ok p ∧ p.criterion = .unconstrained := by
  intro tags
  refine ⟨⟨⟨tags, .isIn, .anyOf [.tag .exact ""]⟩, rfl, ⟨_, List.mem_cons_self, rfl⟩, ?_⟩,
    _, rfl, rfl⟩
  decide +kernel

end Predicate

end IndexQuery
