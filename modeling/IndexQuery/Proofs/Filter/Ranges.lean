import IndexQuery.Proofs.Filter.Shape
import IndexQuery.Proofs.Matching.Comparisons
set_option autoImplicit false

/-! # Textual ranges

A range is written with its two ends behind each other, `lo,hi`, and a comparison with a single
bound. Both read a bound in the same way, white space around it left aside. So a range with two ends
can be asked for exactly when the comparisons with each of them can (`exists_accepts_range_iff`),
and it selects what the two comparisons select together (`selects_both_ends`). A range with one open
end is the comparison with the other (`accepts_range_iff_gte`, `accepts_range_iff_lte`).

An end is open if it is blank, or the wildcard with white space around it. A comparison has no open
end: it refuses a blank, and a wildcard is no number to it (`padded_wildcard_is_open`). -/

namespace IndexQuery

namespace Filter

open Condition Predicate

variable {f : Field} {op : FilterOperator} {make : Operand → Condition} {c : Condition}
  {p q r : Predicate} {raw low high : List Char} {name word lo hi text : String}

/-! ## Comparisons -/

theorem asks_onValue_iff (hop : op.onValue? = some make) :
    Asks f op [raw] c ↔ ∃ v, operandOf f raw = .ok v ∧ make v = c := by
  constructor
  · intro h
    cases h with
    | value hmake hv =>
        cases Option.some.inj (hop.symm.trans hmake)
        exact ⟨_, hv, rfl⟩
    | list hmake _ => cases op <;> cases hop <;> cases hmake
    | text hmake => cases op <;> cases hop <;> cases hmake
    | truth _ => cases hop
  · rintro ⟨v, hv, rfl⟩
    exact .value hop hv

theorem valuesOf_onValue (hop : op.onValue? = some make) (value : List Char) :
    heard op (valuesOf op value) = [Text.trim value] := by
  cases op <;> cases hop <;> rfl

/-- A comparison asks what the bound stands for, white space around it left aside. -/
theorem accepts_onValue_iff (hop : op.onValue? = some make)
    (hword : FilterOperator.ofText word.toList = .ok op) (hcolon : ':' ∉ word.toList)
    (hname : ':' ∉ name.toList) :
    Accepts f (name ++ ":" ++ word ++ ":" ++ lo) p ↔ Text.isBlankText name.toList = false ∧
      ∃ v, operandOf f (Text.trim lo.toList) = .ok v ∧ of f (make v) = .ok p := by
  have htext : (name ++ ":" ++ word ++ ":" ++ lo).toList
      = name.toList ++ ':' :: (word.toList ++ ':' :: lo.toList) := by
    simp only [String.toList_append, List.append_assoc]
    rfl
  rw [accepts_of_written (.valued htext hname hcolon hword), valuesOf_onValue hop]
  simp only [asks_onValue_iff hop, exists_exists_and_eq_and]

/-! ## Ranges -/

theorem isOpen_trim : IsOpen (Text.trim raw) ↔ IsOpen raw := by
  unfold IsOpen
  rw [← Text.isEmpty_trim, Text.trim_trim, Text.isEmpty_trim]

/-- The ends of a range are the pieces on both sides of the comma. -/
theorem valuesOf_range (hlow : ',' ∉ low) (hhigh : ',' ∉ high) :
    valuesOf .range (low ++ ',' :: high) = [Text.trim low, Text.trim high] := by
  have hcut : (low ++ ',' :: high).splitOnP (· == ',') = [low, high] := by
    have hfree {s : List Char} (hs : ',' ∉ s) : ∀ c ∈ s, (c == ',') = false := by
      intro c hc
      exact beq_eq_false_iff_ne.mpr fun heq => hs (heq ▸ hc)
    rw [List.splitOnP_append_cons low high (by simp),
      List.splitOnP_eq_singleton (hfree hlow), List.splitOnP_eq_singleton (hfree hhigh)]
    rfl
  rw [valuesOf, trimmedPieces, hcut]
  rfl

theorem accepts_range_iff (hname : ':' ∉ name.toList) (hlo : ',' ∉ lo.toList)
    (hhi : ',' ∉ hi.toList) :
    Accepts f (name ++ ":range:" ++ lo ++ "," ++ hi) p ↔ Text.isBlankText name.toList = false ∧
      ∃ c, Asks f .range [Text.trim lo.toList, Text.trim hi.toList] c ∧ of f c = .ok p := by
  have htext : (name ++ ":range:" ++ lo ++ "," ++ hi).toList
      = name.toList ++ ':' :: ("range".toList ++ ':' :: (lo.toList ++ ',' :: hi.toList)) := by
    simp only [String.toList_append, List.append_assoc]
    rfl
  rw [accepts_of_written (.valued htext hname (by decide) (by rfl)), valuesOf_range hlo hhi]
  rfl

/-- A piece that does not leave its end open gives what it stands for. -/
theorem isEnd_trim_iff (hraw : ¬ IsOpen raw) {v : Operand} :
    IsEnd f (Text.trim raw) v ↔ operandOf f (Text.trim raw) = .ok v := by
  unfold IsEnd
  rw [isOpen_trim, Text.trim_trim]
  exact and_iff_right hraw

theorem asks_between_iff (hlow : ¬ IsOpen low) (hhigh : ¬ IsOpen high) :
    Asks f .range [Text.trim low, Text.trim high] c ↔
      ∃ a b, operandOf f (Text.trim low) = .ok a ∧ operandOf f (Text.trim high) = .ok b ∧
        c = .between a b := by
  constructor
  · intro h
    cases h with
    | list hmake _ => cases hmake
    | between ha hb => exact ⟨_, _, (isEnd_trim_iff hlow).mp ha, (isEnd_trim_iff hhigh).mp hb, rfl⟩
    | atLeast _ hopen => exact absurd (isOpen_trim.mp hopen) hhigh
    | atMost hopen _ => exact absurd (isOpen_trim.mp hopen) hlow
  · rintro ⟨a, b, ha, hb, rfl⟩
    exact .between ((isEnd_trim_iff hlow).mpr ha) ((isEnd_trim_iff hhigh).mpr hb)

theorem asks_atLeast_iff (hlow : ¬ IsOpen low) (hhigh : IsOpen high) :
    Asks f .range [Text.trim low, Text.trim high] c ↔
      ∃ a, operandOf f (Text.trim low) = .ok a ∧ .atLeast a = c := by
  constructor
  · intro h
    cases h with
    | list hmake _ => cases hmake
    | between _ hb => exact absurd hhigh (mt isOpen_trim.mpr hb.1)
    | atLeast ha _ => exact ⟨_, (isEnd_trim_iff hlow).mp ha, rfl⟩
    | atMost hopen _ => exact absurd (isOpen_trim.mp hopen) hlow
  · rintro ⟨a, ha, rfl⟩
    exact .atLeast ((isEnd_trim_iff hlow).mpr ha) (isOpen_trim.mpr hhigh)

theorem asks_atMost_iff (hlow : IsOpen low) (hhigh : ¬ IsOpen high) :
    Asks f .range [Text.trim low, Text.trim high] c ↔
      ∃ b, operandOf f (Text.trim high) = .ok b ∧ .atMost b = c := by
  constructor
  · intro h
    cases h with
    | list hmake _ => cases hmake
    | between ha _ => exact absurd hlow (mt isOpen_trim.mpr ha.1)
    | atLeast _ hopen => exact absurd (isOpen_trim.mp hopen) hhigh
    | atMost _ hb => exact ⟨_, (isEnd_trim_iff hhigh).mp hb, rfl⟩
  · rintro ⟨b, hb, rfl⟩
    exact .atMost (isOpen_trim.mpr hlow) ((isEnd_trim_iff hhigh).mpr hb)

/-! ## Two ends -/

section

variable (hname : ':' ∉ name.toList) (hlo : ',' ∉ lo.toList) (hhi : ',' ∉ hi.toList)

include hname

theorem accepts_gte_iff : Accepts f (name ++ ":gte:" ++ lo) p ↔
    Text.isBlankText name.toList = false ∧
      ∃ a, operandOf f (Text.trim lo.toList) = .ok a ∧ of f (.atLeast a) = .ok p := by
  have htext : name ++ ":gte:" ++ lo = name ++ ":" ++ "gte" ++ ":" ++ lo := by
    simp only [String.append_assoc]
    rfl
  rw [htext]
  exact accepts_onValue_iff rfl (by rfl) (by decide) hname

theorem accepts_lte_iff : Accepts f (name ++ ":lte:" ++ hi) p ↔
    Text.isBlankText name.toList = false ∧
      ∃ b, operandOf f (Text.trim hi.toList) = .ok b ∧ of f (.atMost b) = .ok p := by
  have htext : name ++ ":lte:" ++ hi = name ++ ":" ++ "lte" ++ ":" ++ hi := by
    simp only [String.append_assoc]
    rfl
  rw [htext]
  exact accepts_onValue_iff rfl (by rfl) (by decide) hname

include hlo hhi

theorem accepts_closed_range_iff (hlow : ¬ IsOpen lo.toList) (hhigh : ¬ IsOpen hi.toList) :
    Accepts f (name ++ ":range:" ++ lo ++ "," ++ hi) p ↔ Text.isBlankText name.toList = false ∧
      ∃ a b, operandOf f (Text.trim lo.toList) = .ok a ∧
        operandOf f (Text.trim hi.toList) = .ok b ∧ of f (.between a b) = .ok p := by
  rw [accepts_range_iff hname hlo hhi]
  simp only [asks_between_iff hlow hhigh]
  refine and_congr_right fun _ => ?_
  constructor
  · rintro ⟨_, ⟨a, b, ha, hb, rfl⟩, hp⟩
    exact ⟨a, b, ha, hb, hp⟩
  · rintro ⟨a, b, ha, hb, hp⟩
    exact ⟨_, ⟨a, b, ha, hb, rfl⟩, hp⟩

/-- A range with two ends can be asked for where the comparisons with both ends can. -/
theorem exists_accepts_range_iff (hlow : ¬ IsOpen lo.toList) (hhigh : ¬ IsOpen hi.toList) :
    (∃ p, Accepts f (name ++ ":range:" ++ lo ++ "," ++ hi) p) ↔
      (∃ q, Accepts f (name ++ ":gte:" ++ lo) q) ∧ ∃ r, Accepts f (name ++ ":lte:" ++ hi) r := by
  simp only [accepts_closed_range_iff hname hlo hhi hlow hhigh, accepts_gte_iff hname,
    accepts_lte_iff hname]
  have hends (a b : Operand) : (between a b).AppliesTo f ↔
      (atLeast a).AppliesTo f ∧ (atMost b).AppliesTo f := by
    rw [appliesTo_between_iff, appliesTo_comparison_iff (c := atLeast a) rfl rfl,
      appliesTo_comparison_iff (c := atMost b) rfl rfl]
  constructor
  · rintro ⟨p, hvisible, a, b, ha, hb, hp⟩
    obtain ⟨⟨q, hq⟩, r, hr⟩ := (hends a b).mp ⟨p, hp⟩
    exact ⟨⟨q, hvisible, a, ha, hq⟩, r, hvisible, b, hb, hr⟩
  · rintro ⟨⟨q, hvisible, a, ha, hq⟩, r, -, b, hb, hr⟩
    obtain ⟨p, hp⟩ := (hends a b).mpr ⟨⟨q, hq⟩, r, hr⟩
    exact ⟨p, hvisible, a, b, ha, hb, hp⟩

/-- It then selects what both comparisons select together. -/
theorem selects_both_ends (hlow : ¬ IsOpen lo.toList) (hhigh : ¬ IsOpen hi.toList)
    (hp : Accepts f (name ++ ":range:" ++ lo ++ "," ++ hi) p)
    (hq : Accepts f (name ++ ":gte:" ++ lo) q) (hr : Accepts f (name ++ ":lte:" ++ hi) r) :
    (∀ d, (compile [p]).accepts d = true ↔
      (compile [q]).accepts d = true ∧ (compile [r]).accepts d = true) ∧
    ∀ docs, (compile [p]).select docs = (compile [q, r]).select docs := by
  obtain ⟨-, a, b, ha, hb, hp⟩ := (accepts_closed_range_iff hname hlo hhi hlow hhigh).mp hp
  obtain ⟨-, a', ha', hq⟩ := (accepts_gte_iff hname).mp hq
  obtain ⟨-, b', hb', hr⟩ := (accepts_lte_iff hname).mp hr
  -- a bound is read in the same way wherever it stands
  cases Except.ok.inj (ha.symm.trans ha')
  cases Except.ok.inj (hb.symm.trans hb')
  obtain ⟨⟨x, hax⟩, y, hby⟩ := appliesTo_between_iff.mp ⟨p, hp⟩
  have hboth (d : Datum) : (compile [p]).accepts d = true ↔
      (compile [q]).accepts d = true ∧ (compile [r]).accepts d = true := by
    rw [← accepts_iff_of_of hp, ← accepts_iff_of_of hq, ← accepts_iff_of_of hr]
    exact accepts_between hax hby
  have hclauses : p.clause? = none ∧ q.clause? = none ∧ r.clause? = none :=
    ⟨clause?_of_types rfl hp, clause?_of_types rfl hq, clause?_of_types rfl hr⟩
  refine ⟨hboth, Tree.select_congr (fun d => ?_) ?_⟩
  · rw [Bool.eq_iff_iff, hboth d, accepts_compile [q, r]]
    simp [lastClause, hclauses]
  · simp [clause?_compile, lastClause, hclauses]

end

/-! ## One end -/

section

variable (hname : ':' ∉ name.toList) (hlo : ',' ∉ lo.toList) (hhi : ',' ∉ hi.toList)

include hname hlo hhi

/-- A range whose upper end is open is the comparison with its lower one. -/
theorem accepts_range_iff_gte (hlow : ¬ IsOpen lo.toList) (hhigh : IsOpen hi.toList) :
    Accepts f (name ++ ":range:" ++ lo ++ "," ++ hi) p ↔ Accepts f (name ++ ":gte:" ++ lo) p := by
  rw [accepts_range_iff hname hlo hhi, accepts_gte_iff hname]
  simp only [asks_atLeast_iff hlow hhigh, exists_exists_and_eq_and]

/-- A range whose lower end is open is the comparison with its upper one. -/
theorem accepts_range_iff_lte (hlow : IsOpen lo.toList) (hhigh : ¬ IsOpen hi.toList) :
    Accepts f (name ++ ":range:" ++ lo ++ "," ++ hi) p ↔ Accepts f (name ++ ":lte:" ++ hi) p := by
  rw [accepts_range_iff hname hlo hhi, accepts_lte_iff hname]
  simp only [asks_atMost_iff hlow hhigh, exists_exists_and_eq_and]

end

/-! ## Ranges and comparisons -/

/-- How ranges and comparisons split, as conditions and as texts. A range is met where both its ends
are, a closed end where the open one is or the operand itself; where the field reads as a number
exactly one of below, equal and above is met, and otherwise none; and inequality is met where
equality is not. A textual range with two ends can be asked for where the comparisons with both can,
and selects what they select together; with one end open it is the comparison with the other. -/
theorem ranges_decompose (f : Field) :
    (∀ a b, (atLeast a).AppliesTo f → (atLeast b).AppliesTo f →
      ((between a b).AppliesTo f ∧ (greaterThan a).AppliesTo f ∧ (lessThan a).AppliesTo f ∧
        (atMost a).AppliesTo f ∧ (atMost b).AppliesTo f ∧ (equal a).AppliesTo f ∧
        (notEqual a).AppliesTo f) ∧
      ∀ d,
        ((between a b).Accepts f d ↔ (atLeast a).Accepts f d ∧ (atMost b).Accepts f d) ∧
        ((atLeast a).Accepts f d ↔ (greaterThan a).Accepts f d ∨ (equal a).Accepts f d) ∧
        ((atMost a).Accepts f d ↔ (lessThan a).Accepts f d ∨ (equal a).Accepts f d) ∧
        ((∃ y, numberAt? f d = some y ∧ y.isNaN = false) →
          OneOfThree ((lessThan a).Accepts f d) ((equal a).Accepts f d)
            ((greaterThan a).Accepts f d)) ∧
        ((¬ ∃ y, numberAt? f d = some y ∧ y.isNaN = false) →
          ¬ (lessThan a).Accepts f d ∧ ¬ (equal a).Accepts f d ∧ ¬ (greaterThan a).Accepts f d) ∧
        ((notEqual a).Accepts f d ↔ ¬ (equal a).Accepts f d)) ∧
    ∀ name lo hi : String, ':' ∉ name.toList → ',' ∉ lo.toList → ',' ∉ hi.toList →
      (¬ IsOpen lo.toList → ¬ IsOpen hi.toList →
        ((∃ p, Accepts f (name ++ ":range:" ++ lo ++ "," ++ hi) p) ↔
          (∃ q, Accepts f (name ++ ":gte:" ++ lo) q) ∧
            ∃ r, Accepts f (name ++ ":lte:" ++ hi) r) ∧
        ∀ p q r, Accepts f (name ++ ":range:" ++ lo ++ "," ++ hi) p →
          Accepts f (name ++ ":gte:" ++ lo) q → Accepts f (name ++ ":lte:" ++ hi) r →
          (∀ d, (compile [p]).accepts d = true ↔
            (compile [q]).accepts d = true ∧ (compile [r]).accepts d = true) ∧
          ∀ docs, (compile [p]).select docs = (compile [q, r]).select docs) ∧
      (¬ IsOpen lo.toList → IsOpen hi.toList → ∀ p,
        (Accepts f (name ++ ":range:" ++ lo ++ "," ++ hi) p ↔
          Accepts f (name ++ ":gte:" ++ lo) p)) ∧
      (IsOpen lo.toList → ¬ IsOpen hi.toList → ∀ p,
        (Accepts f (name ++ ":range:" ++ lo ++ "," ++ hi) p ↔
          Accepts f (name ++ ":lte:" ++ hi) p)) := by
  refine ⟨fun a b ha hb => ?_, fun name lo hi hname hlo hhi => ?_⟩
  · obtain ⟨x, hax⟩ := (appliesTo_comparison_iff rfl rfl).mp ha
    obtain ⟨y, hby⟩ := (appliesTo_comparison_iff rfl rfl).mp hb
    refine ⟨appliesTo_all hax hby, fun d => ⟨accepts_between hax hby, accepts_atLeast hax,
      accepts_atMost hax, ?_, accepts_none_of_three hax, accepts_notEqual_of_isComparand hax⟩⟩
    rintro ⟨z, hz, hnumber⟩
    exact oneOfThree_accepts hax hz hnumber
  · refine ⟨fun hlow hhigh => ⟨?_, fun p q r hp hq hr => ?_⟩, fun hlow hhigh p => ?_,
      fun hlow hhigh p => ?_⟩
    · exact exists_accepts_range_iff hname hlo hhi hlow hhigh
    · exact selects_both_ends hname hlo hhi hlow hhigh hp hq hr
    · exact accepts_range_iff_gte hname hlo hhi hlow hhigh
    · exact accepts_range_iff_lte hname hlo hhi hlow hhigh

/-- A day in an offset of one hour up to a later day, both ends with white space around them, and an
age that is written as a text. -/
theorem ranges_decompose_leap_day :
    let day : Field := ⟨"day", "day", .date, false, by decide, by decide, by decide⟩
    let age : Field := ⟨"age", "age", .numeric, false, by decide, by decide, by decide⟩
    let lo := " 2024-02-29T00:30:00+01:00"
    let hi := "2024-03-01 "
    let noon : Datum := .record [("day", .int 1709208000000)]
    let three : Datum := .record [("age", .text " 3.0 ")]
    ':' ∉ "day".toList ∧ ',' ∉ lo.toList ∧ ',' ∉ hi.toList ∧ ¬ IsOpen lo.toList ∧
      ¬ IsOpen hi.toList ∧
      (∃ p, Accepts day ("day" ++ ":range:" ++ lo ++ "," ++ hi) p ∧
        (compile [p]).accepts noon = true) ∧
      IsOpen " * ".toList ∧
      (∃ p, Accepts day ("day" ++ ":range:" ++ " * " ++ "," ++ hi) p) ∧
      (∃ p, Accepts day ("day" ++ ":range:" ++ lo ++ "," ++ " * ") p) ∧
      (atLeast (.int 3)).AppliesTo age ∧ numberAt? age three = some (Double.ofInt 3) ∧
      (atLeast (.int 3)).Accepts age three ∧ ¬ (greaterThan (.int 3)).Accepts age three := by
  intro day age lo hi noon three
  have hlow : ¬ IsOpen lo.toList := by unfold IsOpen; decide
  have hhigh : ¬ IsOpen hi.toList := by unfold IsOpen; decide
  have hopen : IsOpen " * ".toList := .inr (by decide)
  have hgte : ∃ q, Accepts day ("day" ++ ":gte:" ++ lo) q ∧ (compile [q]).accepts noon = true :=
    ⟨⟨day, .greaterThanOrEqual, .term (.numeric (.atLeast (Double.ofInt 1709163000000)))⟩,
      ⟨⟨"day", .gte, ["2024-02-29T00:30:00+01:00"]⟩, by decide +kernel, by decide +kernel⟩,
      by decide +kernel⟩
  have hlte : ∃ r, Accepts day ("day" ++ ":lte:" ++ hi) r ∧ (compile [r]).accepts noon = true :=
    ⟨⟨day, .lessThanOrEqual, .term (.numeric (.atMost (Double.ofInt 1709251200000)))⟩,
      ⟨⟨"day", .lte, ["2024-03-01"]⟩, by decide +kernel, by decide +kernel⟩, by decide +kernel⟩
  obtain ⟨q, hq, hqnoon⟩ := hgte
  obtain ⟨r, hr, hrnoon⟩ := hlte
  obtain ⟨-, htexts⟩ := ranges_decompose day
  obtain ⟨hclosed, -, -⟩ := htexts "day" lo hi (by decide) (by decide) (by decide)
  obtain ⟨hexists, hselects⟩ := hclosed hlow hhigh
  obtain ⟨p, hp⟩ := hexists.mpr ⟨⟨q, hq⟩, r, hr⟩
  have hnoon : (compile [p]).accepts noon = true :=
    ((hselects p q r hp hq hr).1 noon).mpr ⟨hqnoon, hrnoon⟩
  obtain ⟨-, -, hbelow⟩ := htexts "day" " * " hi (by decide) (by decide) (by decide)
  obtain ⟨-, habove, -⟩ := htexts "day" lo " * " (by decide) (by decide) (by decide)
  have hage : (atLeast (.int 3)).AppliesTo age :=
    ⟨⟨age, .greaterThanOrEqual, .term (.numeric (.atLeast (Double.ofInt 3)))⟩, by decide +kernel⟩
  have hnumber : numberAt? age three = some (Double.ofInt 3) := by decide +kernel
  obtain ⟨-, hconditions⟩ := (ranges_decompose age).1 (.int 3) (.int 3) hage hage
  obtain ⟨-, hsplit, -, hpartition, -⟩ := hconditions three
  have hequal : (equal (.int 3)).Accepts age three :=
    ⟨⟨age, .equal, .term (.numeric (.exact (Double.ofInt 3)))⟩, by decide +kernel,
      by decide +kernel⟩
  have hnotAbove : ¬ (greaterThan (.int 3)).Accepts age three := by
    rcases hpartition ⟨_, hnumber, Double.isNaN_ofInt 3⟩ with
      ⟨-, -, hnot⟩ | ⟨-, -, hnot⟩ | ⟨-, hnot, -⟩
    · exact hnot
    · exact hnot
    · exact absurd hequal hnot
  exact ⟨by decide, by decide, by decide, hlow, hhigh, ⟨p, hp, hnoon⟩, hopen,
    ⟨r, (hbelow hopen hhigh r).mpr hr⟩, ⟨q, (habove hlow hopen q).mpr hq⟩, hage, hnumber,
    hsplit.mpr (.inr hequal), hnotAbove⟩

/-- A wildcard with white space around it is neither a blank nor the wildcard, and contains no
comma. As the lower end of a range it leaves the end open, but a comparison with it is refused. -/
theorem padded_wildcard_is_open :
    let age : Field := ⟨"age", "age", .numeric, false, by decide, by decide, by decide⟩
    let lo := " * "
    Text.isBlankText lo.toList = false ∧ lo ≠ "*" ∧ ',' ∉ lo.toList ∧
      (∃ p, Accepts age ("age" ++ ":range:" ++ lo ++ "," ++ "5") p) ∧
      ¬ ((∃ q, Accepts age ("age" ++ ":gte:" ++ lo) q) ∧
        ∃ r, Accepts age ("age" ++ ":lte:" ++ "5") r) := by
  intro age lo
  have hrange : ∃ p, Accepts age ("age" ++ ":range:" ++ lo ++ "," ++ "5") p :=
    ⟨⟨age, .lessThanOrEqual, .term (.numeric (.atMost (Double.ofInt 5)))⟩,
      ⟨"age", .range, ["*", "5"]⟩, by decide +kernel, by decide +kernel⟩
  refine ⟨by decide, by decide, by decide, hrange, ?_⟩
  rintro ⟨⟨q, filter, hfilter, hq⟩, -⟩
  have hread : ofText ("age" ++ ":gte:" ++ lo) = .ok ⟨"age", .gte, ["*"]⟩ := by decide +kernel
  rw [hread] at hfilter
  cases Except.ok.inj hfilter
  have hrefused : predicate age ⟨"age", .gte, ["*"]⟩
      = .error (.invalidRequest (.badNumber "*")) := by decide +kernel
  rw [hrefused] at hq
  cases hq

end Filter

end IndexQuery
