import IndexQuery.Proofs.Encoding.Checks
import IndexQuery.Proofs.Matching.Modes
set_option autoImplicit false

/-! # Comparisons with numbers

A numeric or a date field is compared with an operand in seven ways. All of them turn the operand
into the same number (`IsComparand`), so they take the same operands, and what they say of a
document is said by the number the field reads as (`numberAt?`): the five ways that ask for a single
range are one lemma (`Compares.accepts_iff`).

Among numbers the ranges below, at and above an operand leave no gap and do not overlap
(`NumericRange.partition`), and a range with two ends is what its ends have in common. So the
comparisons partition the documents whose field reads as a number (`oneOfThree_accepts`), and a
closed end is an open end or equality (`accepts_atLeast`, `accepts_atMost`). A document without a
number, or with one that is not a number, meets none of them but inequality. -/

namespace IndexQuery

/-- Exactly one of three statements holds. -/
def OneOfThree (p q r : Prop) : Prop :=
  p ∧ ¬ q ∧ ¬ r ∨ ¬ p ∧ q ∧ ¬ r ∨ ¬ p ∧ ¬ q ∧ r

/-! ## Ranges -/

namespace NumericRange

variable {low high x y : Double}

theorem contains_exact_iff :
    (exact x).contains y = true ↔ x.isNaN = false ∧ y.isNaN = false ∧ x.rank = y.rank := by
  have hcontains : (exact x).contains y = true ↔ x.le y = true ∧ y.le x = true :=
    Bool.and_eq_true_iff
  rw [hcontains, Double.le_iff, Double.le_iff]
  constructor
  · rintro ⟨⟨hx, hy, hle⟩, -, -, hge⟩
    exact ⟨hx, hy, by omega⟩
  · rintro ⟨hx, hy, hrank⟩
    exact ⟨⟨hx, hy, by omega⟩, hy, hx, by omega⟩

theorem contains_greaterThan : (greaterThan x).contains y = x.lt y := Bool.and_true _

theorem contains_atLeast : (atLeast x).contains y = x.le y := Bool.and_true _

theorem contains_lessThan : (lessThan x).contains y = y.lt x := Bool.true_and _

theorem contains_atMost : (atMost x).contains y = y.le x := Bool.true_and _

/-- A range with two ends is what its ends have in common. -/
theorem contains_between_iff : (between low high).contains y = true ↔
    (atLeast low).contains y = true ∧ (atMost high).contains y = true := by
  rw [contains_atLeast, contains_atMost]
  exact Bool.and_eq_true_iff

/-- A closed end is an open end together with the number at it. -/
theorem contains_atLeast_iff : (atLeast x).contains y = true ↔
    (greaterThan x).contains y = true ∨ (exact x).contains y = true := by
  rw [contains_atLeast, contains_greaterThan, contains_exact_iff, Double.le_iff, Double.lt_iff]
  constructor
  · rintro ⟨hx, hy, hrank⟩
    rcases Int.lt_or_eq_of_le hrank with hlt | heq
    · exact .inl ⟨hx, hy, hlt⟩
    · exact .inr ⟨hx, hy, heq⟩
  · rintro (⟨hx, hy, hlt⟩ | ⟨hx, hy, heq⟩)
    · exact ⟨hx, hy, Int.le_of_lt hlt⟩
    · exact ⟨hx, hy, Int.le_of_eq heq⟩

theorem contains_atMost_iff : (atMost x).contains y = true ↔
    (lessThan x).contains y = true ∨ (exact x).contains y = true := by
  rw [contains_atMost, contains_lessThan, contains_exact_iff, Double.le_iff, Double.lt_iff]
  constructor
  · rintro ⟨hy, hx, hrank⟩
    rcases Int.lt_or_eq_of_le hrank with hlt | heq
    · exact .inl ⟨hy, hx, hlt⟩
    · exact .inr ⟨hx, hy, heq.symm⟩
  · rintro (⟨hy, hx, hlt⟩ | ⟨hx, hy, heq⟩)
    · exact ⟨hy, hx, Int.le_of_lt hlt⟩
    · exact ⟨hy, hx, Int.le_of_eq heq.symm⟩

/-- A number lies below, at or above another one. -/
theorem partition (hx : x.isNaN = false) (hy : y.isNaN = false) :
    OneOfThree ((lessThan x).contains y = true) ((exact x).contains y = true)
      ((greaterThan x).contains y = true) := by
  have hbelow : (lessThan x).contains y = true ↔ y.rank < x.rank := by
    rw [contains_lessThan, Double.lt_iff]
    simp [hx, hy]
  have hat : (exact x).contains y = true ↔ x.rank = y.rank := by
    rw [contains_exact_iff]
    simp [hx, hy]
  have habove : (greaterThan x).contains y = true ↔ x.rank < y.rank := by
    rw [contains_greaterThan, Double.lt_iff]
    simp [hx, hy]
  rw [hbelow, hat, habove]
  unfold OneOfThree
  omega

/-- What is not a number lies in no range that has an end. -/
theorem contains_of_isNaN {r : NumericRange} (hr : r.lower = .unbounded → r.upper ≠ .unbounded)
    (hy : y.isNaN = true) : r.contains y = false := by
  obtain ⟨lower, upper⟩ := r
  cases lower with
  | unbounded =>
      cases upper with
      | unbounded => exact absurd rfl (hr rfl)
      | inclusive b => simp [contains, Bound.admitsBelow, Double.le, hy]
      | exclusive b => simp [contains, Bound.admitsBelow, Double.lt, hy]
  | inclusive a => simp [contains, Bound.admitsAbove, Double.le, hy]
  | exclusive a => simp [contains, Bound.admitsAbove, Double.lt, hy]

end NumericRange

namespace Condition

open Encoding Matching Predicate

variable {f : Field} {d : Datum} {a b v : Operand} {x y : Double} {op : Operator}
  {make : Operand → Condition} {range : Double → NumericRange}

/-! ## Operands -/

/-- An operator on numbers and dates is defined for these types. -/
theorem supports_iff_of_types {type : FieldType} (hop : op.types = [.numeric, .date]) :
    op.supports type = true ↔ type = .numeric ∨ type = .date := by
  rw [Operator.supports, hop]
  cases type <;> decide

theorem supports_equal (hf : f.type = .numeric ∨ f.type = .date) :
    Operator.equal.supports f.type = true := by
  rcases hf with hf | hf <;> rw [hf] <;> rfl

/-- The operand can be compared with the field, as a number. -/
structure IsComparand (f : Field) (v : Operand) (x : Double) : Prop where
  type : f.type = .numeric ∨ f.type = .date
  given : v.isEmpty = false
  encoded : numericOperand f v = .ok x

theorem IsComparand.isNaN (h : IsComparand f v x) : x.isNaN = false :=
  isNaN_of_numericOperand h.encoded

theorem boundOf_eq_ok_iff :
    boundOf f op v = .ok x ↔ v.isEmpty = false ∧ numericOperand f v = .ok x := by
  unfold boundOf
  cases v.isEmpty <;> simp

theorem isComparand_iff (hf : f.type = .numeric ∨ f.type = .date) :
    IsComparand f v x ↔ boundOf f op v = .ok x := by
  rw [boundOf_eq_ok_iff]
  exact ⟨fun h => ⟨h.given, h.encoded⟩, fun ⟨hv, hx⟩ => ⟨hf, hv, hx⟩⟩

/-! ## Comparisons with one operand -/

/-- The conditions that compare a field with one operand, and the ranges they ask for. -/
inductive Compares : (Operand → Condition) → (Double → NumericRange) → Prop
  | equal : Compares .equal .exact
  | greaterThan : Compares .greaterThan .greaterThan
  | atLeast : Compares .atLeast .atLeast
  | lessThan : Compares .lessThan .lessThan
  | atMost : Compares .atMost .atMost

/-- The ranges have an end. -/
theorem Compares.bounded (h : Compares make range) (x : Double) :
    (range x).lower = .unbounded → (range x).upper ≠ .unbounded := by
  cases h with
  | equal | greaterThan | atLeast =>
      intro hlower
      cases hlower
  | lessThan | atMost =>
      intro _ hupper
      cases hupper

theorem Compares.supports (h : Compares make range) (hf : f.type = .numeric ∨ f.type = .date) :
    (make v).operator.supports f.type = true := by
  cases h with
  | equal => exact supports_equal hf
  | greaterThan | atLeast | lessThan | atMost => exact (supports_iff_of_types rfl).mpr hf

/-- The criterion of a comparison is the range that starts or ends at the number of its operand. -/
theorem Compares.criterionOf (h : Compares make range)
    (hf : f.type = .numeric ∨ f.type = .date) (hv : v.isEmpty = false) :
    criterionOf f (make v) = (numericOperand f v).map fun x => .term (.numeric (range x)) := by
  have hbound : ∀ op, boundOf f op v = numericOperand f v := fun op => by rw [boundOf, hv]; rfl
  have hliteral : ∀ op, equalityLiteral f op v =
      (numericOperand f v).map fun x => .numeric (.exact x) := by
    intro op
    rcases hf with hf | hf <;> rw [equalityLiteral, hf]
  cases h with
  | equal =>
      show unlessEmpty f .equal v ((equalityLiteral f .equal v).map .term) = _
      rw [unlessEmpty_of_isEmpty_eq_false hv, hliteral]
      cases numericOperand f v <;> rfl
  | greaterThan | atLeast | lessThan | atMost =>
      show (boundOf f _ v).map _ = _
      rw [hbound]

/-- A comparison can be asked of the operands that stand for a number. Equality takes an empty
operand too, which then asks for nothing. -/
theorem Compares.appliesTo_iff (h : Compares make range) (hf : f.type = .numeric ∨ f.type = .date)
    (hv : v.isEmpty = false) : (make v).AppliesTo f ↔ ∃ x, IsComparand f v x := by
  rw [appliesTo_iff_of_map (h.supports hf) (h.criterionOf hf hv)]
  exact ⟨fun ⟨x, hx⟩ => ⟨x, hf, hv, hx⟩, fun ⟨x, hx⟩ => ⟨x, hx.encoded⟩⟩

theorem Compares.appliesTo (h : Compares make range) (hv : IsComparand f v x) :
    (make v).AppliesTo f :=
  (h.appliesTo_iff hv.type hv.given).mpr ⟨x, hv⟩

/-- The number a field reads as in a document. -/
def numberAt? (f : Field) (d : Datum) : Option Double := (stored f.key d).bind numberOf

/-- A comparison is met by the numbers in its range. -/
theorem Compares.accepts_iff (h : Compares make range) (hv : IsComparand f v x) :
    (make v).Accepts f d ↔ ∃ y, numberAt? f d = some y ∧ (range x).contains y = true := by
  rw [accepts_iff_of_map (h.supports hv.type) (h.criterionOf hv.type hv.given) hv.encoded]
  show (numberAt? f d).any (range x).contains = true ↔ _
  rw [Option.any_eq_true]

variable {c : Condition} {criterion : Criterion}

/-- Except for equality, a comparison with one operand refuses an operand that is empty. -/
theorem appliesTo_comparison_iff (hop : c.operator.types = [.numeric, .date])
    (hc : criterionOf f c = comparison f c.operator v range) :
    c.AppliesTo f ↔ ∃ x, IsComparand f v x := by
  constructor
  · rintro ⟨p, hp⟩
    obtain ⟨hsupported, criterion, hcriterion, -⟩ := of_eq_ok_iff.mp hp
    have hf : f.type = .numeric ∨ f.type = .date := (supports_iff_of_types hop).mp hsupported
    obtain ⟨x, hx, -⟩ := map_eq_ok (hc ▸ hcriterion)
    exact ⟨x, (isComparand_iff hf).mpr hx⟩
  · rintro ⟨x, hx⟩
    rw [appliesTo_iff ((supports_iff_of_types hop).mpr hx.type), hc, comparison,
      (isComparand_iff hx.type).mp hx]
    exact ⟨_, rfl⟩

/-- What is asked with an operator on numbers and dates is a range. -/
theorem exists_range (hop : c.operator.types = [.numeric, .date])
    (h : criterionOf f c = .ok criterion) : ∃ r, criterion = .term (.numeric r) := by
  cases c with
  | between lower upper =>
      obtain ⟨low, -, hrest⟩ := bind_eq_ok h
      obtain ⟨high, -, hrange⟩ := bind_eq_ok hrest
      exact ⟨_, (Except.ok.inj hrange).symm⟩
  | greaterThan v | atLeast v | lessThan v | atMost v =>
      obtain ⟨x, -, hrange⟩ := map_eq_ok h
      exact ⟨_, hrange.symm⟩
  | _ => cases hop

theorem clause?_of_types {p : Predicate} (hop : c.operator.types = [.numeric, .date])
    (h : of f c = .ok p) : p.clause? = none := by
  obtain ⟨r, hr⟩ := exists_range hop (of_eq_ok h).2.2
  rw [Predicate.clause?, hr]

/-- The predicate of a condition decides whether the condition is met. -/
theorem accepts_iff_of_of {p : Predicate} (h : of f c = .ok p) :
    c.Accepts f d ↔ (compile [p]).accepts d = true := by
  constructor
  · rintro ⟨p', hp', haccepts⟩
    cases Except.ok.inj (h.symm.trans hp')
    exact haccepts
  · exact fun haccepts => ⟨p, h, haccepts⟩

/-! ## Ranges with two ends -/

theorem criterionOf_between (ha : IsComparand f a x) (hb : IsComparand f b y) :
    criterionOf f (between a b) = .ok (.term (.numeric (.between x y))) := by
  have hlow : boundOf f .between a = .ok x := (isComparand_iff ha.type).mp ha
  have hhigh : boundOf f .between b = .ok y := (isComparand_iff hb.type).mp hb
  show (boundOf f .between a).bind (fun low => (boundOf f .between b).bind _) = _
  rw [hlow, hhigh]
  rfl

theorem appliesTo_between_iff :
    (between a b).AppliesTo f ↔ (∃ x, IsComparand f a x) ∧ ∃ y, IsComparand f b y := by
  constructor
  · rintro ⟨p, hp⟩
    obtain ⟨hsupported, criterion, hcriterion, -⟩ := of_eq_ok_iff.mp hp
    have hf : f.type = .numeric ∨ f.type = .date := (supports_iff_of_types rfl).mp hsupported
    obtain ⟨x, hx, hrest⟩ := bind_eq_ok hcriterion
    obtain ⟨y, hy, -⟩ := bind_eq_ok hrest
    exact ⟨⟨x, (isComparand_iff hf).mpr hx⟩, y, (isComparand_iff hf).mpr hy⟩
  · rintro ⟨⟨x, ha⟩, y, hb⟩
    have hcriterion := criterionOf_between ha hb
    rw [appliesTo_iff (c := between a b) ((supports_iff_of_types rfl).mpr ha.type)]
    exact ⟨_, hcriterion⟩

theorem accepts_between_iff (ha : IsComparand f a x) (hb : IsComparand f b y) :
    (between a b).Accepts f d ↔
      ∃ z, numberAt? f d = some z ∧ (NumericRange.between x y).contains z = true := by
  rw [accepts_iff_of_criterionOf (c := between a b) ((supports_iff_of_types rfl).mpr ha.type)
    (criterionOf_between ha hb)]
  show (numberAt? f d).any _ = true ↔ _
  rw [Option.any_eq_true]

/-! ## How comparisons split -/

/-- A document meets a range with two ends exactly when it meets both ends. -/
theorem accepts_between (ha : IsComparand f a x) (hb : IsComparand f b y) :
    (between a b).Accepts f d ↔ (atLeast a).Accepts f d ∧ (atMost b).Accepts f d := by
  rw [accepts_between_iff ha hb, Compares.atLeast.accepts_iff ha, Compares.atMost.accepts_iff hb]
  constructor
  · rintro ⟨z, hz, hcontains⟩
    obtain ⟨hlow, hhigh⟩ := NumericRange.contains_between_iff.mp hcontains
    exact ⟨⟨z, hz, hlow⟩, z, hz, hhigh⟩
  · rintro ⟨⟨z, hz, hlow⟩, z', hz', hhigh⟩
    -- the field reads as one number only
    cases Option.some.inj (hz.symm.trans hz')
    exact ⟨z, hz, NumericRange.contains_between_iff.mpr ⟨hlow, hhigh⟩⟩

theorem accepts_atLeast (ha : IsComparand f a x) :
    (atLeast a).Accepts f d ↔ (greaterThan a).Accepts f d ∨ (equal a).Accepts f d := by
  rw [Compares.atLeast.accepts_iff ha, Compares.greaterThan.accepts_iff ha,
    Compares.equal.accepts_iff ha, ← exists_or]
  simp only [NumericRange.contains_atLeast_iff, and_or_left]

theorem accepts_atMost (ha : IsComparand f a x) :
    (atMost a).Accepts f d ↔ (lessThan a).Accepts f d ∨ (equal a).Accepts f d := by
  rw [Compares.atMost.accepts_iff ha, Compares.lessThan.accepts_iff ha,
    Compares.equal.accepts_iff ha, ← exists_or]
  simp only [NumericRange.contains_atMost_iff, and_or_left]

/-- A comparison of a field that reads as a number is judged by this number. -/
theorem Compares.accepts_iff_of_numberAt? (h : Compares make range) (hv : IsComparand f v x)
    (hy : numberAt? f d = some y) : (make v).Accepts f d ↔ (range x).contains y = true := by
  rw [h.accepts_iff hv, hy]
  simp

/-- A field that reads as a number lies below, at or above an operand. -/
theorem oneOfThree_accepts (ha : IsComparand f a x) (hy : numberAt? f d = some y)
    (hnumber : y.isNaN = false) : OneOfThree ((lessThan a).Accepts f d) ((equal a).Accepts f d)
      ((greaterThan a).Accepts f d) := by
  rw [Compares.lessThan.accepts_iff_of_numberAt? ha hy,
    Compares.equal.accepts_iff_of_numberAt? ha hy,
    Compares.greaterThan.accepts_iff_of_numberAt? ha hy]
  exact NumericRange.partition ha.isNaN hnumber

/-- A field that does not read as a number meets no comparison. -/
theorem Compares.not_accepts (h : Compares make range) (hv : IsComparand f v x)
    (hd : ∀ y, numberAt? f d = some y → y.isNaN = true) : ¬ (make v).Accepts f d := by
  rw [h.accepts_iff hv]
  rintro ⟨y, hy, hcontains⟩
  rw [NumericRange.contains_of_isNaN (h.bounded x) (hd y hy)] at hcontains
  cases hcontains

/-- Operands that can be compared in one way can be compared in every way. -/
theorem appliesTo_all (ha : IsComparand f a x) (hb : IsComparand f b y) :
    (between a b).AppliesTo f ∧ (greaterThan a).AppliesTo f ∧ (lessThan a).AppliesTo f ∧
      (atMost a).AppliesTo f ∧ (atMost b).AppliesTo f ∧ (equal a).AppliesTo f ∧
      (notEqual a).AppliesTo f := by
  have hequal : (equal a).AppliesTo f := Compares.equal.appliesTo ha
  exact ⟨appliesTo_between_iff.mpr ⟨⟨x, ha⟩, y, hb⟩, Compares.greaterThan.appliesTo ha,
    Compares.lessThan.appliesTo ha, Compares.atMost.appliesTo ha, Compares.atMost.appliesTo hb,
    hequal, (appliesTo_notEqual (supports_equal ha.type) ha.given).mpr hequal⟩

theorem accepts_notEqual_of_isComparand (ha : IsComparand f a x) :
    (notEqual a).Accepts f d ↔ ¬ (equal a).Accepts f d :=
  accepts_notEqual (supports_equal ha.type) ha.given (Compares.equal.appliesTo ha)

/-- Where the field does not read as a number, none of below, equal and above is met. -/
theorem accepts_none_of_three (ha : IsComparand f a x)
    (hnone : ¬ ∃ y, numberAt? f d = some y ∧ y.isNaN = false) :
    ¬ (lessThan a).Accepts f d ∧ ¬ (equal a).Accepts f d ∧ ¬ (greaterThan a).Accepts f d := by
  have hd : ∀ y, numberAt? f d = some y → y.isNaN = true := by
    intro y hy
    by_contra hnumber
    exact hnone ⟨y, hy, by simpa using hnumber⟩
  exact ⟨Compares.lessThan.not_accepts ha hd, Compares.equal.not_accepts ha hd,
    Compares.greaterThan.not_accepts ha hd⟩

end Condition

end IndexQuery
