import IndexQuery.Predicate
import IndexQuery.Proofs.Number.Decimals
set_option autoImplicit false

/-! # Decimals in queries

A decimal is encoded as the number its conversion gives, whatever the field
(`numericOperand_decimal`). For decimals of at most 28 digits, at most 22 of them after the point,
that number is close to the decimal, and where the digits survive it is the nearest one: the query
is then the same as for the floating-point number of the same digits
(`decimals_become_close_doubles`). Beyond, a decimal can miss the number that a float of the same
digits names (`decimal_beside_nearest_double`). -/

namespace IndexQuery

namespace Encoding

variable {f : Field} {v w : Operand} {x : Double} {d : Decimal}

/-- An operand that stands for a number is encoded as it. -/
theorem numericOperand_of_number? (f : Field) (hv : number? v = some x)
    (hx : x.isFinite = true) : numericOperand f v = .ok x := by
  rw [numericOperand, hv]
  simp only [Double.isNaN_of_isFinite hx, Bool.false_eq_true, if_false]

theorem numericOperand_decimal (f : Field) (hd : d.IsShort) :
    numericOperand f (.decimal d) = .ok d.toDouble :=
  numericOperand_of_number? f rfl (Decimal.isFinite_toDouble hd)

theorem numericOperand_float (f : Field) (hx : x.isFinite = true) :
    numericOperand f (.float x) = .ok x :=
  numericOperand_of_number? f rfl hx

/-- On a field that holds numbers an equality depends on the number only. -/
theorem equalityLiteral_eq (hf : f.type = .numeric ∨ f.type = .date) (op : Operator)
    (h : numericOperand f v = numericOperand f w) :
    equalityLiteral f op v = equalityLiteral f op w := by
  unfold equalityLiteral
  rcases hf with hf | hf <;> rw [hf, h]

/-- So does the end of a range, for operands that are never empty. -/
theorem boundOf_eq (op : Operator) (hv : v.isEmpty = false) (hw : w.isEmpty = false)
    (h : numericOperand f v = numericOperand f w) :
    Predicate.boundOf f op v = Predicate.boundOf f op w := by
  unfold Predicate.boundOf
  rw [hv, hw, h]

/-- A decimal of at most 28 digits, at most 22 of them after the point, becomes a number whose error
is at most one part in `2 ^ 50`. Where its digits survive no number is closer, and equalities and
bounds are those of the number nearest to the same digits, with the sign that the decimal has in
double precision. -/
theorem decimals_become_close_doubles (f : Field) (hd : d.IsShort) :
    ∃ r, numericOperand f (.decimal d) = .ok r ∧ r.isFinite = true ∧
      |r.toRat - d.toRat| ≤ |d.toRat| / 2 ^ 50 ∧
      (d.IsKept →
        (∀ y : Double, y.isFinite = true → |r.toRat - d.toRat| ≤ |y.toRat - d.toRat|) ∧
        r = Double.ofDecimal d.signed d.mantissa (-d.scale) ∧
        ∀ op, Predicate.boundOf f op (.decimal d) = Predicate.boundOf f op (.float r) ∧
          (f.type = .numeric ∨ f.type = .date →
            equalityLiteral f op (.decimal d) = equalityLiteral f op (.float r))) := by
  have hfinite := Decimal.isFinite_toDouble hd
  have hsame : numericOperand f (.decimal d) = numericOperand f (.float d.toDouble) :=
    (numericOperand_decimal f hd).trans (numericOperand_float f hfinite).symm
  refine ⟨d.toDouble, numericOperand_decimal f hd, hfinite, Decimal.toDouble_error hd,
    fun hkept => ⟨fun y _ => Decimal.toDouble_closest hd hkept y,
      Decimal.toDouble_eq_ofDecimal hd hkept, fun op => ⟨?_, fun hf => ?_⟩⟩⟩
  · exact boundOf_eq op rfl rfl hsame
  · exact equalityLiteral_eq hf op hsame

/-- One cent, and sixteen digits with one place. -/
theorem decimals_become_close_doubles_cents :
    let price : Field := ⟨"price", "price", .numeric, false, by decide, by decide, by decide⟩
    let cents : Decimal := ⟨true, 1, 2⟩
    let large : Decimal := ⟨false, 9008552152509239, 1⟩
    cents.IsShort ∧ cents.IsKept ∧
      numericOperand price (.decimal cents) = .ok (Double.ofDecimal true 1 (-2)) ∧
      (∀ y : Double, y.isFinite = true →
        |(Double.ofDecimal true 1 (-2)).toRat - cents.toRat| ≤ |y.toRat - cents.toRat|) ∧
      equalityLiteral price .equal (.decimal cents)
        = equalityLiteral price .equal (.float (Double.ofDecimal true 1 (-2))) ∧
      large.IsShort ∧
      ∃ r, numericOperand price (.decimal large) = .ok r ∧
        |r.toRat - large.toRat| ≤ |large.toRat| / 2 ^ 50 := by
  intro price cents large
  have hcents : cents.IsShort := ⟨by decide, by decide⟩
  have hlarge : large.IsShort := ⟨by decide, by decide⟩
  have hkept : cents.IsKept := .inr (by decide)
  obtain ⟨r, hr, -, -, hnearest⟩ := decimals_become_close_doubles price hcents
  obtain ⟨hclosest, hdigits, hsame⟩ := hnearest hkept
  obtain ⟨s, hs, -, hclose, -⟩ := decimals_become_close_doubles price hlarge
  have hr' : r = Double.ofDecimal true 1 (-2) := hdigits
  rw [hr'] at hr hclosest hsame
  exact ⟨hcents, hkept, hr, hclosest, (hsame .equal).2 (.inl rfl), hlarge, s, hs, hclose⟩

/-- With sixteen digits an amount can miss by a cent: a closer number exists, and it is the one that
a float of the same digits asks for. -/
theorem decimal_beside_nearest_double :
    let price : Field := ⟨"price", "price", .numeric, false, by decide, by decide, by decide⟩
    let amount : Decimal := ⟨false, 3518462536127745, 2⟩
    let nearest : Double := Double.ofDecimal false 3518462536127745 (-2)
    amount.IsShort ∧ nearest.isFinite = true ∧
      ∃ r, numericOperand price (.decimal amount) = .ok r ∧
        |nearest.toRat - amount.toRat| < |r.toRat - amount.toRat| ∧
        equalityLiteral price .equal (.decimal amount)
          ≠ equalityLiteral price .equal (.float nearest) := by
  intro price amount nearest
  have hshort : amount.IsShort := ⟨by decide, by decide⟩
  have hfinite : nearest.isFinite = true := by decide +kernel
  have hdouble := numericOperand_decimal price hshort
  refine ⟨hshort, hfinite, amount.toDouble, hdouble, ?_, ?_⟩
  · decide +kernel
  · unfold equalityLiteral
    rw [hdouble, numericOperand_float price hfinite]
    decide +kernel

end Encoding

end IndexQuery
