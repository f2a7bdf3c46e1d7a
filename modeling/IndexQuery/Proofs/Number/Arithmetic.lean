import IndexQuery.Matching.Distance
import IndexQuery.Number.Decimal
import IndexQuery.Proofs.Number.Order
set_option autoImplicit false

/-! # When a result is a number

Rounding gives a number, if need be an infinite one (`isNaN_ofRatio`). So an operation on numbers
gives no number only where the exact result is undefined: for a sum, when both terms are infinite
with different signs (`isNaN_add`), and never for a square (`square_nonneg`). Terms that are not
negative have a sum, whatever their size (`isNaN_sum`), which is why squared distances are numbers
(`isNaN_l2`) while inner products need not be. Infinity itself is out of reach for a whole number of
units below the largest finite number (`nearest_lt_infinity`), so that a decimal, which is scaled by
the places it has, becomes a number (`Decimal.isNaN_toDouble`). -/

namespace IndexQuery

namespace BinaryFormat

variable (f : BinaryFormat)

/-! ## Rounding to finite numbers -/

theorem infinity_eq {row : Nat} (hrow : row + 3 = 2 ^ f.exponentBits) :
    f.infinity = row * 2 ^ f.fractionBits + 2 * 2 ^ f.fractionBits := by
  rw [← Nat.add_mul]
  unfold infinity
  congr 1
  omega

/-- Rounding a positive whole number of units does not give zero. -/
theorem nearest_pos {row : Nat} (hrow : row + 3 = 2 ^ f.exponentBits) {n : Nat} (hn : 0 < n) :
    0 < f.nearest n 1 := by
  have hplaces : 0 < 2 ^ f.fractionBits := Nat.two_pow_pos _
  have hinfinity : 0 < f.infinity := by
    rw [f.infinity_eq hrow]
    omega
  unfold nearest
  dsimp only
  rw [Nat.div_one, Nat.one_mul]
  refine Nat.lt_min.mpr ⟨?_, hinfinity⟩
  by_cases hshift : Nat.log2 n - f.fractionBits = 0
  · -- nothing is cut off
    rw [hshift, Nat.pow_zero, Nat.div_one]
    split <;> omega
  · have hfirst : 0 < (Nat.log2 n - f.fractionBits) * 2 ^ f.fractionBits :=
      Nat.mul_pos (by omega) hplaces
    omega

/-- Rounding a whole number of units below the largest finite number gives a finite number. -/
theorem nearest_lt_infinity {n row : Nat} (hrow : row + 3 = 2 ^ f.exponentBits)
    (hlt : n < (2 ^ (f.fractionBits + 1) - 1) * 2 ^ row) : f.nearest n 1 < f.infinity := by
  have hbelow := f.leading_lt n
  have hlog : Nat.log2 n < f.fractionBits + 1 + row := by
    by_cases hzero : n = 0
    · rw [hzero, Nat.log2_zero]
      omega
    · refine (Nat.log2_lt hzero).mpr (Nat.lt_of_lt_of_le hlt ?_)
      rw [Nat.pow_add 2 (f.fractionBits + 1)]
      exact Nat.mul_le_mul_right _ (Nat.sub_le _ _)
  -- only in the last row can rounding up reach the ordinal of infinity
  have hrows : Nat.log2 n - f.fractionBits = row ∧
        n / 2 ^ (Nat.log2 n - f.fractionBits) < 2 ^ (f.fractionBits + 1) - 1 ∨
      (Nat.log2 n - f.fractionBits) * 2 ^ f.fractionBits + 2 ^ f.fractionBits
        ≤ row * 2 ^ f.fractionBits := by
    by_cases hlast : Nat.log2 n - f.fractionBits = row
    · refine .inl ⟨hlast, ?_⟩
      rw [hlast]
      exact Nat.div_lt_of_lt_mul (by rwa [Nat.mul_comm])
    · refine .inr ?_
      rw [← Nat.succ_mul]
      exact Nat.mul_le_mul_right _ (by omega)
  have hplaces : 2 ^ (f.fractionBits + 1) = 2 * 2 ^ f.fractionBits := Nat.pow_succ'
  refine Nat.lt_of_le_of_lt (Nat.min_le_left _ _) ?_
  rw [Nat.div_one, Nat.one_mul, f.infinity_eq hrow]
  generalize n / 2 ^ (Nat.log2 n - f.fractionBits) = below at hbelow hrows
  rcases hrows with ⟨hlast, hbelow⟩ | hle
  · rw [hlast]
    split <;> omega
  · split <;> omega

end BinaryFormat

namespace Double

open BinaryFormat (binary64)

variable {a b x : Double}

/-! ## Signs and infinities -/

theorem infinity_lt_signWeight : binary64.infinity < binary64.signWeight := by decide

theorem isNaN_ofOrdinal_of_le (sign : Bool) {n : Nat} (hn : n ≤ binary64.infinity) :
    (ofOrdinal sign n).isNaN = false := by
  unfold isNaN
  rw [ordinal_ofOrdinal sign (Nat.lt_of_le_of_lt hn infinity_lt_signWeight)]
  exact decide_eq_false (Nat.not_lt_of_ge hn)

theorem isFinite_ofOrdinal (sign : Bool) {n : Nat} (hn : n < binary64.infinity) :
    (ofOrdinal sign n).isFinite = true := by
  unfold isFinite
  rw [ordinal_ofOrdinal sign (Nat.lt_trans hn infinity_lt_signWeight)]
  exact decide_eq_true hn

theorem isZero_ofOrdinal (sign : Bool) {n : Nat} (hpos : 0 < n) (hn : n ≤ binary64.infinity) :
    (ofOrdinal sign n).isZero = false := by
  unfold isZero
  rw [ordinal_ofOrdinal sign (Nat.lt_of_le_of_lt hn infinity_lt_signWeight)]
  exact beq_eq_false_iff_ne.mpr (Nat.ne_of_gt hpos)

theorem isInfinite_of_isFinite (hx : x.isFinite = true) : x.isInfinite = false := by
  have hlt : x.ordinal < binary64.infinity := of_decide_eq_true hx
  exact decide_eq_false (Nat.ne_of_lt hlt)

theorem isNaN_infinite (sign : Bool) : (infinite sign).isNaN = false :=
  isNaN_ofOrdinal_of_le sign (Nat.le_refl _)

theorem isNaN_zero (sign : Bool) : (zero sign).isNaN = false :=
  isNaN_ofOrdinal_of_le sign (Nat.zero_le _)

theorem isNaN_ofRatio (sign : Bool) (num den : Nat) : (ofRatio sign num den).isNaN = false :=
  isNaN_ofOrdinal_of_le sign (binary64.nearest_le_infinity num den)

theorem isNaN_ofInt (n : Int) : (ofInt n).isNaN = false :=
  isNaN_ofRatio _ _ _

theorem negative_infinite (sign : Bool) : (infinite sign).negative = sign :=
  negative_ofOrdinal sign infinity_lt_signWeight

theorem negative_zero (sign : Bool) : (zero sign).negative = sign :=
  negative_ofOrdinal sign (by decide)

theorem negative_ofRatio (sign : Bool) (num den : Nat) :
    (ofRatio sign num den).negative = sign :=
  negative_ofOrdinal sign
    (Nat.lt_of_le_of_lt (binary64.nearest_le_infinity num den) infinity_lt_signWeight)

theorem isZero_of_isInfinite (hx : x.isInfinite = true) : x.isZero = false := by
  have hordinal : x.ordinal = binary64.infinity := of_decide_eq_true hx
  unfold isZero
  rw [hordinal]
  rfl

theorem isNaN_neg (x : Double) : x.neg.isNaN = x.isNaN := isNaN_ofOrdinal _ x

theorem isNaN_signed (sign : Bool) (x : Double) :
    (if sign then x.neg else x).isNaN = x.isNaN := by
  cases sign with
  | true => exact isNaN_neg x
  | false => rfl

/-! ## Operations -/

/-- A sum is a number unless its terms are infinities of different signs. -/
theorem isNaN_add (ha : a.isNaN = false) (hb : b.isNaN = false)
    (h : a.isInfinite = true → b.isInfinite = true → a.negative = b.negative) :
    (a.add b).isNaN = false := by
  unfold add
  rw [ha, hb]
  simp only [Bool.or_self, Bool.false_eq_true, if_false]
  split
  · next hinf =>
      split
      · next hclash =>
          simp only [Bool.and_eq_true, bne_iff_ne] at hclash
          exact absurd (h hinf hclash.1) hclash.2
      · exact ha
  · split
    · exact hb
    · split
      · exact isNaN_zero _
      · exact isNaN_ofRatio _ _ _

theorem signedUnits_nonneg (hx : x.negative = false) : 0 ≤ x.signedUnits := by
  unfold signedUnits
  rw [hx]
  exact Int.natCast_nonneg _

/-- Terms that are not negative have a sum that is not negative. -/
theorem negative_add (ha : a.isNaN = false) (hb : b.isNaN = false) (hna : a.negative = false)
    (hnb : b.negative = false) : (a.add b).negative = false := by
  have hsum : ¬ a.signedUnits + b.signedUnits < 0 := by
    have := signedUnits_nonneg hna
    have := signedUnits_nonneg hnb
    omega
  unfold add
  rw [ha, hb, hna, hnb]
  simp only [Bool.or_self, Bool.false_eq_true, if_false, bne_self_eq_false, Bool.and_false]
  split
  · exact hna
  · split
    · exact hnb
    · split
      · exact negative_zero _
      · rw [negative_ofRatio]
        exact decide_eq_false hsum

/-- A square is a number that is not negative. -/
theorem square_nonneg (hx : x.isNaN = false) :
    x.square.isNaN = false ∧ x.square.negative = false := by
  have hsame : (x.negative != x.negative) = false := bne_self_eq_false _
  unfold square mul
  rw [hx, hsame]
  simp only [Bool.or_self, Bool.false_eq_true, if_false]
  split
  · next hinf =>
      rw [isZero_of_isInfinite (by simpa using hinf)]
      exact ⟨isNaN_infinite false, negative_infinite false⟩
  · exact ⟨isNaN_ofRatio _ _ _, negative_ofRatio _ _ _⟩

/-- The product with a finite number other than zero. -/
theorem isNaN_mul_of_isFinite (ha : a.isNaN = false)
    (hb : b.isFinite = true ∧ b.isZero = false) : (a.mul b).isNaN = false := by
  unfold mul
  rw [ha, isNaN_of_isFinite hb.1, isInfinite_of_isFinite hb.1, hb.2]
  simp only [Bool.or_self, Bool.or_false, Bool.false_eq_true, if_false]
  split
  · next hinf =>
      rw [isZero_of_isInfinite hinf]
      exact isNaN_infinite _
  · exact isNaN_ofRatio _ _ _

/-- The quotient by a finite number other than zero. -/
theorem isNaN_div_of_isFinite (ha : a.isNaN = false)
    (hb : b.isFinite = true ∧ b.isZero = false) : (a.div b).isNaN = false := by
  unfold div
  rw [ha, isNaN_of_isFinite hb.1, isInfinite_of_isFinite hb.1, hb.2]
  simp only [Bool.or_self, Bool.false_eq_true, if_false]
  split
  · exact isNaN_infinite _
  · exact isNaN_ofRatio _ _ _

theorem negative_div_of_isFinite (ha : a.isNaN = false)
    (hb : b.isFinite = true ∧ b.isZero = false) :
    (a.div b).negative = (a.negative != b.negative) := by
  unfold div
  rw [ha, isNaN_of_isFinite hb.1, isInfinite_of_isFinite hb.1, hb.2]
  simp only [Bool.or_self, Bool.false_eq_true, if_false]
  split
  · exact negative_infinite _
  · exact negative_ofRatio _ _ _

theorem isNaN_round (hx : x.isNaN = false) : x.round.isNaN = false := by
  unfold round
  split
  · exact isNaN_ofRatio _ _ _
  · exact hx

/-- Terms that are not negative have a sum. -/
theorem isNaN_sum {xs : List Double} (hxs : ∀ x ∈ xs, x.isNaN = false ∧ x.negative = false) :
    (sum xs).isNaN = false := by
  have hfold : ∀ start : Double, start.isNaN = false → start.negative = false →
      (xs.foldl add start).isNaN = false := by
    induction xs with
    | nil => exact fun start hstart _ => hstart
    | cons x xs ih =>
        intro start hstart hsign
        obtain ⟨hx, hnx⟩ := hxs x List.mem_cons_self
        rw [List.foldl_cons]
        exact ih (fun y hy => hxs y (List.mem_cons_of_mem _ hy)) _
          (isNaN_add hstart hx fun _ _ => hsign.trans hnx.symm)
          (negative_add hstart hx hsign hnx)
  exact hfold _ (isNaN_zero false) (negative_zero false)

end Double

namespace Single

open BinaryFormat (binary64)

/-! ## Widening -/

/-- A finite number stays finite: it is far below the largest finite number. -/
theorem isFinite_toDouble {x : Single} (hx : x.isFinite = true) : x.toDouble.isFinite = true := by
  have hwide : x.wideUnits < (2 ^ (binary64.fractionBits + 1) - 1) * 2 ^ 2045 := by
    calc x.wideUnits
        < 2 ^ (binary64.fractionBits + 1150 + 1) := (wideUnits_fits hx).1
      _ ≤ (2 ^ (binary64.fractionBits + 1) - 1) * 2 ^ 2045 := by decide +kernel
  have hordinal : binary64.nearest x.wideUnits 1 < binary64.infinity :=
    binary64.nearest_lt_infinity (by decide) hwide
  rw [toDouble, if_pos hx]
  exact Double.isFinite_ofOrdinal _ hordinal

end Single

namespace Decimal

open BinaryFormat (binary64)

/-! ## Decimals -/

/-- The powers of ten that stand for the places of a decimal are finite and not zero. -/
theorem places_proper {scale : Nat} (hscale : scale ≤ 28) :
    (Double.ofInt (10 ^ scale : Nat)).isFinite = true ∧
      (Double.ofInt (10 ^ scale : Nat)).isZero = false := by
  have hexponents : 2045 + 3 = 2 ^ binary64.exponentBits := by decide
  have hpos : 0 < 10 ^ scale * 2 ^ binary64.scale :=
    Nat.mul_pos (Nat.pow_pos (by decide)) (Nat.two_pow_pos _)
  have hlt : 10 ^ scale * 2 ^ binary64.scale < (2 ^ (binary64.fractionBits + 1) - 1) * 2 ^ 2045 := by
    calc 10 ^ scale * 2 ^ binary64.scale
        ≤ 10 ^ 28 * 2 ^ binary64.scale :=
          Nat.mul_le_mul_right _ (Nat.pow_le_pow_right (by decide) hscale)
      _ < (2 ^ (binary64.fractionBits + 1) - 1) * 2 ^ 2045 := by decide +kernel
  exact ⟨Double.isFinite_ofOrdinal _ (binary64.nearest_lt_infinity hexponents hlt),
    Double.isZero_ofOrdinal _ (binary64.nearest_pos hexponents hpos)
      (binary64.nearest_le_infinity _ _)⟩

/-- A decimal with as many places as can be read is a number in double precision. -/
theorem isNaN_toDouble {d : Decimal} (hscale : d.scale ≤ 28) : d.toDouble.isNaN = false := by
  have hplaces := places_proper hscale
  have hsign : ∀ n : Nat, (Double.ofInt n).negative = false := fun n =>
    (Double.negative_ofRatio _ _ _).trans (decide_eq_false (by omega))
  unfold toDouble
  rw [Double.isNaN_signed]
  unfold magnitudeToDouble
  dsimp only
  split
  · exact Double.isNaN_ofInt _
  · -- the whole part and the fraction are not negative, so they have a sum
    have hfraction := Double.isNaN_div_of_isFinite
      (Double.isNaN_ofInt (d.mantissa % 10 ^ d.scale : Nat)) hplaces
    have hpositive := Double.negative_div_of_isFinite
      (Double.isNaN_ofInt (d.mantissa % 10 ^ d.scale : Nat)) hplaces
    rw [hsign, hsign] at hpositive
    have hsum := Double.isNaN_add (Double.isNaN_ofInt (d.mantissa / 10 ^ d.scale : Nat)) hfraction
      fun _ _ => (hsign _).trans hpositive.symm
    exact Double.isNaN_div_of_isFinite
      (Double.isNaN_round (Double.isNaN_mul_of_isFinite hsum hplaces)) hplaces

end Decimal

namespace Matching

/-! ## Squared distances -/

/-- The squared distance of a finite vector from any vector of numbers is a number. -/
theorem isNaN_l2 {a b : List Double} {x : Double} (ha : ∀ y ∈ a, y.isFinite = true)
    (hb : ∀ y ∈ b, y.isNaN = false) (hx : vectorDistance .l2 a b = some x) : x.isNaN = false := by
  cases Option.some.inj hx
  refine Double.isNaN_sum fun y hy => ?_
  rw [← List.map_uncurry_zip_eq_zipWith] at hy
  obtain ⟨⟨u, v⟩, huv, rfl⟩ := List.mem_map.mp hy
  obtain ⟨hu, hv⟩ := List.of_mem_zip huv
  have hfinite := ha u hu
  have hneg : v.neg.isNaN = false := (Double.isNaN_neg v).trans (hb v hv)
  refine Double.square_nonneg (Double.isNaN_add (Double.isNaN_of_isFinite hfinite) hneg ?_)
  intro hinf
  rw [Double.isInfinite_of_isFinite hfinite] at hinf
  cases hinf

end Matching

end IndexQuery
