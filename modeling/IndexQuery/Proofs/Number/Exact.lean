import IndexQuery.Proofs.Number.Integers
import IndexQuery.Proofs.Number.Nearest
import Mathlib.Algebra.Order.Field.Power
import Mathlib.Data.Int.Log
import Mathlib.Data.Rat.Floor
import Mathlib.Tactic.NormNum
import Mathlib.Tactic.Positivity
set_option autoImplicit false

/-! # Arithmetic as rounded exact results

A finite number has an exact value, a rational (`toRat`). Every operation on numbers that are not
negative computes the exact result and rounds it: `x.IsRounded q` says that `x` is what `q` is
rounded to, as far as errors go. The error is half a step of the row `q` lies in, and so at most one
part in `2 ^ 53` of `q` (`IsRounded.relative_error`). No finite number is closer to a ratio than the
number it is rounded to (`ofRatio_closest`). Over several operations the errors add up: they are
counted in parts of `2 ^ 53` by `x.IsWithin k q`. -/

namespace IndexQuery.Double

open BinaryFormat (binary64)

variable {a b x : Double} {q : ℚ} {num den : Nat}

/-! ## Exact values -/

/-- The number of units in one. -/
def unitsPerOne : ℚ := (2 ^ binary64.scale : Nat)

theorem unitsPerOne_pos : 0 < unitsPerOne := Nat.cast_pos.mpr (Nat.two_pow_pos _)

theorem unitsPerOne_ne_zero : unitsPerOne ≠ 0 := ne_of_gt unitsPerOne_pos

theorem unitsPerOne_eq : unitsPerOne = 2 ^ (1074 : ℤ) := by
  unfold unitsPerOne
  rw [Nat.cast_pow, Nat.cast_ofNat, ← zpow_natCast]
  rfl

/-- The exact value of a finite number. -/
def toRat (x : Double) : ℚ := x.signedUnits / unitsPerOne

/-- The number is finite and its sign bit is not set. -/
structure IsMagnitude (x : Double) : Prop where
  finite : x.isFinite = true
  positive : x.negative = false

theorem IsMagnitude.signedUnits (hx : x.IsMagnitude) : x.signedUnits = x.units := by
  rw [Double.signedUnits, hx.positive, if_neg Bool.false_ne_true]

theorem IsMagnitude.toRat_eq (hx : x.IsMagnitude) : x.toRat = x.units / unitsPerOne := by
  rw [toRat, hx.signedUnits, Int.cast_natCast]

theorem IsMagnitude.units_of_toRat {n : Nat} (hx : x.IsMagnitude) (h : x.toRat = n) :
    x.units = n * 2 ^ binary64.scale := by
  rw [hx.toRat_eq, div_eq_iff unitsPerOne_ne_zero, unitsPerOne, ← Nat.cast_mul] at h
  exact Nat.cast_injective h

theorem IsMagnitude.units_eq_zero (hx : x.IsMagnitude) (h : x.toRat = 0) : x.units = 0 := by
  rw [hx.toRat_eq, div_eq_zero_iff, or_iff_left unitsPerOne_ne_zero] at h
  exact Nat.cast_eq_zero.mp h

theorem IsMagnitude.units_pos (hx : x.IsMagnitude) (h : 0 < x.toRat) : 0 < x.units := by
  rw [hx.toRat_eq] at h
  exact Nat.cast_pos.mp ((div_pos_iff_of_pos_right unitsPerOne_pos).mp h)

theorem ordinal_neg (x : Double) : x.neg.ordinal = x.ordinal :=
  ordinal_ofOrdinal _ x.ordinal_lt_signWeight

theorem isFinite_neg (x : Double) : x.neg.isFinite = x.isFinite := by
  rw [isFinite, ordinal_neg, isFinite]

theorem toRat_neg (x : Double) : x.neg.toRat = -x.toRat := by
  have hlt := x.ordinal_lt_signWeight
  have hunits : x.neg.units = x.units := by rw [units, ordinal_neg, units]
  have hsigned : x.neg.signedUnits = -x.signedUnits := by
    rw [signedUnits, signedUnits, hunits, neg, negative_ofOrdinal _ hlt]
    cases x.negative <;> simp
  rw [toRat, hsigned, Int.cast_neg, neg_div, toRat]

/-- What rounding gives is a magnitude, unless it is infinite. -/
theorem isMagnitude_ofRatio (h : binary64.nearest num den < binary64.infinity) :
    (ofRatio false num den).IsMagnitude :=
  ⟨isFinite_ofOrdinal false h, negative_ofRatio false num den⟩

theorem units_ofRatio (sign : Bool) (num den : Nat) :
    (ofRatio sign num den).units = binary64.units (binary64.nearest num den) := by
  rw [units, ofRatio, ordinal_ofOrdinal _ (Nat.lt_of_le_of_lt (binary64.nearest_le_infinity _ _)
    infinity_lt_signWeight)]

/-! ## Rounding -/

/-- The number is what a rational is rounded to, as far as errors go: they are at most half a step
of any row above which the rational does not lie. -/
structure IsRounded (x : Double) (q : ℚ) : Prop extends x.IsMagnitude where
  error : ∀ e : ℤ, -1022 ≤ e → q < 2 ^ (e + 1) → |x.toRat - q| ≤ 2 ^ e / 2 ^ 53

/-- There are finite numbers beyond a ratio that is not too large. -/
theorem nearest_lt_infinity_of_lt (hden : 0 < den) (hlt : num / den / unitsPerOne < 2 ^ 200) :
    binary64.nearest num den < binary64.infinity := by
  have hexponent : binary64.fractionBits + 1222 = 200 + binary64.scale := rfl
  have hbound : 2 ^ 200 * unitsPerOne * den
      = (2 ^ (binary64.fractionBits + 1222) * den : Nat) := by
    rw [hexponent, Nat.pow_add, Nat.cast_mul, Nat.cast_mul, Nat.cast_pow 2 200, Nat.cast_ofNat,
      unitsPerOne]
  rw [div_lt_iff₀ unitsPerOne_pos, div_lt_iff₀ (Nat.cast_pos.mpr hden), hbound, Nat.cast_lt] at hlt
  exact binary64.nearest_lt_infinity_of_ratio 1222 (by decide) hden (Nat.le_of_lt hlt)

/-- A ratio of units is rounded. -/
theorem isRounded_ofRatio (hden : 0 < den) (hlt : num / den / unitsPerOne < 2 ^ 200) :
    (ofRatio false num den).IsRounded (num / den / unitsPerOne) := by
  have hfinite := nearest_lt_infinity_of_lt hden hlt
  have hmagnitude := isMagnitude_ofRatio hfinite
  have hscale (e : ℤ) : 2 ^ e * unitsPerOne = 2 ^ (e + 1074) := by
    rw [unitsPerOne_eq, zpow_add₀ two_ne_zero]
  refine ⟨hmagnitude, fun e he hq => ?_⟩
  -- in units, the row of the ratio is counted from the first one
  obtain ⟨row, hrow⟩ : ∃ row : ℕ, e + 1 + 1074 = (53 + row : ℕ) :=
    ⟨(e + 1022).toNat, by push_cast; omega⟩
  have hratio : num < 2 ^ (binary64.fractionBits + 1 + row) * den := by
    rw [div_lt_iff₀ unitsPerOne_pos, div_lt_iff₀ (Nat.cast_pos.mpr hden), hscale, hrow,
      zpow_natCast] at hq
    exact_mod_cast hq
  have hstep : (2 : ℚ) ^ e / 2 ^ 53 * unitsPerOne = 2 ^ row / 2 := by
    have hsum : e + 1074 = row + (52 : ℕ) := by push_cast at hrow ⊢; omega
    rw [div_mul_eq_mul_div, hscale, hsum, zpow_add₀ two_ne_zero, zpow_natCast, zpow_natCast]
    ring
  rw [hmagnitude.toRat_eq, units_ofRatio, ← sub_div, abs_div, abs_of_pos unitsPerOne_pos,
    div_le_iff₀ unitsPerOne_pos, hstep]
  exact binary64.nearest_error hden hfinite hratio

/-- A rational that is not too small is rounded with an error of at most one part in `2 ^ 53`. -/
theorem IsRounded.relative_error (hx : x.IsRounded q) (hq : 1 / 2 ^ 100 ≤ q) :
    |x.toRat - q| ≤ q / 2 ^ 53 := by
  have hpos : 0 < q := lt_of_lt_of_le (by norm_num) hq
  have hlow : (2 : ℚ) ^ Int.log 2 q ≤ q := mod_cast Int.zpow_log_le_self (by norm_num) hpos
  have hhigh : q < (2 : ℚ) ^ (Int.log 2 q + 1) :=
    mod_cast Int.lt_zpow_succ_log_self (by norm_num) q
  have hlog : (-100 : ℤ) ≤ Int.log 2 q := by
    have hpower : ((2 : ℕ) : ℚ) ^ (-100 : ℤ) = 1 / 2 ^ 100 := by norm_num
    rwa [← Int.zpow_le_iff_le_log (by norm_num) hpos, hpower]
  calc |x.toRat - q|
      ≤ 2 ^ Int.log 2 q / 2 ^ 53 := hx.error _ (by omega) hhigh
    _ ≤ q / 2 ^ 53 := by gcongr

/-- No finite number, of either sign, is closer to a ratio than the number it is rounded to. -/
theorem ofRatio_closest (hden : 0 < den) (hlt : num / den / unitsPerOne < 2 ^ 200) (y : Double) :
    |(ofRatio false num den).toRat - num / den / unitsPerOne|
      ≤ |y.toRat - num / den / unitsPerOne| := by
  have hfinite := nearest_lt_infinity_of_lt hden hlt
  have hscaled (value : ℚ) : |value / unitsPerOne - num / den / unitsPerOne|
      = |value - num / den| / unitsPerOne := by
    rw [← sub_div, abs_div, abs_of_pos unitsPerOne_pos]
  rw [(isMagnitude_ofRatio hfinite).toRat_eq, units_ofRatio, toRat, hscaled, hscaled]
  refine div_le_div_of_nonneg_right ?_ unitsPerOne_pos.le
  have hclosest := binary64.nearest_closest hden hfinite
  have hratio : (0 : ℚ) ≤ num / den := div_nonneg (Nat.cast_nonneg _) (Nat.cast_nonneg _)
  generalize (num / den : ℚ) = ratio at *
  unfold signedUnits
  split
  · -- a number with the sign is farther away than zero
    have hzero := hclosest 0
    have hvalue : (0 : ℚ) ≤ y.units := Nat.cast_nonneg _
    rw [binary64.units_of_lt (Nat.two_pow_pos _), Nat.cast_zero, zero_sub, abs_neg,
      abs_of_nonneg hratio] at hzero
    have hfar : |((-(y.units : ℤ) : ℤ) : ℚ) - ratio| = y.units + ratio := by
      rw [Int.cast_neg, Int.cast_natCast, abs_of_nonpos (by linarith)]
      ring
    rw [hfar]
    linarith
  · exact hclosest _

/-! ## Operations -/

theorem IsMagnitude.isNaN (hx : x.IsMagnitude) : x.isNaN = false := isNaN_of_isFinite hx.finite

theorem IsMagnitude.isInfinite (hx : x.IsMagnitude) : x.isInfinite = false :=
  isInfinite_of_isFinite hx.finite

theorem ofInt_natCast (n : Nat) : ofInt n = ofRatio false (n * 2 ^ binary64.scale) 1 := by
  rw [ofInt, decide_eq_false (Int.not_lt.mpr (Int.natCast_nonneg n)), Int.natAbs_natCast]

theorem isRounded_ofInt {n : Nat} (hn : (n : ℚ) < 2 ^ 200) : (ofInt n).IsRounded n := by
  have hvalue : (n * 2 ^ binary64.scale : Nat) / (1 : Nat) / unitsPerOne = n := by
    rw [Nat.cast_mul, Nat.cast_one, div_one]
    exact mul_div_cancel_right₀ _ unitsPerOne_ne_zero
  rw [← hvalue] at hn ⊢
  rw [ofInt_natCast]
  exact isRounded_ofRatio Nat.one_pos hn

/-- Whole numbers of few digits, with any zeros behind them, are not rounded. -/
theorem units_ofInt_digits {digits zeros : Nat} (hdigits : digits < 2 ^ 53) (hzeros : zeros ≤ 900) :
    (ofInt (digits * 2 ^ zeros : Nat)).units = digits * 2 ^ zeros * 2 ^ binary64.scale := by
  have hscale : zeros + binary64.scale + 2 < 2 ^ binary64.exponentBits := by
    simp only [show binary64.scale = 1074 from rfl, show 2 ^ binary64.exponentBits = 2048 from rfl]
    omega
  rw [ofInt_natCast, units_ofRatio, Nat.mul_assoc, ← Nat.pow_add]
  exact binary64.units_nearest_digits hdigits hscale

theorem add_eq_ofRatio (ha : a.IsMagnitude) (hb : b.IsMagnitude) (hsum : 0 < a.units + b.units) :
    a.add b = ofRatio false (a.units + b.units) 1 := by
  have hnot : ¬ (a.units + b.units : ℤ) < 0 := by omega
  have hne : (a.units + b.units : ℤ) ≠ 0 := by omega
  unfold add
  rw [ha.isNaN, hb.isNaN, ha.isInfinite, hb.isInfinite, ha.signedUnits, hb.signedUnits]
  simp only [Bool.or_self, Bool.false_eq_true, if_false]
  rw [if_neg hne, decide_eq_false hnot]
  rfl

theorem isZero_of_units_pos (h : 0 < x.units) : x.isZero = false := by
  rw [isZero, beq_eq_false_iff_ne, ne_eq, ← units_eq_zero_iff]
  exact Nat.ne_of_gt h

theorem div_eq_ofRatio (ha : a.IsMagnitude) (hb : b.IsMagnitude) (hunits : 0 < b.units) :
    a.div b = ofRatio false (a.units * 2 ^ binary64.scale) b.units := by
  unfold div
  rw [ha.isNaN, hb.isNaN, ha.isInfinite, hb.isInfinite, ha.positive, hb.positive,
    isZero_of_units_pos hunits]
  rfl

/-- The quotient of two whole numbers is rounded once. -/
theorem div_of_toRat {n p : Nat} (ha : a.IsMagnitude) (hb : b.IsMagnitude) (hn : a.toRat = n)
    (hp : b.toRat = p) (hpos : 0 < p) : a.div b = ofRatio false (n * 2 ^ binary64.scale) p := by
  have hunits : 0 < b.units := by
    rw [hb.units_of_toRat hp]
    exact Nat.mul_pos hpos (Nat.two_pow_pos _)
  rw [div_eq_ofRatio ha hb hunits, ha.units_of_toRat hn, hb.units_of_toRat hp, ofRatio,
    binary64.nearest_mul_right (Nat.two_pow_pos _), ofRatio]

/-- Nothing is added to a number by zero. -/
theorem zero_add_eq (ha : a.IsMagnitude) (hzero : a.units = 0) (hx : x.IsMagnitude)
    (hpos : 0 < x.units) : a.add x = x := by
  have hle : x.ordinal ≤ binary64.infinity := Nat.le_of_lt (of_decide_eq_true hx.finite)
  have hlt := x.ordinal_lt_signWeight
  rw [add_eq_ofRatio ha hx (by omega), hzero, Nat.zero_add, ofRatio, units,
    binary64.nearest_units hle]
  exact eq_of_ordinal ((negative_ofOrdinal false hlt).trans hx.positive.symm)
    (ordinal_ofOrdinal false hlt)

theorem isRounded_add (ha : a.IsMagnitude) (hb : b.IsMagnitude) (hsum : 0 < a.units + b.units)
    (hlt : a.toRat + b.toRat < 2 ^ 200) : (a.add b).IsRounded (a.toRat + b.toRat) := by
  have hvalue : a.toRat + b.toRat = (a.units + b.units : Nat) / (1 : Nat) / unitsPerOne := by
    rw [ha.toRat_eq, hb.toRat_eq, ← add_div, Nat.cast_add, Nat.cast_one, div_one]
  rw [hvalue] at hlt ⊢
  rw [add_eq_ofRatio ha hb hsum]
  exact isRounded_ofRatio Nat.one_pos hlt

theorem isRounded_mul (ha : a.IsMagnitude) (hb : b.IsMagnitude)
    (hlt : a.toRat * b.toRat < 2 ^ 200) : (a.mul b).IsRounded (a.toRat * b.toRat) := by
  have hvalue : a.toRat * b.toRat
      = (a.units * b.units : Nat) / (2 ^ binary64.scale : Nat) / unitsPerOne := by
    rw [ha.toRat_eq, hb.toRat_eq, div_mul_div_comm, ← div_div, Nat.cast_mul]
    rfl
  rw [hvalue] at hlt ⊢
  unfold mul
  rw [ha.isNaN, hb.isNaN, ha.isInfinite, hb.isInfinite, ha.positive, hb.positive]
  exact isRounded_ofRatio (Nat.two_pow_pos _) hlt

theorem isRounded_div (ha : a.IsMagnitude) (hb : b.IsMagnitude) (hunits : 0 < b.units)
    (hlt : a.toRat / b.toRat < 2 ^ 200) : (a.div b).IsRounded (a.toRat / b.toRat) := by
  have hvalue : a.toRat / b.toRat
      = (a.units * 2 ^ binary64.scale : Nat) / b.units / unitsPerOne := by
    rw [ha.toRat_eq, hb.toRat_eq, div_div_div_cancel_right₀ unitsPerOne_ne_zero, Nat.cast_mul,
      div_right_comm]
    congr 1
    exact (mul_div_cancel_right₀ _ unitsPerOne_ne_zero).symm
  rw [hvalue] at hlt ⊢
  rw [div_eq_ofRatio ha hb hunits]
  exact isRounded_ofRatio hunits hlt

/-- Rounding to a whole number gives one that is not farther away than a half. -/
theorem exists_round_eq (hx : x.IsMagnitude) :
    ∃ n : Nat, x.round = ofInt n ∧ (n : ℚ) - 1 / 2 ≤ x.toRat ∧ x.toRat < n + 1 / 2 := by
  have hpos : 0 < 2 * 2 ^ binary64.scale := Nat.mul_pos Nat.two_pos (Nat.two_pow_pos _)
  refine ⟨(2 * x.units + 2 ^ binary64.scale) / (2 * 2 ^ binary64.scale), ?_, ?_⟩
  · rw [round, if_pos hx.finite, hx.positive, ofInt_natCast]
  · have hlow := Nat.div_mul_le_self (2 * x.units + 2 ^ binary64.scale) (2 * 2 ^ binary64.scale)
    have hhigh := Nat.lt_div_mul_add hpos (a := 2 * x.units + 2 ^ binary64.scale)
    generalize (2 * x.units + 2 ^ binary64.scale) / (2 * 2 ^ binary64.scale) = n at hlow hhigh ⊢
    have hone := unitsPerOne_pos
    rw [hx.toRat_eq, le_div_iff₀ hone, div_lt_iff₀ hone]
    unfold unitsPerOne
    generalize 2 ^ binary64.scale = one at hlow hhigh ⊢
    have hlow : (n * (2 * one) : ℚ) ≤ 2 * x.units + one := mod_cast hlow
    have hhigh : (2 * x.units + one : ℚ) < n * (2 * one) + 2 * one := mod_cast hhigh
    constructor <;> linarith

/-! ## Errors over several operations -/

/-- The error of the number against `q` is at most `k` parts in `2 ^ 53`. -/
structure IsWithin (x : Double) (k q : ℚ) : Prop extends x.IsMagnitude where
  error : |x.toRat - q| ≤ k * (q / 2 ^ 53)

theorem IsWithin.mono {j k : ℚ} (hx : x.IsWithin j q) (hjk : j ≤ k) (hq : 0 ≤ q) :
    x.IsWithin k q :=
  ⟨hx.toIsMagnitude, hx.error.trans (mul_le_mul_of_nonneg_right hjk (by positivity))⟩

/-- Rounding what is already an approximation adds one part, and the little by which the
approximation may exceed `q`. -/
theorem IsRounded.isWithin {value k : ℚ} (hx : x.IsRounded value)
    (hvalue : |value - q| ≤ k * (q / 2 ^ 53)) (hk : k ≤ 64) (hq : 1 / 2 ^ 99 ≤ q) :
    x.IsWithin (k + 65 / 64) q := by
  have hpos : 0 < q := lt_of_lt_of_le (by norm_num) hq
  have hpart : k * (q / 2 ^ 53) ≤ q / 64 := by
    have : k * (q / 2 ^ 53) ≤ 64 * (q / 2 ^ 53) := by gcongr
    linarith
  obtain ⟨hbelow, habove⟩ := abs_le.mp hvalue
  have hround := hx.relative_error (by linarith)
  refine ⟨hx.toIsMagnitude, ?_⟩
  calc |x.toRat - q|
      = |(x.toRat - value) + (value - q)| := by ring_nf
    _ ≤ |x.toRat - value| + |value - q| := abs_add_le _ _
    _ ≤ value / 2 ^ 53 + k * (q / 2 ^ 53) := add_le_add hround hvalue
    _ ≤ (k + 65 / 64) * (q / 2 ^ 53) := by linarith

theorem IsWithin.toRat_le {k : ℚ} (hx : x.IsWithin k q) (hk : k ≤ 64) (hq : 0 ≤ q) :
    x.toRat ≤ 2 * q := by
  have herror := (abs_le.mp hx.error).2
  have hpart : k * (q / 2 ^ 53) ≤ 64 * (q / 2 ^ 53) := by gcongr
  linarith

theorem IsWithin.toRat_pos {k : ℚ} (hx : x.IsWithin k q) (hk : k ≤ 64) (hq : 0 < q) :
    0 < x.toRat := by
  have herror := (abs_le.mp hx.error).1
  have hpart : k * (q / 2 ^ 53) ≤ 64 * (q / 2 ^ 53) := by gcongr
  linarith

/-- Both terms of a sum may have the error of the larger share. -/
theorem IsWithin.add {k p : ℚ} (ha : a.IsWithin k p) (hb : b.IsWithin k q) (hk : k ≤ 64)
    (hp : 0 ≤ p) (hq : 0 < q) (hlow : 1 / 2 ^ 99 ≤ p + q) (hhigh : p + q < 2 ^ 199) :
    (a.add b).IsWithin (k + 65 / 64) (p + q) := by
  have hunits := hb.units_pos (hb.toRat_pos hk hq)
  have hlt : a.toRat + b.toRat < 2 ^ 200 := by
    have := ha.toRat_le hk hp
    have := hb.toRat_le hk hq.le
    linarith
  refine (isRounded_add ha.toIsMagnitude hb.toIsMagnitude (by omega) hlt).isWithin ?_ hk hlow
  calc |a.toRat + b.toRat - (p + q)|
      = |(a.toRat - p) + (b.toRat - q)| := by ring_nf
    _ ≤ |a.toRat - p| + |b.toRat - q| := abs_add_le _ _
    _ ≤ k * (p / 2 ^ 53) + k * (q / 2 ^ 53) := add_le_add ha.error hb.error
    _ = k * ((p + q) / 2 ^ 53) := by ring

/-- A product with an exact factor. -/
theorem IsWithin.mul {k p : ℚ} (ha : a.IsWithin k q) (hb : b.IsMagnitude) (hfactor : b.toRat = p)
    (hk : k ≤ 64) (hp : 0 < p) (hq : 0 ≤ q) (hlow : 1 / 2 ^ 99 ≤ q * p) (hhigh : q * p < 2 ^ 199) :
    (a.mul b).IsWithin (k + 65 / 64) (q * p) := by
  have hlt : a.toRat * b.toRat < 2 ^ 200 := by
    have := mul_le_mul_of_nonneg_right (ha.toRat_le hk hq) hp.le
    rw [hfactor]
    linarith
  refine (isRounded_mul ha.toIsMagnitude hb hlt).isWithin ?_ hk hlow
  calc |a.toRat * b.toRat - q * p|
      = |a.toRat - q| * p := by rw [hfactor, ← sub_mul, abs_mul, abs_of_pos hp]
    _ ≤ k * (q / 2 ^ 53) * p := mul_le_mul_of_nonneg_right ha.error hp.le
    _ = k * (q * p / 2 ^ 53) := by ring

/-- A quotient by an exact divisor. -/
theorem IsWithin.div {k p : ℚ} (ha : a.IsWithin k q) (hb : b.IsMagnitude) (hdivisor : b.toRat = p)
    (hk : k ≤ 64) (hp : 0 < p) (hq : 0 ≤ q) (hlow : 1 / 2 ^ 99 ≤ q / p) (hhigh : q / p < 2 ^ 199) :
    (a.div b).IsWithin (k + 65 / 64) (q / p) := by
  have hlt : a.toRat / b.toRat < 2 ^ 200 := by
    have := div_le_div_of_nonneg_right (ha.toRat_le hk hq) hp.le
    rw [mul_div_assoc] at this
    rw [hdivisor]
    linarith
  have hunits := hb.units_pos (by rwa [hdivisor])
  refine (isRounded_div ha.toIsMagnitude hb hunits hlt).isWithin ?_ hk hlow
  calc |a.toRat / b.toRat - q / p|
      = |a.toRat - q| / p := by rw [hdivisor, ← sub_div, abs_div, abs_of_pos hp]
    _ ≤ k * (q / 2 ^ 53) / p := div_le_div_of_nonneg_right ha.error hp.le
    _ = k * (q / p / 2 ^ 53) := by ring

/-- Whole numbers below `2 ^ 53`, with any zeros behind them, are what they are. -/
theorem toRat_ofInt_digits {digits zeros : Nat} (hdigits : digits < 2 ^ 53)
    (hzeros : zeros ≤ 100) :
    (ofInt (digits * 2 ^ zeros : Nat)).IsMagnitude ∧
      (ofInt (digits * 2 ^ zeros : Nat)).toRat = (digits * 2 ^ zeros : Nat) := by
  have hlt : ((digits * 2 ^ zeros : Nat) : ℚ) < 2 ^ 200 := by
    have : digits * 2 ^ zeros < 2 ^ 53 * 2 ^ 100 :=
      Nat.mul_lt_mul_of_lt_of_le hdigits (Nat.pow_le_pow_right Nat.two_pos hzeros)
        (Nat.two_pow_pos _)
    exact_mod_cast this.trans (by norm_num)
  have hmagnitude := (isRounded_ofInt hlt).toIsMagnitude
  refine ⟨hmagnitude, ?_⟩
  rw [hmagnitude.toRat_eq, units_ofInt_digits hdigits (by omega), Nat.cast_mul _ (2 ^ _)]
  exact mul_div_cancel_right₀ _ unitsPerOne_ne_zero

theorem toRat_ofInt {n : Nat} (hn : n < 2 ^ 53) :
    (ofInt n).IsMagnitude ∧ (ofInt n).toRat = n := by
  have hexact := toRat_ofInt_digits hn (Nat.zero_le 100)
  rwa [Nat.pow_zero, Nat.mul_one] at hexact

theorem isWithin_zero_ofInt {n : Nat} (hn : n < 2 ^ 53) : (ofInt n).IsWithin 0 n := by
  obtain ⟨hmagnitude, hvalue⟩ := toRat_ofInt hn
  exact ⟨hmagnitude, by rw [hvalue, sub_self, abs_zero, zero_mul]⟩

theorem isWithin_ofInt {n : Nat} (hn : (n : ℚ) < 2 ^ 200) : (ofInt n).IsWithin 1 n := by
  rcases Nat.eq_zero_or_pos n with rfl | hpos
  · exact (isWithin_zero_ofInt (Nat.two_pow_pos 53)).mono zero_le_one (Nat.cast_nonneg _)
  · have hrounded := isRounded_ofInt hn
    have hone : (1 : ℚ) ≤ n := mod_cast hpos
    refine ⟨hrounded.toIsMagnitude, ?_⟩
    rw [one_mul]
    exact hrounded.relative_error (by linarith)

/-- Adding a fraction to a whole number that is not zero errs by at most one part of the whole
number: the sum lies in its row. -/
theorem add_fraction_error {n : Nat} (ha : a.IsMagnitude) (hb : b.IsMagnitude) (hn : 0 < n)
    (hvalue : a.toRat = n) (hlt : n < 2 ^ 53) (hfraction : b.toRat < 1) (hpos : 0 < b.toRat) :
    (a.add b).IsMagnitude ∧ |(a.add b).toRat - (n + b.toRat)| ≤ n / 2 ^ 53 := by
  have hlow : (2 : ℚ) ^ (Nat.log2 n : ℤ) ≤ n := by
    rw [zpow_natCast]
    exact_mod_cast Nat.log2_self_le (Nat.ne_of_gt hn)
  have hhigh : (n + b.toRat : ℚ) < 2 ^ ((Nat.log2 n : ℤ) + 1) := by
    have hsucc : ((n + 1 : Nat) : ℚ) ≤ (2 ^ (Nat.log2 n + 1) : Nat) := mod_cast Nat.lt_log2_self
    have hpower : (2 : ℚ) ^ ((Nat.log2 n : ℤ) + 1) = (2 ^ (Nat.log2 n + 1) : Nat) := by
      rw [Nat.cast_pow, ← zpow_natCast, Nat.cast_ofNat, Nat.cast_add, Nat.cast_one]
    rw [hpower]
    rw [Nat.cast_add, Nat.cast_one] at hsucc
    linarith
  have hsum : a.toRat + b.toRat < 2 ^ 200 := by
    have : (n : ℚ) < 2 ^ 53 := mod_cast hlt
    linarith
  have hunits := hb.units_pos hpos
  have hrounded := isRounded_add ha hb (by omega) hsum
  rw [hvalue] at hrounded
  exact ⟨hrounded.toIsMagnitude, (hrounded.error _ (by omega) hhigh).trans (by gcongr)⟩

end IndexQuery.Double
