import IndexQuery.Number.Decimal
import IndexQuery.Proofs.Number.Exact
set_option autoImplicit false

/-! # Decimals in double precision

A decimal has an exact value (`Decimal.toRat`), and one number is the result of rounding it once:
`Double.ofDecimal` of its digits. The conversion of a decimal rounds up to six times, and so it may
end beside that number. It does not where the decimal is a whole number or its mantissa is below
`2 ^ 51`: all errors made before the last division are then too small to be seen in the mantissa,
which is rounded back to what it was (`magnitudeToDouble_eq_ofRatio`). In all cases the error is at
most eight parts in `2 ^ 53` (`isWithin_magnitudeToDouble`). -/

namespace IndexQuery.Decimal

open BinaryFormat (binary64)
open Double (ofInt ofRatio unitsPerOne)

variable {d : Decimal}

/-- The exact value without its sign. -/
def magnitude (d : Decimal) : ℚ := d.mantissa / (10 ^ d.scale : Nat)

/-- The exact value. -/
def toRat (d : Decimal) : ℚ := if d.negative then -d.magnitude else d.magnitude

/-- At most 28 digits, at most 22 of them after the point. -/
structure IsShort (d : Decimal) : Prop where
  mantissa_lt : d.mantissa < 10 ^ 28
  scale_le : d.scale ≤ 22

/-- The digits survive the roundings of the conversion: the value is whole, or the mantissa is
small. -/
def IsKept (d : Decimal) : Prop := 10 ^ d.scale ∣ d.mantissa ∨ d.mantissa < 2 ^ 51

/-! ## The parts of the conversion -/

/-- The part before the point. -/
def whole (d : Decimal) : Double := ofInt (d.mantissa / 10 ^ d.scale : Nat)

/-- The power of ten that moves the point behind the last digit. -/
def places (d : Decimal) : Double := ofInt (10 ^ d.scale : Nat)

/-- The part behind the point. -/
def fraction (d : Decimal) : Double := (ofInt (d.mantissa % 10 ^ d.scale : Nat)).div d.places

theorem magnitudeToDouble_eq (d : Decimal) :
    d.magnitudeToDouble =
      if d.fraction.isZero then d.whole
      else (((d.whole.add d.fraction).mul d.places).round).div d.places := rfl

theorem power_pos (d : Decimal) : (0 : ℚ) < (10 ^ d.scale : Nat) :=
  Nat.cast_pos.mpr (Nat.pow_pos (by norm_num))

theorem magnitude_nonneg (d : Decimal) : 0 ≤ d.magnitude :=
  div_nonneg (Nat.cast_nonneg _) d.power_pos.le

theorem magnitude_eq_add (d : Decimal) :
    d.magnitude = (d.mantissa / 10 ^ d.scale : Nat)
      + (d.mantissa % 10 ^ d.scale : Nat) / (10 ^ d.scale : Nat) := by
  have hsplit : (d.mantissa : ℚ) = (10 ^ d.scale : Nat) * (d.mantissa / 10 ^ d.scale : Nat)
      + (d.mantissa % 10 ^ d.scale : Nat) := mod_cast (Nat.div_add_mod _ _).symm
  rw [magnitude, div_eq_iff (ne_of_gt d.power_pos), add_mul, div_mul_cancel₀ _ (ne_of_gt d.power_pos),
    mul_comm]
  exact hsplit

theorem parts_lt (d : Decimal) {bound : Nat} (h : d.mantissa < bound) :
    d.mantissa / 10 ^ d.scale < bound ∧ d.mantissa % 10 ^ d.scale < bound :=
  ⟨Nat.lt_of_le_of_lt (Nat.div_le_self _ _) h, Nat.lt_of_le_of_lt (Nat.mod_le _ _) h⟩

theorem magnitude_mul_power (d : Decimal) :
    d.magnitude * (10 ^ d.scale : Nat) = d.mantissa :=
  div_mul_cancel₀ _ (ne_of_gt d.power_pos)

namespace IsShort

theorem power_lt (hd : d.IsShort) : ((10 ^ d.scale : Nat) : ℚ) < 2 ^ 99 := by
  have : (10 : ℕ) ^ d.scale ≤ 10 ^ 22 := Nat.pow_le_pow_right (by norm_num) hd.scale_le
  exact_mod_cast Nat.lt_of_le_of_lt this (by norm_num)

theorem cast_mantissa_lt (hd : d.IsShort) : (d.mantissa : ℚ) < 2 ^ 100 :=
  mod_cast Nat.lt_trans hd.mantissa_lt (by norm_num)

/-- The power of ten is not rounded: up to `10 ^ 22` its odd part is below `2 ^ 53`. -/
theorem toRat_places (hd : d.IsShort) :
    d.places.IsMagnitude ∧ d.places.toRat = (10 ^ d.scale : Nat) := by
  have hodd : 5 ^ d.scale < 2 ^ 53 :=
    Nat.lt_of_le_of_lt (Nat.pow_le_pow_right (by norm_num) hd.scale_le) (by norm_num)
  have hsplit : 10 ^ d.scale = 5 ^ d.scale * 2 ^ d.scale := Nat.mul_pow 5 2 _
  have hfew : d.scale ≤ 100 := Nat.le_trans hd.scale_le (by norm_num)
  rw [places, hsplit]
  exact Double.toRat_ofInt_digits hodd hfew

/-- Whole numbers below `2 ^ 53` are divided by the power of ten with one rounding. -/
theorem div_places {n : Nat} (hd : d.IsShort) (hn : n < 2 ^ 53) :
    (ofInt n).div d.places = ofRatio false (n * 2 ^ binary64.scale) (10 ^ d.scale) := by
  obtain ⟨hplaces, hpower⟩ := hd.toRat_places
  have hexact := Double.toRat_ofInt_digits hn (Nat.zero_le 100)
  rw [Nat.pow_zero, Nat.mul_one] at hexact
  exact Double.div_of_toRat hexact.1 hplaces hexact.2 hpower (Nat.pow_pos (by norm_num))

end IsShort

/-! ## Whole decimals -/

theorem nearest_zero (s : Nat) : binary64.nearest (0 * 2 ^ binary64.scale) (10 ^ s) = 0 := by
  have hnone : 0 * 2 ^ binary64.scale ≤ binary64.units 0 * 10 ^ s := by
    rw [Nat.zero_mul]
    exact Nat.zero_le _
  exact Nat.le_zero.mp (binary64.nearest_le (Nat.pow_pos (by norm_num)) hnone)

/-- A whole number of places leaves no fraction. -/
theorem isZero_fraction (hd : d.IsShort) (hwhole : d.mantissa % 10 ^ d.scale = 0) :
    d.fraction.isZero = true := by
  rw [fraction, hwhole, hd.div_places (by norm_num), ofRatio, nearest_zero]
  rfl

/-- A whole decimal is rounded once. -/
theorem magnitudeToDouble_of_whole (hd : d.IsShort) (hwhole : d.mantissa % 10 ^ d.scale = 0) :
    d.magnitudeToDouble = d.whole := by
  rw [magnitudeToDouble_eq, if_pos (isZero_fraction hd hwhole)]

/-! ## Errors of the parts -/

namespace IsShort

/-- The parts of a decimal are far from the ends of the format. -/
theorem one_div_le_rest (hd : d.IsShort) (hrest : 0 < d.mantissa % 10 ^ d.scale) :
    1 / 2 ^ 99 ≤ ((d.mantissa % 10 ^ d.scale : Nat) : ℚ) / (10 ^ d.scale : Nat) := by
  have hone : (1 : ℚ) ≤ (d.mantissa % 10 ^ d.scale : Nat) := mod_cast hrest
  exact div_le_div₀ (Nat.cast_nonneg _) hone d.power_pos hd.power_lt.le

theorem one_div_le_magnitude (hd : d.IsShort) (hrest : 0 < d.mantissa % 10 ^ d.scale) :
    1 / 2 ^ 99 ≤ d.magnitude := by
  rw [magnitude_eq_add]
  have := hd.one_div_le_rest hrest
  have : (0 : ℚ) ≤ (d.mantissa / 10 ^ d.scale : Nat) := Nat.cast_nonneg _
  linarith

theorem magnitude_lt (hd : d.IsShort) : d.magnitude < 2 ^ 100 := by
  have hone : (1 : ℚ) ≤ (10 ^ d.scale : Nat) := mod_cast Nat.pow_pos (by norm_num)
  exact lt_of_le_of_lt (div_le_self (Nat.cast_nonneg _) hone) hd.cast_mantissa_lt

theorem isWithin_whole (hd : d.IsShort) :
    d.whole.IsWithin 1 (d.mantissa / 10 ^ d.scale : Nat) := by
  have hlt := (d.parts_lt hd.mantissa_lt).1
  exact Double.isWithin_ofInt (mod_cast Nat.lt_trans hlt (by norm_num))

theorem isWithin_rest (hd : d.IsShort) :
    (ofInt (d.mantissa % 10 ^ d.scale : Nat)).IsWithin 1 (d.mantissa % 10 ^ d.scale : Nat) := by
  have hlt := (d.parts_lt hd.mantissa_lt).2
  exact Double.isWithin_ofInt (mod_cast Nat.lt_trans hlt (by norm_num))

end IsShort

variable {k : ℚ}

theorem isWithin_fraction (hd : d.IsShort) (hrest : 0 < d.mantissa % 10 ^ d.scale) (hk : k ≤ 1)
    (hpart : (ofInt (d.mantissa % 10 ^ d.scale : Nat)).IsWithin k (d.mantissa % 10 ^ d.scale : Nat)) :
    d.fraction.IsWithin (k + 65 / 64)
      ((d.mantissa % 10 ^ d.scale : Nat) / (10 ^ d.scale : Nat)) := by
  obtain ⟨hplaces, hpower⟩ := hd.toRat_places
  have hlow := hd.one_div_le_rest hrest
  have hhigh := hd.magnitude_lt
  have hmagnitude := d.magnitude_eq_add
  have hnonneg : (0 : ℚ) ≤ (d.mantissa / 10 ^ d.scale : Nat) := Nat.cast_nonneg _
  exact hpart.div hplaces hpower (by linarith) d.power_pos (Nat.cast_nonneg _) hlow (by linarith)

/-- What is left of the mantissa is not lost in the fraction. -/
theorem isZero_fraction_of_rest (hd : d.IsShort) (hrest : 0 < d.mantissa % 10 ^ d.scale) :
    d.fraction.isZero = false := by
  have hfraction := isWithin_fraction hd hrest le_rfl hd.isWithin_rest
  have hpos : (0 : ℚ) < (d.mantissa % 10 ^ d.scale : Nat) / (10 ^ d.scale : Nat) :=
    lt_of_lt_of_le (by norm_num) (hd.one_div_le_rest hrest)
  exact Double.isZero_of_units_pos (hfraction.units_pos (hfraction.toRat_pos (by norm_num) hpos))

theorem magnitudeToDouble_of_rest (hd : d.IsShort) (hrest : 0 < d.mantissa % 10 ^ d.scale) :
    d.magnitudeToDouble
      = (((d.whole.add d.fraction).mul d.places).round).div d.places := by
  rw [magnitudeToDouble_eq, isZero_fraction_of_rest hd hrest, if_neg Bool.false_ne_true]

/-- The sum of both parts, in the places of the decimal. -/
theorem isWithin_scaled (hd : d.IsShort) (hrest : 0 < d.mantissa % 10 ^ d.scale) (hk : k ≤ 1)
    (hwhole : d.whole.IsWithin k (d.mantissa / 10 ^ d.scale : Nat))
    (hpart : (ofInt (d.mantissa % 10 ^ d.scale : Nat)).IsWithin k (d.mantissa % 10 ^ d.scale : Nat)) :
    ((d.whole.add d.fraction).mul d.places).IsWithin (k + 195 / 64) d.mantissa := by
  obtain ⟨hplaces, hpower⟩ := hd.toRat_places
  have hlow := hd.one_div_le_rest hrest
  have hhigh := hd.magnitude_lt
  have hmagnitude := d.magnitude_eq_add
  have hnonneg : (0 : ℚ) ≤ (d.mantissa / 10 ^ d.scale : Nat) := Nat.cast_nonneg _
  have hfraction := isWithin_fraction hd hrest hk hpart
  have hsum : (d.whole.add d.fraction).IsWithin (k + 65 / 64 + 65 / 64) d.magnitude := by
    rw [hmagnitude] at hhigh ⊢
    exact (hwhole.mono (by linarith) hnonneg).add hfraction (by linarith) hnonneg (by linarith)
      (by linarith) (by linarith)
  have hmantissa : (1 : ℚ) ≤ d.mantissa :=
    mod_cast Nat.lt_of_lt_of_le hrest (Nat.mod_le _ _)
  have := hd.cast_mantissa_lt
  rw [← magnitude_mul_power] at hmantissa this ⊢
  exact (hsum.mul hplaces hpower (by linarith) d.power_pos (by linarith) (by linarith)
    (by linarith)).mono (by linarith) (by linarith)

/-- From the sum in the places of the decimal to the result. Rounding to a whole number is off by
a half, which is `j` parts of the mantissa. -/
theorem isWithin_round_div {x : Double} {j : ℚ} (hd : d.IsShort)
    (hrest : 0 < d.mantissa % 10 ^ d.scale) (hx : x.IsWithin k d.mantissa) (hsum : k + j ≤ 32)
    (hj : 1 / 2 ≤ j * (d.mantissa / 2 ^ 53)) :
    (x.round.div d.places).IsWithin (k + j + 130 / 64) d.magnitude := by
  obtain ⟨hplaces, hpower⟩ := hd.toRat_places
  obtain ⟨n, hn, hbelow, habove⟩ := Double.exists_round_eq hx.toIsMagnitude
  have hmantissa : (1 : ℚ) ≤ d.mantissa :=
    mod_cast Nat.lt_of_lt_of_le hrest (Nat.mod_le _ _)
  have hlt := hd.cast_mantissa_lt
  have hnear : |(n : ℚ) - d.mantissa| ≤ (k + j) * (d.mantissa / 2 ^ 53) := by
    obtain ⟨hleft, hright⟩ := abs_le.mp hx.error
    rw [abs_le]
    constructor <;> linarith
  have hnlt : (n : ℚ) < 2 ^ 200 := by
    have hfew : (k + j) * (d.mantissa / 2 ^ 53) ≤ 32 * (d.mantissa / 2 ^ 53 : ℚ) := by gcongr
    have := (abs_le.mp hnear).2
    linarith
  have hwhole := (Double.isRounded_ofInt hnlt).isWithin hnear (by linarith) (by linarith)
  have hlow := hd.one_div_le_magnitude hrest
  have hhigh := hd.magnitude_lt
  rw [hn]
  exact (hwhole.div hplaces hpower (by linarith) d.power_pos (by linarith) hlow
    (by unfold magnitude at hhigh; linarith)).mono (by linarith) d.magnitude_nonneg

/-! ## Small mantissas -/

/-- With a small mantissa the sum of both parts is as close to the decimal as if it was rounded
once: the fraction errs by a share of the fraction, the sum by a share of the whole part. -/
theorem isWithin_sum_of_small (hd : d.IsShort) (hsmall : d.mantissa < 2 ^ 51)
    (hrest : 0 < d.mantissa % 10 ^ d.scale) :
    (d.whole.add d.fraction).IsWithin 1 d.magnitude := by
  obtain ⟨hplaces, hpower⟩ := hd.toRat_places
  have hpos := d.power_pos
  obtain ⟨hwholelt, hrestlt⟩ := d.parts_lt (Nat.lt_trans hsmall (by norm_num) : _ < 2 ^ 53)
  obtain ⟨hwhole, hwholevalue⟩ :
      d.whole.IsMagnitude ∧ d.whole.toRat = (d.mantissa / 10 ^ d.scale : Nat) :=
    Double.toRat_ofInt hwholelt
  obtain ⟨hpart, hpartvalue⟩ := Double.toRat_ofInt hrestlt
  have hlow := hd.one_div_le_rest hrest
  have hhigh := hd.magnitude_lt
  have hsplit := d.magnitude_eq_add
  have hnonneg : (0 : ℚ) ≤ (d.mantissa / 10 ^ d.scale : Nat) := Nat.cast_nonneg _
  have hrounded : d.fraction.IsRounded
      ((d.mantissa % 10 ^ d.scale : Nat) / (10 ^ d.scale : Nat)) := by
    have hunits := hplaces.units_pos (by rwa [hpower])
    rw [← hpartvalue, ← hpower]
    exact Double.isRounded_div hpart hplaces hunits (by rw [hpartvalue, hpower]; linarith)
  have hfraction := hrounded.relative_error (by linarith)
  have hfractionpos : 0 < d.fraction.toRat := by
    have := (abs_le.mp hfraction).1
    linarith
  rw [hsplit]
  rcases Nat.eq_zero_or_pos (d.mantissa / 10 ^ d.scale) with hzero | hwholepos
  · -- no whole part: the sum is the fraction
    rw [hzero, Nat.cast_zero] at hwholevalue
    have hunits : d.whole.units = 0 := hwhole.units_eq_zero hwholevalue
    rw [Double.zero_add_eq hwhole hunits hrounded.toIsMagnitude
      (hrounded.toIsMagnitude.units_pos hfractionpos), hzero, Nat.cast_zero, zero_add]
    exact ⟨hrounded.toIsMagnitude, by rw [one_mul]; exact hfraction⟩
  · have hlt : d.fraction.toRat < 1 := by
      have hless : ((d.mantissa % 10 ^ d.scale : Nat) : ℚ) + 1 ≤ (10 ^ d.scale : Nat) :=
        mod_cast Nat.mod_lt _ (Nat.pow_pos (by norm_num))
      have hfew : ((d.mantissa % 10 ^ d.scale : Nat) : ℚ) < 2 ^ 53 := mod_cast hrestlt
      have hshare : ((d.mantissa % 10 ^ d.scale : Nat) : ℚ) / (10 ^ d.scale : Nat) * (1 + 1 / 2 ^ 53) < 1 := by
        rw [div_mul_eq_mul_div, div_lt_one hpos]
        linarith
      have := (abs_le.mp hfraction).2
      linarith
    obtain ⟨hsum, herror⟩ := Double.add_fraction_error hwhole hrounded.toIsMagnitude hwholepos
      hwholevalue hwholelt hlt hfractionpos
    refine ⟨hsum, ?_⟩
    calc |(d.whole.add d.fraction).toRat - ((d.mantissa / 10 ^ d.scale : Nat)
            + (d.mantissa % 10 ^ d.scale : Nat) / (10 ^ d.scale : Nat))|
        = |((d.whole.add d.fraction).toRat - ((d.mantissa / 10 ^ d.scale : Nat) + d.fraction.toRat))
            + (d.fraction.toRat - (d.mantissa % 10 ^ d.scale : Nat) / (10 ^ d.scale : Nat))| := by
          ring_nf
      _ ≤ _ + _ := abs_add_le _ _
      _ ≤ _ + _ := add_le_add herror hfraction
      _ = _ := by ring

/-- The mantissa comes back whole: in its places the sum is off by less than a half. -/
theorem round_of_small (hd : d.IsShort) (hsmall : d.mantissa < 2 ^ 51)
    (hrest : 0 < d.mantissa % 10 ^ d.scale) :
    ((d.whole.add d.fraction).mul d.places).round = ofInt d.mantissa := by
  obtain ⟨hplaces, hpower⟩ := hd.toRat_places
  have hsum := isWithin_sum_of_small hd hsmall hrest
  have hpos := d.power_pos
  have hfew : (d.mantissa : ℚ) + 1 ≤ 2 ^ 51 := mod_cast hsmall
  have hnear : |(d.whole.add d.fraction).toRat * d.places.toRat - d.mantissa| ≤ 1 / 4 := by
    calc |(d.whole.add d.fraction).toRat * d.places.toRat - d.mantissa|
        = |(d.whole.add d.fraction).toRat - d.magnitude| * (10 ^ d.scale : Nat) := by
          rw [hpower, ← d.magnitude_mul_power, ← sub_mul, abs_mul, abs_of_pos hpos]
      _ ≤ 1 * (d.magnitude / 2 ^ 53) * (10 ^ d.scale : Nat) :=
          mul_le_mul_of_nonneg_right hsum.error hpos.le
      _ = d.magnitude * (10 ^ d.scale : Nat) / 2 ^ 53 := by ring
      _ = d.mantissa / 2 ^ 53 := by rw [d.magnitude_mul_power]
      _ ≤ 1 / 4 := by linarith
  obtain ⟨hbelow, habove⟩ := abs_le.mp hnear
  have hscaled := Double.isRounded_mul hsum.toIsMagnitude hplaces (by linarith)
  have herror := hscaled.error 50 (by norm_num)
    (by rw [show (50 : ℤ) + 1 = (51 : ℕ) from rfl, zpow_natCast]; linarith)
  rw [show (50 : ℤ) = (50 : ℕ) from rfl, zpow_natCast] at herror
  obtain ⟨n, hn, hlow, hhigh⟩ := Double.exists_round_eq hscaled.toIsMagnitude
  have hclose := abs_le.mp herror
  have hless : (n : ℚ) < d.mantissa + 1 := by linarith
  have hmore : (d.mantissa : ℚ) < n + 1 := by linarith
  have heq : n = d.mantissa := by
    have hless : n < d.mantissa + 1 := mod_cast hless
    have hmore : d.mantissa < n + 1 := mod_cast hmore
    omega
  rw [hn, heq]

/-! ## The result -/

/-- Where the digits survive, the conversion rounds the decimal once. -/
theorem magnitudeToDouble_eq_ofRatio (hd : d.IsShort) (hkept : d.IsKept) :
    d.magnitudeToDouble = ofRatio false (d.mantissa * 2 ^ binary64.scale) (10 ^ d.scale) := by
  have hpower : 0 < 10 ^ d.scale := Nat.pow_pos (by norm_num)
  rcases Nat.eq_zero_or_pos (d.mantissa % 10 ^ d.scale) with hwhole | hrest
  · have hmantissa : d.mantissa / 10 ^ d.scale * 10 ^ d.scale = d.mantissa :=
      Nat.div_mul_cancel (Nat.dvd_of_mod_eq_zero hwhole)
    have hnearest := binary64.nearest_mul_right hpower
      (d.mantissa / 10 ^ d.scale * 2 ^ binary64.scale) 1
    rw [Nat.mul_right_comm, hmantissa, Nat.one_mul] at hnearest
    rw [magnitudeToDouble_of_whole hd hwhole, whole, Double.ofInt_natCast, ofRatio, ofRatio,
      hnearest]
  · have hsmall : d.mantissa < 2 ^ 51 :=
      hkept.resolve_left fun hdvd => Nat.ne_of_gt hrest (Nat.mod_eq_zero_of_dvd hdvd)
    rw [magnitudeToDouble_of_rest hd hrest, round_of_small hd hsmall hrest,
      hd.div_places (Nat.lt_trans hsmall (by norm_num))]

/-- The value of a ratio of units is the magnitude. -/
theorem magnitude_eq_ratio (d : Decimal) :
    (d.mantissa * 2 ^ binary64.scale : Nat) / (10 ^ d.scale : Nat) / unitsPerOne = d.magnitude := by
  rw [Nat.cast_mul, mul_div_right_comm]
  exact mul_div_cancel_right₀ _ Double.unitsPerOne_ne_zero

/-- The conversion is never off by more than eight parts in `2 ^ 53`. -/
theorem isWithin_magnitudeToDouble (hd : d.IsShort) :
    d.magnitudeToDouble.IsWithin 8 d.magnitude := by
  rcases Nat.eq_zero_or_pos (d.mantissa % 10 ^ d.scale) with hwhole | hrest
  · have hmagnitude : d.magnitude = (d.mantissa / 10 ^ d.scale : Nat) := by
      rw [magnitude_eq_add, hwhole, Nat.cast_zero, zero_div, add_zero]
    rw [magnitudeToDouble_of_whole hd hwhole, hmagnitude]
    exact hd.isWithin_whole.mono (by norm_num) (Nat.cast_nonneg _)
  rcases Nat.lt_or_ge d.mantissa (2 ^ 51) with hsmall | hlarge
  · have hlow := hd.one_div_le_magnitude hrest
    have hhigh := hd.magnitude_lt
    have hpos : 0 < 10 ^ d.scale := Nat.pow_pos (by norm_num)
    have hlt : (d.mantissa * 2 ^ binary64.scale : Nat) / (10 ^ d.scale : Nat) / unitsPerOne
        < 2 ^ 200 := by
      rw [magnitude_eq_ratio]
      linarith
    have hrounded := Double.isRounded_ofRatio hpos hlt
    rw [magnitude_eq_ratio] at hrounded
    rw [magnitudeToDouble_eq_ofRatio hd (.inr hsmall)]
    refine ⟨hrounded.toIsMagnitude, (hrounded.relative_error (by linarith)).trans ?_⟩
    linarith [d.magnitude_nonneg]
  have hcast : (2 : ℚ) ^ 51 ≤ d.mantissa := mod_cast hlarge
  rw [magnitudeToDouble_of_rest hd hrest]
  rcases Nat.lt_or_ge d.mantissa (2 ^ 53) with hexact | hbeyond
  · obtain ⟨hwholelt, hrestlt⟩ := d.parts_lt hexact
    have hscaled := isWithin_scaled hd hrest zero_le_one (Double.isWithin_zero_ofInt hwholelt)
      (Double.isWithin_zero_ofInt hrestlt)
    have hhalf : (1 : ℚ) / 2 ≤ 2 * (d.mantissa / 2 ^ 53) := by linarith
    exact (isWithin_round_div hd hrest hscaled (by norm_num) hhalf).mono (by norm_num)
      d.magnitude_nonneg
  · have hcast : (2 : ℚ) ^ 53 ≤ d.mantissa := mod_cast hbeyond
    have hscaled := isWithin_scaled hd hrest le_rfl hd.isWithin_whole hd.isWithin_rest
    have hhalf : (1 : ℚ) / 2 ≤ 1 / 2 * (d.mantissa / 2 ^ 53) := by linarith
    exact (isWithin_round_div hd hrest hscaled (by norm_num) hhalf).mono (by norm_num)
      d.magnitude_nonneg

/-! ## Signs -/

/-- The conversion treats both signs alike. -/
theorem isFinite_toDouble (hd : d.IsShort) : d.toDouble.isFinite = true := by
  have hfinite := (isWithin_magnitudeToDouble hd).finite
  rw [toDouble]
  split
  · rw [Double.isFinite_neg]
    exact hfinite
  · exact hfinite

/-- The sign of a zero makes no difference to the value. -/
theorem toRat_eq_signed (d : Decimal) :
    d.toRat = if d.signed then -d.magnitude else d.magnitude := by
  by_cases hzero : d.mantissa = 0
  · have hmagnitude : d.magnitude = 0 := by simp [magnitude, hzero]
    simp [toRat, hmagnitude]
  · simp [toRat, signed, hzero]

/-- What separates a number from a decimal is what separates it from the magnitude, when the sign
of the decimal is taken from both. -/
theorem abs_sub_toRat (d : Decimal) (y : Double) :
    |y.toRat - d.toRat| = |(if d.signed then y.neg else y).toRat - d.magnitude| := by
  rw [toRat_eq_signed]
  split
  · rw [Double.toRat_neg, abs_sub_comm, sub_eq_add_neg, sub_eq_add_neg, add_comm]
  · rfl

theorem abs_toRat (d : Decimal) : |d.toRat| = d.magnitude := by
  rw [toRat]
  split
  · rw [abs_neg, abs_of_nonneg d.magnitude_nonneg]
  · exact abs_of_nonneg d.magnitude_nonneg

theorem toDouble_unsigned (d : Decimal) :
    (if d.signed then d.toDouble.neg else d.toDouble).toRat = d.magnitudeToDouble.toRat := by
  rw [toDouble]
  split
  · rw [Double.toRat_neg, Double.toRat_neg, neg_neg]
  · rfl

/-- The error of the conversion. -/
theorem toDouble_error (hd : d.IsShort) : |d.toDouble.toRat - d.toRat| ≤ |d.toRat| / 2 ^ 50 := by
  have herror := (isWithin_magnitudeToDouble hd).error
  rw [abs_sub_toRat, toDouble_unsigned, abs_toRat]
  linarith

/-- Where the digits survive, no finite number is closer than the result. -/
theorem toDouble_closest (hd : d.IsShort) (hkept : d.IsKept) (y : Double) :
    |d.toDouble.toRat - d.toRat| ≤ |y.toRat - d.toRat| := by
  have hpower : 0 < 10 ^ d.scale := Nat.pow_pos (by norm_num)
  have hlt := hd.magnitude_lt
  rw [abs_sub_toRat, abs_sub_toRat d y, toDouble_unsigned, magnitudeToDouble_eq_ofRatio hd hkept,
    ← magnitude_eq_ratio]
  rw [← magnitude_eq_ratio] at hlt
  exact Double.ofRatio_closest hpower (by linarith) _

/-- The number nearest to a short decimal needs none of the shortcuts for extreme powers. -/
theorem nearestDecimal_eq (hd : d.IsShort) :
    binary64.nearestDecimal d.mantissa (-d.scale)
      = binary64.nearest (d.mantissa * 2 ^ binary64.scale) (10 ^ d.scale) := by
  have hplaces := hd.scale_le
  have hlength := (Nat.length_toDigits_le_iff (b := 10) (by norm_num) (by norm_num)).mpr hd.mantissa_lt
  unfold BinaryFormat.nearestDecimal
  split
  case isTrue hzero =>
    rw [hzero, nearest_zero]
  simp only []
  rw [if_neg (by omega), if_neg (by omega)]
  split
  · have hscale : d.scale = 0 := by omega
    rw [hscale]
    simp
  · simp

/-- Where the digits survive, the result is the number nearest to them. -/
theorem toDouble_eq_ofDecimal (hd : d.IsShort) (hkept : d.IsKept) :
    d.toDouble = Double.ofDecimal d.signed d.mantissa (-d.scale) := by
  have hlt := Nat.lt_of_le_of_lt (binary64.nearest_le_infinity
    (d.mantissa * 2 ^ binary64.scale) (10 ^ d.scale)) Double.infinity_lt_signWeight
  rw [toDouble, magnitudeToDouble_eq_ofRatio hd hkept, Double.ofDecimal, nearestDecimal_eq hd, ofRatio]
  split
  case isTrue hsign =>
    rw [Double.neg, Double.negative_ofOrdinal _ hlt, Double.ordinal_ofOrdinal _ hlt, hsign]
    rfl
  case isFalse hsign => rw [Bool.eq_false_of_not_eq_true hsign]

end IndexQuery.Decimal
