import IndexQuery.Proofs.Number.Arithmetic
import Mathlib.Algebra.Order.Field.Rat
import Mathlib.Tactic.GCongr
import Mathlib.Tactic.Linarith
set_option autoImplicit false

/-! # What rounding finds

A ratio of whole numbers lies between the values of two neighbouring ordinals: `floor` is the lower
one (`units_floor_le`, `lt_units_floor_succ`), and rounding takes the nearer of the two
(`nearest_cases`). Since values grow with the ordinals, no other number of the format is closer
(`nearest_closest`), a number is only rounded to itself (`nearest_units`), and the error is half a
step of the row the ratio lies in (`nearest_error`). All this depends on the ratio only, not on the
terms it is given in (`nearest_mul_right`). -/

namespace IndexQuery

namespace BinaryFormat

variable (f : BinaryFormat) {num den : Nat}

/-! ## The two neighbours -/

/-- The row of a ratio: how many binary digits of its whole part have no place in the fraction
field. -/
def row (num den : Nat) : Nat := Nat.log2 (num / den) - f.fractionBits

/-- The largest ordinal whose value does not exceed a ratio, if values were not limited. -/
def floor (num den : Nat) : Nat :=
  f.row num den * 2 ^ f.fractionBits + num / (den * 2 ^ f.row num den)

/-- The leading digits of a ratio fit into the fraction field and the hidden digit, and outside the
first row they fill it. -/
theorem leading_digits (num den : Nat) :
    num / (den * 2 ^ f.row num den) < 2 ^ (f.fractionBits + 1) ∧
      (0 < f.row num den → 2 ^ f.fractionBits ≤ num / (den * 2 ^ f.row num den)) := by
  have hdiv : num / (den * 2 ^ f.row num den) = num / den / 2 ^ f.row num den :=
    (Nat.div_div_eq_div_mul _ _ _).symm
  rw [hdiv]
  refine ⟨f.leading_lt _, fun hrow => ?_⟩
  have hlog : f.fractionBits + f.row num den = Nat.log2 (num / den) := by
    unfold row at hrow ⊢
    omega
  have hne : num / den ≠ 0 := by
    rintro hzero
    rw [hzero, Nat.log2_zero] at hlog
    omega
  rw [Nat.le_div_iff_mul_le (Nat.two_pow_pos _), ← Nat.pow_add, hlog]
  exact Nat.log2_self_le hne

theorem units_floor (num den : Nat) :
    f.units (f.floor num den) = num / (den * 2 ^ f.row num den) * 2 ^ f.row num den :=
  f.units_shifted (f.leading_digits num den).1 (f.leading_digits num den).2

/-- The next ordinal is one step of the row further. -/
theorem units_floor_succ (num den : Nat) :
    f.units (f.floor num den + 1) = f.units (f.floor num den) + 2 ^ f.row num den := by
  obtain ⟨hlt, hfull⟩ := f.leading_digits num den
  rw [units_floor, floor, Nat.add_assoc, ← Nat.succ_mul]
  generalize f.row num den = row at *
  generalize num / (den * 2 ^ row) = below at *
  by_cases hlast : below + 1 < 2 ^ (f.fractionBits + 1)
  · exact f.units_shifted hlast fun hrow => Nat.le_succ_of_le (hfull hrow)
  · -- the last place of a row: the next number opens the row above
    have hbelow : below + 1 = 2 ^ f.fractionBits + 2 ^ f.fractionBits := by
      rw [Nat.pow_succ] at hlt hlast
      omega
    have hopen : row * 2 ^ f.fractionBits + (below + 1)
        = (row + 1) * 2 ^ f.fractionBits + 2 ^ f.fractionBits := by
      rw [hbelow, Nat.succ_mul, Nat.add_assoc]
    have hdouble : 2 ^ (f.fractionBits + 1) = 2 ^ f.fractionBits + 2 ^ f.fractionBits := by
      rw [Nat.pow_succ, Nat.mul_two]
    rw [hopen, f.units_shifted (hdouble ▸ Nat.lt_add_of_pos_right (Nat.two_pow_pos _))
      fun _ => Nat.le_refl _, Nat.succ_eq_add_one, hbelow, ← hdouble, ← Nat.pow_add, ← Nat.pow_add,
      Nat.add_right_comm, Nat.add_assoc]

theorem units_floor_le (num den : Nat) : f.units (f.floor num den) * den ≤ num := by
  rw [units_floor, Nat.mul_assoc, Nat.mul_comm (2 ^ _) den]
  exact Nat.div_mul_le_self _ _

theorem lt_units_floor_succ (hden : 0 < den) (num : Nat) :
    num < f.units (f.floor num den + 1) * den := by
  rw [units_floor_succ, units_floor, ← Nat.succ_mul, Nat.mul_assoc, Nat.mul_comm (2 ^ _) den,
    Nat.mul_comm]
  exact Nat.lt_mul_div_succ _ (Nat.mul_pos hden (Nat.two_pow_pos _))

/-- Rounding takes the neighbour on the ratio's side of the middle. -/
theorem nearest_cases (num den : Nat) :
    (f.nearest num den = min (f.floor num den) f.infinity ∧
      2 * num ≤ (f.units (f.floor num den) + f.units (f.floor num den + 1)) * den) ∨
    (f.nearest num den = min (f.floor num den + 1) f.infinity ∧
      (f.units (f.floor num den) + f.units (f.floor num den + 1)) * den ≤ 2 * num) := by
  have hstep : f.units (f.floor num den + 1) * den
      = f.units (f.floor num den) * den + den * 2 ^ f.row num den := by
    rw [units_floor_succ, Nat.add_mul, Nat.mul_comm (2 ^ _) den]
  have hnum : num = f.units (f.floor num den) * den + num % (den * 2 ^ f.row num den) := by
    rw [units_floor, Nat.mul_assoc, Nat.mul_comm (2 ^ _) den, Nat.div_add_mod']
  rw [Nat.add_mul, hstep]
  unfold nearest
  simp only [show Nat.log2 (num / den) - f.fractionBits = f.row num den from rfl]
  split
  · next hup =>
      refine .inr ⟨rfl, ?_⟩
      omega
  · next hdown =>
      refine .inl ⟨rfl, ?_⟩
      omega

/-- Rounding depends on the ratio only. -/
theorem nearest_mul_right {c : Nat} (hc : 0 < c) (num den : Nat) :
    f.nearest (num * c) (den * c) = f.nearest num den := by
  have hstep (shift : Nat) : den * c * 2 ^ shift = den * 2 ^ shift * c := Nat.mul_right_comm _ _ _
  have htwice (n : Nat) : 2 * (n * c) = 2 * n * c := (Nat.mul_assoc _ _ _).symm
  unfold nearest
  simp only [Nat.mul_div_mul_right _ _ hc, hstep, Nat.mul_mod_mul_right, htwice,
    Nat.mul_lt_mul_right hc, Nat.mul_left_inj (Nat.ne_of_gt hc)]

/-! ## Exact values -/

/-- A number of the format is rounded to itself. -/
theorem nearest_units {ordinal : Nat} (h : ordinal ≤ f.infinity) :
    f.nearest (f.units ordinal) 1 = ordinal := by
  have hlow := f.units_floor_le (f.units ordinal) 1
  have hhigh := f.lt_units_floor_succ Nat.one_pos (f.units ordinal)
  rw [Nat.mul_one] at hlow hhigh
  have hfloor : f.floor (f.units ordinal) 1 = ordinal := by
    have := f.units_strictMono.le_iff_le.mp hlow
    have := f.units_strictMono.lt_iff_lt.mp hhigh
    omega
  rcases f.nearest_cases (f.units ordinal) 1 with ⟨hnearest, -⟩ | ⟨-, hmiddle⟩
  · rw [hnearest, hfloor, Nat.min_eq_left h]
  · have := f.units_lt_units_succ ordinal
    rw [hfloor] at hmiddle
    omega

/-- Few digits with zeros behind them are a number of the format. -/
theorem units_nearest_digits {digits zeros : Nat} (hdigits : digits < 2 ^ (f.fractionBits + 1))
    (hzeros : zeros + 2 < 2 ^ f.exponentBits) :
    f.units (f.nearest (digits * 2 ^ zeros) 1) = digits * 2 ^ zeros := by
  have hlt : digits * 2 ^ zeros < 2 ^ (f.fractionBits + zeros + 1) := by
    calc digits * 2 ^ zeros
        < 2 ^ (f.fractionBits + 1) * 2 ^ zeros :=
          Nat.mul_lt_mul_of_pos_right hdigits (Nat.two_pow_pos _)
      _ = 2 ^ (f.fractionBits + zeros + 1) := by rw [← Nat.pow_add, Nat.add_right_comm]
  have hlog : Nat.log2 (digits * 2 ^ zeros) - f.fractionBits ≤ zeros := by
    by_cases hnone : digits * 2 ^ zeros = 0
    · rw [hnone, Nat.log2_zero]
      omega
    · have := (Nat.log2_lt hnone).mpr hlt
      omega
  exact f.units_nearest hzeros hlt
    (Nat.dvd_trans (Nat.pow_dvd_pow 2 hlog) (Nat.dvd_mul_left _ _))

/-- Rounding does not pass a number of the format. -/
theorem nearest_le {ordinal : Nat} (hden : 0 < den) (h : num ≤ f.units ordinal * den) :
    f.nearest num den ≤ ordinal := by
  have hfloor : f.floor num den ≤ ordinal :=
    f.units_strictMono.le_iff_le.mp
      (Nat.le_of_mul_le_mul_right (Nat.le_trans (f.units_floor_le num den) h) hden)
  rcases f.nearest_cases num den with ⟨hnearest, -⟩ | ⟨hnearest, hmiddle⟩
  · rw [hnearest]
    exact Nat.le_trans (Nat.min_le_left _ _) hfloor
  · rw [hnearest]
    refine Nat.le_trans (Nat.min_le_left _ _) (Nat.lt_of_le_of_ne hfloor ?_)
    -- a ratio that is a number of the format is not rounded up
    rintro rfl
    have := Nat.mul_lt_mul_of_pos_right (f.units_lt_units_succ (f.floor num den)) hden
    rw [Nat.add_mul] at hmiddle
    omega

/-- There are numbers beyond a ratio that is not too large, so it is rounded to a finite number. -/
theorem nearest_lt_infinity_of_ratio (row : Nat) (hrow : row + 2 < 2 ^ f.exponentBits)
    (hden : 0 < den) (hnum : num ≤ 2 ^ (f.fractionBits + row) * den) :
    f.nearest num den < f.infinity := by
  have hunits : f.units ((row + 1) * 2 ^ f.fractionBits + 0) = 2 ^ (f.fractionBits + row) := by
    rw [f.units_row row 0 (Nat.two_pow_pos _), Nat.add_zero, ← Nat.pow_add]
  have hle : f.nearest num den ≤ (row + 1) * 2 ^ f.fractionBits + 0 :=
    f.nearest_le hden (by rwa [hunits])
  have hlast : (row + 1) * 2 ^ f.fractionBits < f.infinity :=
    Nat.mul_lt_mul_of_pos_right (by omega) (Nat.two_pow_pos _)
  omega

/-! ## Errors -/

section

variable (hden : 0 < den) (hfinite : f.nearest num den < f.infinity)

include hden hfinite

/-- A finite result is one of the two neighbours, the one that is not farther away. -/
theorem nearest_eq_neighbour :
    f.nearest num den = f.floor num den ∧
      2 * (num / den : ℚ) ≤ f.units (f.floor num den) + f.units (f.floor num den + 1) ∨
    f.nearest num den = f.floor num den + 1 ∧
      (f.units (f.floor num den) + f.units (f.floor num den + 1) : ℚ) ≤ 2 * (num / den) := by
  have hpos : (0 : ℚ) < den := Nat.cast_pos.mpr hden
  rcases f.nearest_cases num den with ⟨hnearest, hmiddle⟩ | ⟨hnearest, hmiddle⟩
  · refine .inl ⟨by omega, ?_⟩
    rw [← mul_div_assoc, div_le_iff₀ hpos]
    exact_mod_cast hmiddle
  · refine .inr ⟨by omega, ?_⟩
    rw [← mul_div_assoc, le_div_iff₀ hpos]
    exact_mod_cast hmiddle

omit hfinite in
theorem between_neighbours :
    (f.units (f.floor num den) : ℚ) ≤ num / den ∧
      (num / den : ℚ) < f.units (f.floor num den + 1) := by
  have hpos : (0 : ℚ) < den := Nat.cast_pos.mpr hden
  rw [le_div_iff₀ hpos, div_lt_iff₀ hpos]
  exact ⟨mod_cast f.units_floor_le num den, mod_cast f.lt_units_floor_succ hden num⟩

/-- No number of the format is closer to a ratio than the one it is rounded to. -/
theorem nearest_closest (ordinal : Nat) :
    |(f.units (f.nearest num den) : ℚ) - num / den| ≤ |(f.units ordinal : ℚ) - num / den| := by
  obtain ⟨hlow, hhigh⟩ := f.between_neighbours hden
  have hsides : (f.units ordinal : ℚ) ≤ f.units (f.floor num den) ∨
      (f.units (f.floor num den + 1) : ℚ) ≤ f.units ordinal := by
    rcases Nat.lt_or_ge (f.floor num den) ordinal with habove | hbelow
    · exact .inr (mod_cast f.units_strictMono.monotone habove)
    · exact .inl (mod_cast f.units_strictMono.monotone hbelow)
  have hneighbour := f.nearest_eq_neighbour hden hfinite
  generalize (num / den : ℚ) = ratio at *
  rcases hneighbour with ⟨hnearest, hmiddle⟩ | ⟨hnearest, hmiddle⟩
  · rw [hnearest, abs_of_nonpos (by linarith)]
    rcases hsides with hside | hside
    · rw [abs_of_nonpos (by linarith)]
      linarith
    · rw [abs_of_nonneg (by linarith)]
      linarith
  · rw [hnearest, abs_of_nonneg (by linarith)]
    rcases hsides with hside | hside
    · rw [abs_of_nonpos (by linarith)]
      linarith
    · rw [abs_of_nonneg (by linarith)]
      linarith

/-- The error is at most half a step of any row above which the ratio does not lie. -/
theorem nearest_error {row : Nat} (hrow : num < 2 ^ (f.fractionBits + 1 + row) * den) :
    |(f.units (f.nearest num den) : ℚ) - num / den| ≤ 2 ^ row / 2 := by
  have hle : f.row num den ≤ row := by
    have hquotient : num / den < 2 ^ (f.fractionBits + 1 + row) :=
      Nat.div_lt_of_lt_mul (by rwa [Nat.mul_comm])
    unfold BinaryFormat.row
    by_cases hzero : num / den = 0
    · rw [hzero, Nat.log2_zero]
      omega
    · have := (Nat.log2_lt hzero).mpr hquotient
      omega
  have hstep : (f.units (f.floor num den + 1) : ℚ) ≤ f.units (f.floor num den) + 2 ^ row := by
    rw [units_floor_succ]
    push_cast
    gcongr
    norm_num
  obtain ⟨hlow, hhigh⟩ := f.between_neighbours hden
  have hneighbour := f.nearest_eq_neighbour hden hfinite
  rw [← add_halves ((2 : ℚ) ^ row)] at hstep
  generalize (2 : ℚ) ^ row / 2 = half at *
  generalize (num / den : ℚ) = ratio at *
  rw [abs_le]
  rcases hneighbour with ⟨hnearest, hmiddle⟩ | ⟨hnearest, hmiddle⟩
  · rw [hnearest]
    constructor <;> linarith
  · rw [hnearest]
    constructor <;> linarith

end

end BinaryFormat

end IndexQuery
