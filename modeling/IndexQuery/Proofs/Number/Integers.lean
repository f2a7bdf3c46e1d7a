import IndexQuery.Proofs.Number.Arithmetic
import IndexQuery.Proofs.Number.Written
set_option autoImplicit false

/-! # Integers in double precision

Integers of a magnitude below `2 ^ 53` are numbers of the format: they are encoded without rounding
(`signedUnits_ofInt`), so they are ordered as they were (`rank_ofInt_le_iff`).

Their texts are their decimal digits, with a sign in front of a negative one (`text_ofInt`,
`numberText_ofInt`), although a query finds the digits in one of two ways. Up to fifteen digits it
writes the whole part of the number. Above that it searches for the shortest decimal, from coarse
grids to fine ones. On the grid of the integers the number itself is found, so the search ends there
or on a coarser grid, in any case with an integer; and no integer but the number reads as the number
(`BinaryFormat.eq_of_reads_whole`). Both facts hold of whole numbers in any binary format, as long
as they have no more digits than the format has places. -/

namespace IndexQuery

/-! ## Digits -/

namespace Number

/-- Zeros behind the digits of a positive number multiply it by a power of ten. -/
theorem toDigits_mul_pow {n : Nat} (hn : 0 < n) (zeros : Nat) :
    Nat.toDigits 10 (n * 10 ^ zeros) = Nat.toDigits 10 n ++ List.replicate zeros '0' := by
  induction zeros with
  | zero => rw [Nat.pow_zero, Nat.mul_one, List.replicate_zero, List.append_nil]
  | succ zeros ih =>
      have hpos : 0 < n * 10 ^ zeros := Nat.mul_pos hn (Nat.pow_pos (by omega))
      calc Nat.toDigits 10 (n * 10 ^ (zeros + 1))
          = Nat.toDigits 10 (10 * (n * 10 ^ zeros) + 0) := by congr 1; rw [Nat.pow_succ]; ring
        _ = Nat.toDigits 10 (n * 10 ^ zeros) ++ Nat.toDigits 10 0 :=
            (Nat.toDigits_append_toDigits (by omega) hpos (by omega)).symm
        _ = Nat.toDigits 10 n ++ List.replicate zeros '0' ++ ['0'] := by rw [ih]; rfl
        _ = Nat.toDigits 10 n ++ List.replicate (zeros + 1) '0' := by
            rw [List.append_assoc, List.replicate_succ']

end Number

namespace BinaryFormat

section

variable {f : BinaryFormat} {tie : TieBreak} {ordinal m n : Nat}

/-! ## Whole numbers of a format -/

/-- A whole number is read from its digits. -/
theorem reads_whole (h : f.units ordinal = n * 2 ^ f.scale) : f.Reads ordinal n 0 := by
  apply f.reads_of_eq
  rw [h, Nat.pow_zero, Nat.mul_one]

/-- The cell of a number ends at the middle to the next number. -/
theorem Reads.le_middle (h : f.Reads ordinal n 0) :
    2 * (n * 2 ^ f.scale) ≤ f.units ordinal + f.units (ordinal + 1) := by
  unfold Reads at h
  rw [Nat.pow_zero, Nat.mul_one, Nat.mul_one, Nat.mul_left_comm n 2] at h
  split at h
  · exact h.2
  · exact Nat.le_of_lt h.2

/-- One is `2 ^ scale` units. -/
theorem whole_lt (hn : n < 2 ^ (f.fractionBits + 1)) :
    n * 2 ^ f.scale < 2 ^ (f.fractionBits + f.scale + 1) := by
  calc n * 2 ^ f.scale
      < 2 ^ (f.fractionBits + 1) * 2 ^ f.scale :=
        Nat.mul_lt_mul_of_pos_right hn (Nat.two_pow_pos _)
    _ = 2 ^ (f.fractionBits + 1 + f.scale) := (Nat.pow_add _ _ _).symm
    _ = 2 ^ (f.fractionBits + f.scale + 1) := by rw [Nat.add_right_comm]

-- The whole numbers have a row of the format, and there are rows above it.
variable (hf : f.scale + 4 ≤ 2 ^ f.exponentBits) (hn : n < 2 ^ (f.fractionBits + 1))

include hf hn

/-- Whole numbers with as many digits as there is place for are not rounded. -/
theorem units_nearest_whole : f.units (f.nearest (n * 2 ^ f.scale) 1) = n * 2 ^ f.scale := by
  have hlog : Nat.log2 (n * 2 ^ f.scale) - f.fractionBits ≤ f.scale := by
    by_cases hzero : n * 2 ^ f.scale = 0
    · rw [hzero, Nat.log2_zero]
      omega
    · have := (Nat.log2_lt hzero).mpr (whole_lt hn)
      omega
  refine f.units_nearest (by omega) (whole_lt hn) ?_
  exact Nat.dvd_trans (Nat.pow_dvd_pow 2 hlog) (Nat.dvd_mul_left _ _)

theorem nearest_whole_lt_infinity : f.nearest (n * 2 ^ f.scale) 1 < f.infinity := by
  obtain ⟨row, hrow⟩ : ∃ row, row + 3 = 2 ^ f.exponentBits := ⟨2 ^ f.exponentBits - 3, by omega⟩
  refine f.nearest_lt_infinity hrow ?_
  have hdigits : 2 ^ (f.fractionBits + 1) ≤ (2 ^ (f.fractionBits + 1) - 1) * 2 := by
    have : 2 ^ 1 ≤ 2 ^ (f.fractionBits + 1) := Nat.pow_le_pow_right (by omega) (by omega)
    omega
  have hdouble : 2 ^ (f.scale + 1) = 2 * 2 ^ f.scale := Nat.pow_succ'
  calc n * 2 ^ f.scale
      < 2 ^ (f.fractionBits + 1) * 2 ^ f.scale :=
        Nat.mul_lt_mul_of_pos_right hn (Nat.two_pow_pos _)
    _ ≤ (2 ^ (f.fractionBits + 1) - 1) * 2 * 2 ^ f.scale := Nat.mul_le_mul_right _ hdigits
    _ = (2 ^ (f.fractionBits + 1) - 1) * 2 ^ (f.scale + 1) := by
        rw [Nat.mul_assoc, hdouble]
    _ ≤ (2 ^ (f.fractionBits + 1) - 1) * 2 ^ row :=
        Nat.mul_le_mul_left _ (Nat.pow_le_pow_right (by omega) (by omega))

omit hf in
/-- The number after a whole number has at most one digit more. -/
theorem units_succ_le (h : f.units ordinal = n * 2 ^ f.scale) :
    f.units (ordinal + 1) ≤ 2 ^ (f.fractionBits + f.scale + 1) := by
  have hlimit : f.units ((f.scale + 1 + 1) * 2 ^ f.fractionBits + 0)
      = 2 ^ (f.fractionBits + f.scale + 1) := by
    rw [f.units_row (f.scale + 1) 0 (Nat.two_pow_pos _), Nat.add_zero, ← Nat.pow_add,
      Nat.add_assoc]
  have hbelow := whole_lt hn
  rw [← h, ← hlimit] at hbelow
  have hordinal : ordinal < (f.scale + 1 + 1) * 2 ^ f.fractionBits + 0 :=
    f.units_strictMono.lt_iff_lt.mp hbelow
  calc f.units (ordinal + 1)
      ≤ f.units ((f.scale + 1 + 1) * 2 ^ f.fractionBits + 0) :=
        f.units_strictMono.monotone hordinal
    _ = 2 ^ (f.fractionBits + f.scale + 1) := hlimit

/-- The only whole number that reads as a whole number is the number itself. -/
theorem eq_of_reads_whole (hordinal : f.units ordinal = n * 2 ^ f.scale)
    (h : f.Reads ordinal m 0) : m = n := by
  have hpos : 0 < 2 ^ f.scale := Nat.two_pow_pos _
  -- the cell of the number ends before the limit, so that the other one can be encoded too
  have hm : m < 2 ^ (f.fractionBits + 1) := by
    have hcell : 2 * (m * 2 ^ f.scale) < 2 * (2 ^ (f.fractionBits + 1) * 2 ^ f.scale) := by
      calc 2 * (m * 2 ^ f.scale)
          ≤ f.units ordinal + f.units (ordinal + 1) := h.le_middle
        _ < 2 ^ (f.fractionBits + f.scale + 1) + 2 ^ (f.fractionBits + f.scale + 1) :=
            Nat.add_lt_add_of_lt_of_le (hordinal ▸ whole_lt hn) (units_succ_le hn hordinal)
        _ = 2 * (2 ^ (f.fractionBits + 1) * 2 ^ f.scale) := by
            rw [← Nat.two_mul, ← Nat.pow_add, Nat.add_right_comm]
    exact Nat.lt_of_mul_lt_mul_right (Nat.lt_of_mul_lt_mul_left hcell)
  have hreads : f.Reads (f.nearest (m * 2 ^ f.scale) 1) m 0 :=
    reads_whole (units_nearest_whole hf hm)
  have hsame : n * 2 ^ f.scale = m * 2 ^ f.scale := by
    calc n * 2 ^ f.scale
        = f.units ordinal := hordinal.symm
      _ = f.units (f.nearest (m * 2 ^ f.scale) 1) := congrArg f.units (h.ordinal_eq f hreads)
      _ = m * 2 ^ f.scale := units_nearest_whole hf hm
  exact (Nat.eq_of_mul_eq_mul_right hpos hsame).symm

end

/-! ## The search among the integers -/

section

variable {f : BinaryFormat} {tie : TieBreak} {ordinal n : Nat}

/-- On the grid of the integers a whole number is found. -/
theorem exists_gridPoint_zero (tie : TieBreak) (h : f.units ordinal = n * 2 ^ f.scale) :
    ∃ digits, f.gridPoint tie ordinal 0 = some digits := by
  have hpos : 0 < 2 ^ f.scale := Nat.two_pow_pos _
  have hreads : f.Reads ordinal n 0 := reads_whole h
  unfold gridPoint
  extract_lets up den value low high step below reads gap preferAbove
  have hstep : step = 2 * 2 ^ f.scale := by
    show 2 * (2 ^ f.scale * 1) = _
    rw [Nat.mul_one]
  have hbelow : below = n := by
    have hvalue : value = n * step := by
      show 2 * f.units ordinal * 1 = n * step
      rw [h, hstep]
      ring
    show value / step = n
    rw [hvalue]
    exact Nat.mul_div_cancel _ (by omega)
  -- of the two points around the number the first is the number itself
  have hfound : reads below = true := by
    rw [hbelow]
    unfold Reads at hreads
    have hlow : low = (f.units (ordinal - 1) + f.units ordinal) * 10 ^ 0 := rfl
    have hhigh : high = (f.units ordinal + f.units (ordinal + 1)) * 10 ^ 0 := rfl
    rw [← hstep, ← hlow, ← hhigh] at hreads
    show (if ordinal % 2 = 0 then _ else _) = true
    split at hreads
    · next heven => simpa [heven] using hreads
    · next hodd => simpa [hodd] using hreads
  rw [hfound]
  cases reads (below + 1) with
  | true => exact ⟨_, rfl⟩
  | false => exact ⟨_, rfl⟩

/-- The search does not go past a grid on which something is found. -/
theorem searchGrids_ge {last : Int} (hlast : ∃ digits, f.gridPoint tie ordinal last = some digits)
    (fuel : Nat) {exponent : Int} (hstart : last ≤ exponent) (hfuel : exponent < last + fuel) :
    ∃ m, f.searchGrids tie ordinal fuel exponent = some m ∧ last ≤ m.exponent := by
  induction fuel generalizing exponent with
  | zero => omega
  | succ fuel ih =>
      rw [searchGrids]
      cases hgrid : f.gridPoint tie ordinal exponent with
      | some digits => exact ⟨_, rfl, hstart⟩
      | none =>
          have hnot : exponent ≠ last := by
            rintro rfl
            obtain ⟨digits, hdigits⟩ := hlast
            rw [hgrid] at hdigits
            cases hdigits
          exact ih (by omega) (by omega)

/-- The search for a whole number ends on the grid of the integers or on a coarser one. -/
theorem exponent_shortest_whole (hfraction : f.fractionBits < 64) (tie : TieBreak) (hpos : 0 < n)
    (hn : n < 2 ^ (f.fractionBits + 1)) (hordinal : f.units ordinal = n * 2 ^ f.scale) :
    0 ≤ (f.shortest tie ordinal).exponent := by
  have hunits : f.units ordinal ≠ 0 := by
    rw [hordinal]
    exact Nat.ne_of_gt (Nat.mul_pos hpos (Nat.two_pow_pos _))
  have hlow : f.scale ≤ Nat.log2 (f.units ordinal) := by
    refine (Nat.le_log2 hunits).mpr ?_
    rw [hordinal]
    exact Nat.le_mul_of_pos_left _ hpos
  have hhigh : Nat.log2 (f.units ordinal) < f.fractionBits + f.scale + 1 := by
    refine (Nat.log2_lt hunits).mpr ?_
    rw [hordinal]
    exact whole_lt hn
  -- the search starts on a grid of powers of up to twenty zeros
  have hstart : 0 ≤ decimalBound ((Nat.log2 (f.units ordinal) : Int) + 1 - f.scale) := by
    unfold decimalBound
    omega
  have hfuel : decimalBound ((Nat.log2 (f.units ordinal) : Int) + 1 - f.scale)
      < 0 + (24 : Nat) := by
    unfold decimalBound
    omega
  obtain ⟨m, hm, hge⟩ := searchGrids_ge (exists_gridPoint_zero tie hordinal) 24 hstart hfuel
  simp only [shortest, hm, Option.getD_some]
  exact hge

/-- The shortest decimal of a whole number is the number, with zeros for the digits that are left
out. -/
theorem shortest_whole (hf : f.scale + 4 ≤ 2 ^ f.exponentBits) (hfraction : f.fractionBits < 64)
    (tie : TieBreak) (hpos : 0 < n) (hn : n < 2 ^ (f.fractionBits + 1))
    (hordinal : f.units ordinal = n * 2 ^ f.scale) :
    0 ≤ (f.shortest tie ordinal).exponent ∧
      (f.shortest tie ordinal).digits * 10 ^ (f.shortest tie ordinal).exponent.toNat = n := by
  have hexponent := exponent_shortest_whole hfraction tie hpos hn hordinal
  refine ⟨hexponent, ?_⟩
  have hreads := f.reads_shortest tie ordinal
  have hplaces : (-(f.shortest tie ordinal).exponent).toNat = 0 := by omega
  rw [hplaces] at hreads
  exact eq_of_reads_whole hf hn hordinal hreads

end

end BinaryFormat

namespace Double

open BinaryFormat (binary64)

variable {m n : Int}

/-! ## Integers as numbers -/

theorem format_fits : binary64.scale + 4 ≤ 2 ^ binary64.exponentBits ∧
    binary64.fractionBits < 64 := by decide

theorem isFinite_ofInt (hn : n.natAbs < 2 ^ 53) : (ofInt n).isFinite = true :=
  isFinite_ofOrdinal _ (BinaryFormat.nearest_whole_lt_infinity format_fits.1 hn)

theorem negative_ofInt (n : Int) : (ofInt n).negative = decide (n < 0) := negative_ofRatio _ _ _

theorem units_ofInt (hn : n.natAbs < 2 ^ 53) :
    (ofInt n).units = n.natAbs * 2 ^ binary64.scale := by
  have hordinal : (ofInt n).ordinal = binary64.nearest (n.natAbs * 2 ^ binary64.scale) 1 :=
    ordinal_ofOrdinal _ (Nat.lt_of_le_of_lt (binary64.nearest_le_infinity _ _)
      infinity_lt_signWeight)
  rw [units, hordinal]
  exact BinaryFormat.units_nearest_whole format_fits.1 hn

/-- Integers are encoded without rounding. -/
theorem signedUnits_ofInt (hn : n.natAbs < 2 ^ 53) :
    (ofInt n).signedUnits = n * (2 ^ binary64.scale : Nat) := by
  rw [signedUnits, negative_ofInt, units_ofInt hn]
  generalize 2 ^ binary64.scale = one
  by_cases hneg : n < 0
  · rw [decide_eq_true hneg, if_pos rfl, Int.natCast_mul, ← Int.neg_mul]
    congr 1
    omega
  · rw [decide_eq_false hneg, if_neg Bool.false_ne_true, Int.natCast_mul]
    congr 1
    omega

/-! ## Order -/

theorem units_le_units_iff {x y : Double} : x.units ≤ y.units ↔ x.ordinal ≤ y.ordinal :=
  binary64.units_strictMono.le_iff_le

theorem units_eq_zero_iff {x : Double} : x.units = 0 ↔ x.ordinal = 0 := by
  have hzero : binary64.units 0 = 0 := binary64.units_of_lt (Nat.two_pow_pos _)
  constructor
  · intro h
    exact binary64.units_inj (h.trans hzero.symm)
  · intro h
    rw [units, h, hzero]

/-- Numbers are ordered as their values in units. -/
theorem rank_le_iff_signedUnits (x y : Double) :
    x.rank ≤ y.rank ↔ x.signedUnits ≤ y.signedUnits := by
  have hxy := units_le_units_iff (x := x) (y := y)
  have hyx := units_le_units_iff (x := y) (y := x)
  have hx := units_eq_zero_iff (x := x)
  have hy := units_eq_zero_iff (x := y)
  unfold rank signedUnits
  cases x.negative with
  | false =>
      cases y.negative with
      | false =>
          simp only [Bool.false_eq_true, if_false]
          omega
      | true =>
          simp only [Bool.false_eq_true, if_false, if_true]
          omega
  | true =>
      cases y.negative with
      | false =>
          simp only [Bool.false_eq_true, if_false, if_true]
          omega
      | true =>
          simp only [if_true]
          omega

/-- Integers are ordered as they were. -/
theorem rank_ofInt_le_iff (hm : m.natAbs < 2 ^ 53) (hn : n.natAbs < 2 ^ 53) :
    (ofInt m).rank ≤ (ofInt n).rank ↔ m ≤ n := by
  have hone : (0 : Int) < (2 ^ binary64.scale : Nat) :=
    Int.natCast_pos.mpr (Nat.two_pow_pos _)
  rw [rank_le_iff_signedUnits, signedUnits_ofInt hm, signedUnits_ofInt hn]
  constructor
  · intro hle
    exact Int.le_of_mul_le_mul_right hle hone
  · intro hle
    exact Int.mul_le_mul_of_nonneg_right hle (Int.le_of_lt hone)

theorem le_ofInt_iff (hm : m.natAbs < 2 ^ 53) (hn : n.natAbs < 2 ^ 53) :
    (ofInt m).le (ofInt n) = true ↔ m ≤ n := by
  rw [le_iff, rank_ofInt_le_iff hm hn]
  simp only [isNaN_ofInt, true_and]

theorem lt_ofInt_iff (hm : m.natAbs < 2 ^ 53) (hn : n.natAbs < 2 ^ 53) :
    (ofInt m).lt (ofInt n) = true ↔ m < n := by
  rw [lt_iff, ← Int.not_le, rank_ofInt_le_iff hn hm, Int.not_le]
  simp only [isNaN_ofInt, true_and]

/-! ## Texts -/

/-- The decimal digits of an integer, with a sign if it is negative. -/
def intText (n : Int) : List Char := (if n < 0 then ['-'] else []) ++ Nat.toDigits 10 n.natAbs

theorem isInfinite_ofInt (hn : n.natAbs < 2 ^ 53) : (ofInt n).isInfinite = false :=
  isInfinite_of_isFinite (isFinite_ofInt hn)

theorem isZero_ofInt_iff (hn : n.natAbs < 2 ^ 53) : (ofInt n).isZero = true ↔ n = 0 := by
  have hordinal : (ofInt n).isZero = true ↔ (ofInt n).ordinal = 0 := beq_iff_eq
  have hpos : 0 < 2 ^ binary64.scale := Nat.two_pow_pos _
  rw [hordinal, ← units_eq_zero_iff, units_ofInt hn, Nat.mul_eq_zero]
  omega

/-- The layout of queries writes a decimal without places as its digits and zeros. -/
theorem magnitudeText_plain {d : DecimalMagnitude} (hd : 0 ≤ d.exponent) :
    NumberLayout.plain.magnitudeText d
      = Nat.toDigits 10 d.digits ++ List.replicate d.exponent.toNat '0' := by
  have hzeros : ((Nat.toDigits 10 d.digits).length + d.exponent
      - (Nat.toDigits 10 d.digits).length).toNat = d.exponent.toNat := by omega
  show NumberLayout.plain.positionalForm _ _ = _
  rw [NumberLayout.positionalForm, if_pos (by omega), hzeros]
  exact List.append_nil _

/-- An integer is written with all of its digits. -/
theorem text_ofInt (hn : n.natAbs < 2 ^ 53) : (ofInt n).text = intText n := by
  have hsign : (if (ofInt n).negative = true then ['-'] else []) = if n < 0 then ['-'] else [] := by
    rw [negative_ofInt]
    simp only [decide_eq_true_eq]
  have hfinite : ¬ (ofInt n).isInfinite = true := by
    rw [isInfinite_ofInt hn]
    exact Bool.false_ne_true
  have hnumber : ¬ (ofInt n).isNaN = true := by
    rw [isNaN_ofInt]
    exact Bool.false_ne_true
  rw [text, NumberLayout.text, if_neg hnumber, hsign, if_neg hfinite, intText]
  congr 1
  by_cases hzero : n = 0
  · rw [if_pos ((isZero_ofInt_iff hn).mpr hzero), hzero]
    rfl
  · rw [if_neg (mt (isZero_ofInt_iff hn).mp hzero)]
    obtain ⟨hexponent, hvalue⟩ := BinaryFormat.shortest_whole format_fits.1 format_fits.2
      NumberLayout.plain.tie (Int.natAbs_pos.mpr hzero) hn (units_ofInt hn)
    rw [magnitudeText_plain hexponent]
    generalize binary64.shortest NumberLayout.plain.tie (ofInt n).ordinal = d at hvalue
    have hdigits : 0 < d.digits := by
      refine Nat.pos_of_ne_zero fun hnone => ?_
      rw [hnone, Nat.zero_mul] at hvalue
      omega
    rw [← Number.toDigits_mul_pow hdigits, hvalue]

/-- A query writes an integer with all of its digits too, whichever way it takes. -/
theorem numberText_ofInt (hn : n.natAbs < 2 ^ 53) :
    QueryText.numberText (ofInt n) = intText n := by
  have hpos : 0 < 2 ^ binary64.scale := Nat.two_pow_pos _
  have hfinite : ¬ (ofInt n).isInfinite = true := by
    rw [isInfinite_ofInt hn]
    exact Bool.false_ne_true
  have hwhole : (ofInt n).wholePart = n.natAbs := by
    rw [wholePart, units_ofInt hn]
    exact Nat.mul_div_cancel _ hpos
  rw [QueryText.numberText, if_neg hfinite]
  split
  · rw [hwhole, negative_ofInt, intText]
    simp only [decide_eq_true_eq]
  · exact text_ofInt hn

/-- Different integers have different texts, whatever their magnitudes. -/
theorem intText_inj (h : intText m = intText n) : m = n := by
  have hminus : ∀ (k : Nat) (rest : List Char), Nat.toDigits 10 k ≠ '-' :: rest := by
    intro k rest heq
    have hdigit : Number.isDigit '-' = true :=
      Number.isDigit_of_mem_toDigits (heq ▸ List.mem_cons_self)
    exact absurd hdigit (by decide)
  unfold intText at h
  split at h
  · split at h
    · have habs := Number.toDigits_inj (List.cons.inj h).2
      omega
    · exact absurd h.symm (hminus _ _)
  · split at h
    · exact absurd h (hminus _ _)
    · have habs := Number.toDigits_inj h
      omega

end Double

end IndexQuery
