import IndexQuery.Literal
import IndexQuery.Proofs.Number.Cells
set_option autoImplicit false

/-! # Widening, and the octets of a vector

A whole number of units that has no more binary digits than fit into the fraction field is a number
of the format, and rounding leaves it alone (`units_nearest`). Single-precision numbers are of that
kind in double precision, so widening a finite component keeps its sign and its value
(`Single.toDouble_inj`). The octets of a vector are written at a fixed width, hence a stored vector
of finite components is the octets of that vector only (`vectorBlob_inj`). -/

namespace IndexQuery

namespace BinaryFormat

variable (f : BinaryFormat)

/-! ## Exact rounding -/

theorem nearest_le_infinity (num den : Nat) : f.nearest num den ≤ f.infinity := by
  unfold nearest
  exact Nat.min_le_right _ _

/-- An ordinal is a row and a place in it; the rows above the first one have the leading bit. -/
theorem units_shifted {shift below : Nat} (hbelow : below < 2 ^ (f.fractionBits + 1))
    (hshift : 0 < shift → 2 ^ f.fractionBits ≤ below) :
    f.units (shift * 2 ^ f.fractionBits + below) = below * 2 ^ shift := by
  by_cases hlow : below < 2 ^ f.fractionBits
  · have hzero : shift = 0 := by
      by_contra hne
      have := hshift (Nat.pos_of_ne_zero hne)
      omega
    rw [hzero, Nat.zero_mul, Nat.zero_add, f.units_of_lt hlow, Nat.pow_zero, Nat.mul_one]
  · have hplace : below - 2 ^ f.fractionBits < 2 ^ f.fractionBits := by
      rw [Nat.pow_succ] at hbelow
      omega
    have hordinal : shift * 2 ^ f.fractionBits + below
        = (shift + 1) * 2 ^ f.fractionBits + (below - 2 ^ f.fractionBits) := by
      rw [Nat.succ_mul]
      omega
    have hleading : 2 ^ f.fractionBits + (below - 2 ^ f.fractionBits) = below := by omega
    rw [hordinal, f.units_row shift _ hplace, hleading]

/-- What is left of a number when the digits without a place in the fraction field are cut off. -/
theorem leading_lt (n : Nat) :
    n / 2 ^ (Nat.log2 n - f.fractionBits) < 2 ^ (f.fractionBits + 1) := by
  refine Nat.div_lt_of_lt_mul ?_
  calc n < 2 ^ (Nat.log2 n + 1) := Nat.lt_log2_self
    _ ≤ 2 ^ (Nat.log2 n - f.fractionBits + (f.fractionBits + 1)) :=
        Nat.pow_le_pow_right Nat.two_pos (by omega)
    _ = 2 ^ (Nat.log2 n - f.fractionBits) * 2 ^ (f.fractionBits + 1) := Nat.pow_add _ _ _

/-- The digits of a number that are left when those without a place in the fraction field are cut
off: not too many, and as many as there is place for if any were cut off. -/
theorem leading_bounds {n below : Nat} (hn : n ≠ 0)
    (hbelow : n = 2 ^ (Nat.log2 n - f.fractionBits) * below) :
    below < 2 ^ (f.fractionBits + 1) ∧
      (0 < Nat.log2 n - f.fractionBits → 2 ^ f.fractionBits ≤ below) := by
  have hstep : 0 < 2 ^ (Nat.log2 n - f.fractionBits) := Nat.two_pow_pos _
  have hlower : 2 ^ Nat.log2 n ≤ n := Nat.log2_self_le hn
  constructor
  · rw [← Nat.div_eq_of_eq_mul_right hstep hbelow]
    exact f.leading_lt n
  · intro hpos
    by_contra hlt
    have : n < 2 ^ Nat.log2 n := by
      calc n = 2 ^ (Nat.log2 n - f.fractionBits) * below := hbelow
        _ < 2 ^ (Nat.log2 n - f.fractionBits) * 2 ^ f.fractionBits :=
            Nat.mul_lt_mul_of_pos_left (Nat.lt_of_not_le hlt) hstep
        _ = 2 ^ Nat.log2 n := by rw [← Nat.pow_add]; congr 1; omega
    omega

/-- A whole number of units whose last digits are zero where the format has no place for them is
not changed by rounding. -/
theorem units_nearest {n row : Nat} (hrow : row + 2 < 2 ^ f.exponentBits)
    (hn : n < 2 ^ (f.fractionBits + row + 1)) (hdvd : 2 ^ (Nat.log2 n - f.fractionBits) ∣ n) :
    f.units (f.nearest n 1) = n := by
  have hstep : 0 < 2 ^ (Nat.log2 n - f.fractionBits) := Nat.two_pow_pos _
  obtain ⟨below, hbelow⟩ := hdvd
  have hdiv : n / 2 ^ (Nat.log2 n - f.fractionBits) = below :=
    Nat.div_eq_of_eq_mul_right hstep hbelow
  have hmod : n % 2 ^ (Nat.log2 n - f.fractionBits) = 0 :=
    Nat.mod_eq_zero_of_dvd ⟨below, hbelow⟩
  by_cases hzero : n = 0
  · subst hzero
    have hnearest : f.nearest 0 1 = 0 := by simp [nearest]
    rw [hnearest, f.units_of_lt (Nat.two_pow_pos _)]
  · have hlog : Nat.log2 n < f.fractionBits + row + 1 := (Nat.log2_lt hzero).mpr hn
    obtain ⟨hlarge, hleading⟩ := f.leading_bounds hzero hbelow
    have hfits : (Nat.log2 n - f.fractionBits) * 2 ^ f.fractionBits + below ≤ f.infinity := by
      unfold infinity
      calc (Nat.log2 n - f.fractionBits) * 2 ^ f.fractionBits + below
          ≤ (Nat.log2 n - f.fractionBits) * 2 ^ f.fractionBits + 2 * 2 ^ f.fractionBits := by
            rw [Nat.pow_succ] at hlarge
            omega
        _ = (Nat.log2 n - f.fractionBits + 2) * 2 ^ f.fractionBits := (Nat.add_mul _ _ _).symm
        _ ≤ (2 ^ f.exponentBits - 1) * 2 ^ f.fractionBits :=
            Nat.mul_le_mul_right _ (by omega)
    -- nothing is rounded off, and the result is below infinity
    have hnearest : f.nearest n 1 = (Nat.log2 n - f.fractionBits) * 2 ^ f.fractionBits + below := by
      unfold nearest
      simp only [Nat.div_one, Nat.one_mul, hdiv, hmod]
      rw [if_neg (by omega), Nat.min_eq_left hfits]
    rw [hnearest, f.units_shifted hlarge hleading, Nat.mul_comm]
    exact hbelow.symm

/-- The units of an ordinal are few digits with zeros behind them. -/
theorem exists_units_eq (ordinal : Nat) :
    ∃ digits shift, f.units ordinal = digits * 2 ^ shift ∧ digits < 2 ^ (f.fractionBits + 1) ∧
      shift ≤ ordinal / 2 ^ f.fractionBits := by
  have hpos : 0 < 2 ^ f.fractionBits := Nat.two_pow_pos _
  have hdouble : 2 ^ (f.fractionBits + 1) = 2 ^ f.fractionBits + 2 ^ f.fractionBits := by
    rw [Nat.pow_succ]
    omega
  have hmod := Nat.mod_lt ordinal hpos
  unfold units
  split
  · exact ⟨ordinal, 0, (Nat.mul_one _).symm, by omega, Nat.zero_le _⟩
  · exact ⟨_, _, rfl, by omega, Nat.sub_le _ _⟩

end BinaryFormat

/-! ## Widening -/

namespace Double

open BinaryFormat (binary64)

theorem ordinal_ofOrdinal (sign : Bool) {n : Nat} (hn : n < binary64.signWeight) :
    (ofOrdinal sign n).ordinal = n := by
  have hweight : binary64.signWeight = 2 ^ 63 := rfl
  unfold ofOrdinal ordinal
  rw [hweight] at hn ⊢
  rw [UInt64.toNat_ofNat']
  cases sign with
  | true => simp only [if_true]; omega
  | false => simp only [Bool.false_eq_true, if_false]; omega

theorem negative_ofOrdinal (sign : Bool) {n : Nat} (hn : n < binary64.signWeight) :
    (ofOrdinal sign n).negative = sign := by
  have hweight : binary64.signWeight = 2 ^ 63 := rfl
  unfold ofOrdinal negative
  rw [hweight] at hn ⊢
  rw [UInt64.toNat_ofNat']
  cases sign with
  | true => simp only [if_true, decide_eq_true_eq]; omega
  | false => simp only [Bool.false_eq_true, if_false, decide_eq_false_iff_not]; omega

end Double

namespace Single

open BinaryFormat (binary32 binary64)

/-- A pattern is determined by its sign and the rest. -/
theorem eq_of_ordinal {x y : Single} (hnegative : x.negative = y.negative)
    (hordinal : x.ordinal = y.ordinal) : x = y := by
  have hweight : binary32.signWeight = 2 ^ 31 := rfl
  have hx := x.bits.toNat_lt
  have hy := y.bits.toNat_lt
  unfold negative ordinal at *
  rw [hweight] at hnegative hordinal
  have hbits : x.bits.toNat = y.bits.toNat := by
    have := decide_eq_decide.mp hnegative
    omega
  exact congrArg Single.mk (UInt32.toNat_inj.mp hbits)

/-- The value of a finite number in units of double precision. -/
def wideUnits (x : Single) : Nat :=
  binary32.units x.ordinal * 2 ^ (binary64.scale - binary32.scale)

/-- The units of a finite number are few enough for double precision, and have zeros where it has
no place for digits. -/
theorem wideUnits_fits {x : Single} (hx : x.isFinite = true) :
    x.wideUnits < 2 ^ (binary64.fractionBits + 1150 + 1) ∧
      2 ^ (Nat.log2 x.wideUnits - binary64.fractionBits) ∣ x.wideUnits := by
  have hordinal : x.ordinal < 255 * 2 ^ 23 := of_decide_eq_true hx
  obtain ⟨digits, shift, hunits, hdigits, hshift⟩ := binary32.exists_units_eq x.ordinal
  have hrow : shift ≤ 254 := by
    have : x.ordinal / 2 ^ 23 ≤ 254 := by omega
    exact Nat.le_trans hshift this
  have hscale : binary64.scale - binary32.scale = 925 := by decide
  have hwide : x.wideUnits = digits * 2 ^ (shift + (binary64.scale - binary32.scale)) := by
    rw [wideUnits, hunits, Nat.mul_assoc, ← Nat.pow_add]
  have hsmall : x.wideUnits < 2 ^ (24 + (shift + (binary64.scale - binary32.scale))) := by
    rw [hwide, Nat.pow_add 2 24]
    exact Nat.mul_lt_mul_of_pos_right hdigits (Nat.two_pow_pos _)
  constructor
  · refine Nat.lt_of_lt_of_le hsmall (Nat.pow_le_pow_right (by omega) ?_)
    rw [hscale]
    simp only [binary64]
    omega
  · -- only zeros behind the 24 digits of single precision have no place
    have hlog : Nat.log2 x.wideUnits - binary64.fractionBits
        ≤ shift + (binary64.scale - binary32.scale) := by
      by_cases hzero : x.wideUnits = 0
      · simp [hzero]
      · have := (Nat.log2_lt hzero).mpr hsmall
        rw [hscale] at this ⊢
        simp only [binary64]
        omega
    rw [hwide] at hlog ⊢
    exact Nat.dvd_trans (Nat.pow_dvd_pow 2 hlog) (Nat.dvd_mul_left _ _)

/-- Widening changes neither the sign nor the value. -/
theorem toDouble_value {x : Single} (hx : x.isFinite = true) :
    x.toDouble.negative = x.negative ∧ x.toDouble.units = x.wideUnits := by
  have hbelow : binary64.nearest x.wideUnits 1 < binary64.signWeight :=
    Nat.lt_of_le_of_lt (binary64.nearest_le_infinity _ _) (by decide)
  have hdouble : x.toDouble = Double.ofOrdinal x.negative (binary64.nearest x.wideUnits 1) := by
    rw [toDouble, if_pos hx]
    rfl
  obtain ⟨hbound, hdvd⟩ := wideUnits_fits hx
  rw [hdouble, Double.units, Double.ordinal_ofOrdinal _ hbelow, Double.negative_ofOrdinal _ hbelow]
  exact ⟨rfl, binary64.units_nearest (by decide) hbound hdvd⟩

/-- Different finite numbers stay different. -/
theorem toDouble_inj {x y : Single} (hx : x.isFinite = true) (hy : y.isFinite = true)
    (h : x.toDouble = y.toDouble) : x = y := by
  obtain ⟨hnegative, hvalue⟩ := toDouble_value hx
  obtain ⟨hnegative', hvalue'⟩ := toDouble_value hy
  rw [h] at hnegative hvalue
  refine eq_of_ordinal (hnegative.symm.trans hnegative') ?_
  have hunits : binary32.units x.ordinal = binary32.units y.ordinal :=
    Nat.eq_of_mul_eq_mul_right (Nat.two_pow_pos _) (hvalue.symm.trans hvalue')
  exact binary32.units_inj hunits

end Single

/-! ## Octets -/

theorem length_littleEndian (width n : Nat) : (littleEndian width n).length = width := by
  induction width generalizing n with
  | zero => rfl
  | succ width ih => rw [littleEndian, List.length_cons, ih]

theorem littleEndian_inj {width m n : Nat} (hm : m < 256 ^ width) (hn : n < 256 ^ width)
    (h : littleEndian width m = littleEndian width n) : m = n := by
  induction width generalizing m n with
  | zero =>
      rw [Nat.pow_zero] at hm hn
      omega
  | succ width ih =>
      rw [Nat.pow_succ] at hm hn
      rw [littleEndian, littleEndian, List.cons.injEq] at h
      have hlow : m % 256 = n % 256 := by
        have := congrArg UInt8.toNat h.1
        rwa [UInt8.toNat_ofNat', UInt8.toNat_ofNat'] at this
      have hhigh : m / 256 = n / 256 := ih (by omega) (by omega) h.2
      omega

/-- Lists written at a fixed positive width are told apart item by item. -/
theorem flatMap_inj_of_length {α β : Type} {f : α → List β} (width : Nat) (hwidth : 0 < width)
    (hlength : ∀ x, (f x).length = width) {xs ys : List α}
    (hinj : ∀ x ∈ xs, ∀ y ∈ ys, f x = f y → x = y) (h : xs.flatMap f = ys.flatMap f) :
    xs = ys := by
  have hlonger : ∀ (x : α) (xs : List α), (x :: xs).flatMap f ≠ [] := by
    intro x xs hnil
    have hnone := congrArg List.length hnil
    rw [List.flatMap_cons, List.length_append, hlength, List.length_nil] at hnone
    omega
  induction xs generalizing ys with
  | nil =>
      cases ys with
      | nil => rfl
      | cons y ys => exact absurd h.symm (hlonger y ys)
  | cons x xs ih =>
      cases ys with
      | nil => exact absurd h (hlonger x xs)
      | cons y ys =>
          rw [List.flatMap_cons, List.flatMap_cons] at h
          obtain ⟨hhead, htail⟩ := List.append_inj h (by rw [hlength, hlength])
          rw [hinj x List.mem_cons_self y List.mem_cons_self hhead,
            ih (fun x hx y hy => hinj x (List.mem_cons_of_mem _ hx) y (List.mem_cons_of_mem _ hy))
              htail]

/-- A stored vector of finite components is the octets of that vector only. -/
theorem vectorBlob_inj {xs ys : List Single} {elementType : VectorElementType}
    (hx : ∀ x ∈ xs, x.isFinite = true) (hy : ∀ y ∈ ys, y.isFinite = true)
    (h : vectorBlob xs elementType = vectorBlob ys elementType) : xs = ys := by
  cases elementType with
  | float32 =>
      refine flatMap_inj_of_length 4 (by omega) (fun x => length_littleEndian 4 _)
        (fun x _ y _ hxy => ?_) h
      have hbits := littleEndian_inj x.bits.toNat_lt y.bits.toNat_lt hxy
      exact congrArg Single.mk (UInt32.toNat_inj.mp hbits)
  | float64 =>
      refine flatMap_inj_of_length 8 (by omega) (fun x => length_littleEndian 8 _)
        (fun x hmem y hmem' hxy => ?_) h
      have hbits := littleEndian_inj x.toDouble.bits.toNat_lt y.toDouble.bits.toNat_lt hxy
      exact Single.toDouble_inj (hx x hmem) (hy y hmem')
        (congrArg Double.mk (UInt64.toNat_inj.mp hbits))

end IndexQuery
