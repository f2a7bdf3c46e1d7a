import IndexQuery.Number.Shortest
import Mathlib.Order.Monotone.Basic
import Mathlib.Tactic.Ring
set_option autoImplicit false

/-! # The decimals that read back as a number

`Reads ordinal significand places` says that the decimal `significand / 10 ^ places` lies in the
cell of an ordinal: between the middles to the two neighbours, with the ends when the ordinal is
even. Cells of different ordinals have no decimal in common (`Reads.ordinal_eq`), because the units
of the ordinals grow strictly and of two neighbours one is odd. The decimal that `shortest` finds
lies in the cell it was searched for (`reads_shortest`), wherever the search ends. -/

namespace IndexQuery

namespace BinaryFormat

variable (f : BinaryFormat)

/-! ## Units -/

/-- The units of the numbers with one exponent, by their place among these. -/
theorem units_row (row place : Nat) (hplace : place < 2 ^ f.fractionBits) :
    f.units ((row + 1) * 2 ^ f.fractionBits + place) = (2 ^ f.fractionBits + place) * 2 ^ row := by
  have hpos : 0 < 2 ^ f.fractionBits := Nat.two_pow_pos _
  have hdiv : ((row + 1) * 2 ^ f.fractionBits + place) / 2 ^ f.fractionBits = row + 1 := by
    rw [Nat.mul_comm, Nat.mul_add_div hpos, Nat.div_eq_of_lt hplace, Nat.add_zero]
  have hmod : ((row + 1) * 2 ^ f.fractionBits + place) % 2 ^ f.fractionBits = place := by
    rw [Nat.mul_comm, Nat.mul_add_mod, Nat.mod_eq_of_lt hplace]
  have hlarge : ¬ (row + 1) * 2 ^ f.fractionBits + place < 2 ^ f.fractionBits := by
    have hrow : (row + 1) * 2 ^ f.fractionBits = row * 2 ^ f.fractionBits + 2 ^ f.fractionBits := by
      ring
    omega
  rw [units, if_neg hlarge, hdiv, hmod, Nat.add_sub_cancel]

theorem units_of_lt {n : Nat} (hn : n < 2 ^ f.fractionBits) : f.units n = n := by
  rw [units, if_pos hn]

/-- An ordinal in the first row, or its row and its place there. -/
theorem exists_row {n : Nat} (hn : 2 ^ f.fractionBits ≤ n) :
    ∃ row place, place < 2 ^ f.fractionBits ∧ n = (row + 1) * 2 ^ f.fractionBits + place := by
  have hpos : 0 < 2 ^ f.fractionBits := Nat.two_pow_pos _
  have hdiv : 0 < n / 2 ^ f.fractionBits := Nat.div_pos hn hpos
  refine ⟨n / 2 ^ f.fractionBits - 1, n % 2 ^ f.fractionBits, Nat.mod_lt _ hpos, ?_⟩
  rw [Nat.sub_add_cancel hdiv, Nat.div_add_mod']

theorem units_lt_units_succ (n : Nat) : f.units n < f.units (n + 1) := by
  have hpos : 0 < 2 ^ f.fractionBits := Nat.two_pow_pos _
  by_cases hn : n < 2 ^ f.fractionBits
  · -- in the first row a number is its units, and so is the one that opens the next row
    rw [f.units_of_lt hn]
    by_cases hn' : n + 1 < 2 ^ f.fractionBits
    · rw [f.units_of_lt hn']
      omega
    · have hfirst : n + 1 = (0 + 1) * 2 ^ f.fractionBits + 0 := by omega
      rw [hfirst, f.units_row 0 0 hpos]
      omega
  · obtain ⟨row, place, hplace, rfl⟩ := f.exists_row (Nat.le_of_not_lt hn)
    rw [f.units_row row place hplace]
    have hrow : 0 < 2 ^ row := Nat.two_pow_pos _
    by_cases hlast : place + 1 < 2 ^ f.fractionBits
    · rw [Nat.add_assoc, f.units_row row (place + 1) hlast]
      exact Nat.mul_lt_mul_of_pos_right (by omega) hrow
    · -- the last place of a row: the next number opens the row above
      have hnext : (row + 1) * 2 ^ f.fractionBits + place + 1
          = (row + 1 + 1) * 2 ^ f.fractionBits + 0 := by
        have : place + 1 = 2 ^ f.fractionBits := by omega
        rw [Nat.add_assoc, this]
        ring
      rw [hnext, f.units_row (row + 1) 0 hpos]
      calc (2 ^ f.fractionBits + place) * 2 ^ row
          < (2 * 2 ^ f.fractionBits) * 2 ^ row := Nat.mul_lt_mul_of_pos_right (by omega) hrow
        _ = (2 ^ f.fractionBits + 0) * 2 ^ (row + 1) := by ring

theorem units_strictMono : StrictMono f.units := strictMono_nat_of_lt_succ f.units_lt_units_succ

theorem units_inj {m n : Nat} (h : f.units m = f.units n) : m = n := f.units_strictMono.injective h

/-! ## Cells -/

/-- The decimal `significand / 10 ^ places` is not farther from the ordinal than from another one,
and nearer unless the ordinal is even. All lengths are counted in halves of `10 ^ -places`
units. -/
def Reads (ordinal significand places : Nat) : Prop :=
  if ordinal % 2 = 0 then
    (f.units (ordinal - 1) + f.units ordinal) * 10 ^ places ≤ significand * (2 * 2 ^ f.scale) ∧
      significand * (2 * 2 ^ f.scale) ≤ (f.units ordinal + f.units (ordinal + 1)) * 10 ^ places
  else
    (f.units (ordinal - 1) + f.units ordinal) * 10 ^ places < significand * (2 * 2 ^ f.scale) ∧
      significand * (2 * 2 ^ f.scale) < (f.units ordinal + f.units (ordinal + 1)) * 10 ^ places

/-- The cell of an ordinal ends before the cell of a larger one begins. -/
theorem Reads.not_lt {m n significand places : Nat} (hm : f.Reads m significand places)
    (hn : f.Reads n significand places) : ¬ m < n := by
  intro hlt
  have hlow : f.units m ≤ f.units (n - 1) := f.units_strictMono.monotone (by omega)
  have hhigh : f.units (m + 1) ≤ f.units n := f.units_strictMono.monotone (by omega)
  have hends : (f.units m + f.units (m + 1)) * 10 ^ places
      ≤ (f.units (n - 1) + f.units n) * 10 ^ places :=
    Nat.mul_le_mul_right _ (by omega)
  unfold Reads at hm hn
  by_cases hm2 : m % 2 = 0
  · by_cases hn2 : n % 2 = 0
    · -- both cells include their ends, but then there is an odd ordinal between them
      have hgap : f.units m < f.units (n - 1) := f.units_strictMono (by omega)
      have hapart : (f.units m + f.units (m + 1)) * 10 ^ places
          < (f.units (n - 1) + f.units n) * 10 ^ places :=
        Nat.mul_lt_mul_of_pos_right (by omega) (Nat.pow_pos (by omega))
      rw [if_pos hm2] at hm
      rw [if_pos hn2] at hn
      omega
    · rw [if_pos hm2] at hm
      rw [if_neg hn2] at hn
      omega
  · rw [if_neg hm2] at hm
    split at hn <;> omega

/-- A decimal reads as one number only. -/
theorem Reads.ordinal_eq {m n significand places : Nat} (hm : f.Reads m significand places)
    (hn : f.Reads n significand places) : m = n := by
  have h1 := hm.not_lt f hn
  have h2 := hn.not_lt f hm
  omega

/-- The exact value of a number reads as the number. -/
theorem reads_of_eq {ordinal significand places : Nat}
    (h : significand * 2 ^ f.scale = f.units ordinal * 10 ^ places) :
    f.Reads ordinal significand places := by
  have hpos : 0 < 10 ^ places := Nat.pow_pos (by omega)
  have hvalue : significand * (2 * 2 ^ f.scale)
      = (f.units ordinal + f.units ordinal) * 10 ^ places := by
    rw [Nat.mul_left_comm, h]
    ring
  have hnext := f.units_lt_units_succ ordinal
  have hbefore : f.units (ordinal - 1) ≤ f.units ordinal :=
    f.units_strictMono.monotone (by omega)
  unfold Reads
  rw [hvalue]
  split
  · exact ⟨Nat.mul_le_mul_right _ (by omega), Nat.mul_le_mul_right _ (by omega)⟩
  · have hodd : f.units (ordinal - 1) < f.units ordinal := f.units_strictMono (by omega)
    exact ⟨Nat.mul_lt_mul_of_pos_right (by omega) hpos,
      Nat.mul_lt_mul_of_pos_right (by omega) hpos⟩

/-! ## The search -/

/-- A point that is taken from a grid lies in the cell. -/
theorem reads_gridPoint {tie : TieBreak} {ordinal digits : Nat} {exponent : Int}
    (h : f.gridPoint tie ordinal exponent = some digits) :
    f.Reads ordinal (digits * 10 ^ exponent.toNat) (-exponent).toNat := by
  have hvalue : digits * 10 ^ exponent.toNat * (2 * 2 ^ f.scale)
      = digits * (2 * (2 ^ f.scale * 10 ^ exponent.toNat)) := by ring
  unfold gridPoint at h
  extract_lets up den value low high step below reads gap preferAbove at h
  -- whichever of the two points is taken, it has been checked
  have hreads : reads digits = true := by
    cases hbelow : reads below with
    | true =>
        cases habove : reads (below + 1) with
        | true =>
            rw [hbelow, habove] at h
            cases hprefer : preferAbove with
            | true =>
                rw [hprefer] at h
                exact Option.some.inj h ▸ habove
            | false =>
                rw [hprefer] at h
                exact Option.some.inj h ▸ hbelow
        | false =>
            rw [hbelow, habove] at h
            exact Option.some.inj h ▸ hbelow
    | false =>
        cases habove : reads (below + 1) with
        | true =>
            rw [hbelow, habove] at h
            exact Option.some.inj h ▸ habove
        | false =>
            rw [hbelow, habove] at h
            cases h
  unfold Reads
  rw [hvalue]
  unfold reads at hreads
  split at hreads
  · next heven => simpa [heven] using hreads
  · next hodd => simpa [hodd] using hreads

theorem reads_searchGrids {tie : TieBreak} {ordinal : Nat} (fuel : Nat) {exponent : Int}
    {m : DecimalMagnitude} (h : f.searchGrids tie ordinal fuel exponent = some m) :
    f.Reads ordinal (m.digits * 10 ^ m.exponent.toNat) (-m.exponent).toNat := by
  induction fuel generalizing exponent with
  | zero => cases h
  | succ fuel ih =>
      rw [searchGrids] at h
      split at h
      · next digits hgrid =>
          cases h
          exact f.reads_gridPoint hgrid
      · exact ih h

/-- The shortest decimal lies in the cell it was searched for. -/
theorem reads_shortest (tie : TieBreak) (ordinal : Nat) :
    f.Reads ordinal ((f.shortest tie ordinal).digits * 10 ^ (f.shortest tie ordinal).exponent.toNat)
      (-(f.shortest tie ordinal).exponent).toNat := by
  unfold shortest
  cases hsearch : f.searchGrids tie ordinal 24
      (decimalBound ((Nat.log2 (f.units ordinal) : Int) + 1 - f.scale)) with
  | some m =>
      simp only [hsearch, Option.getD_some]
      exact f.reads_searchGrids 24 hsearch
  | none =>
      -- the search ran out of grids, and the exact value is taken
      simp only [hsearch, Option.getD_none]
      apply f.reads_of_eq
      have hplaces : (-(-(f.scale : Int))).toNat = f.scale := by omega
      have hexponent : (-(f.scale : Int)).toNat = 0 := by omega
      rw [hplaces, hexponent, Nat.pow_zero, Nat.mul_one, Nat.mul_assoc, ← Nat.mul_pow]

end BinaryFormat

end IndexQuery
