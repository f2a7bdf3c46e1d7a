import IndexQuery.Proofs.Number.Octets
set_option autoImplicit false

/-! # The order of double-precision numbers

Numbers are ordered as their ranks are (`le_iff`, `lt_iff`), so of two numbers that are not in
strict order the second is at most the first (`le_of_not_lt`). A number whose magnitude does not
exceed a limit lies between the negated limit and the limit (`between_of_abs`), and the other way
round (`abs_of_between`). -/

namespace IndexQuery.Double

open BinaryFormat (binary64)

variable {a b c x : Double}

theorem le_iff : a.le b = true ↔ a.isNaN = false ∧ b.isNaN = false ∧ a.rank ≤ b.rank := by
  simp [le, and_assoc]

theorem lt_iff : a.lt b = true ↔ a.isNaN = false ∧ b.isNaN = false ∧ a.rank < b.rank := by
  simp [lt, and_assoc]

theorem isNaN_of_isFinite (hx : x.isFinite = true) : x.isNaN = false := by
  have hlt : x.ordinal < binary64.infinity := of_decide_eq_true hx
  exact decide_eq_false (Nat.not_lt_of_gt hlt)

theorem le_of_not_lt (ha : a.isNaN = false) (hb : b.isNaN = false) (h : a.lt b = false) :
    b.le a = true := by
  have hrank : ¬ a.rank < b.rank := fun hrank => by
    rw [lt_iff.mpr ⟨ha, hb, hrank⟩] at h
    cases h
  exact le_iff.mpr ⟨hb, ha, by omega⟩

theorem lt_of_not_le (ha : a.isNaN = false) (hb : b.isNaN = false) (h : a.le b = false) :
    b.lt a = true := by
  have hrank : ¬ a.rank ≤ b.rank := fun hrank => by
    rw [le_iff.mpr ⟨ha, hb, hrank⟩] at h
    cases h
  exact lt_iff.mpr ⟨hb, ha, by omega⟩

theorem le_of_lt (h : a.lt b = true) : a.le b = true := by
  obtain ⟨ha, hb, hrank⟩ := lt_iff.mp h
  exact le_iff.mpr ⟨ha, hb, Int.le_of_lt hrank⟩

theorem le_trans (hab : a.le b = true) (hbc : b.le c = true) : a.le c = true := by
  obtain ⟨ha, _, hrank⟩ := le_iff.mp hab
  obtain ⟨_, hc, hrank'⟩ := le_iff.mp hbc
  exact le_iff.mpr ⟨ha, hc, Int.le_trans hrank hrank'⟩

/-! ## Magnitudes -/

theorem ordinal_lt_signWeight (x : Double) : x.ordinal < binary64.signWeight :=
  Nat.mod_lt _ (by decide)

/-- A pattern is a number or not whatever its sign is. -/
theorem isNaN_ofOrdinal (sign : Bool) (x : Double) :
    (ofOrdinal sign x.ordinal).isNaN = x.isNaN := by
  unfold isNaN
  rw [ordinal_ofOrdinal sign x.ordinal_lt_signWeight]

theorem rank_abs (x : Double) : x.abs.rank = x.ordinal := by
  have hlt := x.ordinal_lt_signWeight
  unfold rank abs
  rw [negative_ofOrdinal false hlt, ordinal_ofOrdinal false hlt]
  rfl

theorem rank_neg (x : Double) : x.neg.rank = -x.rank := by
  have hlt := x.ordinal_lt_signWeight
  unfold rank neg
  rw [negative_ofOrdinal _ hlt, ordinal_ofOrdinal _ hlt]
  cases x.negative <;> simp

/-- A number of a magnitude up to a limit lies between the limit and its negation. -/
theorem between_of_abs {limit : Double} (hx : x.isNaN = false) (hlimit : limit.isNaN = false)
    (h : limit.lt x.abs = false) : limit.neg.le x = true ∧ x.le limit = true := by
  have habs : x.abs.isNaN = false := (isNaN_ofOrdinal false x).trans hx
  have hneg : limit.neg.isNaN = false := (isNaN_ofOrdinal _ limit).trans hlimit
  have hmagnitude : (x.ordinal : Int) ≤ limit.rank := by
    obtain ⟨_, _, hrank⟩ := le_iff.mp (le_of_not_lt hlimit habs h)
    rwa [rank_abs] at hrank
  have hsign : x.rank = x.ordinal ∨ x.rank = -(x.ordinal : Int) := by
    unfold rank
    split
    · exact .inr rfl
    · exact .inl rfl
  constructor
  · have hlower : limit.neg.rank ≤ x.rank := by rw [rank_neg]; omega
    exact le_iff.mpr ⟨hneg, hx, hlower⟩
  · exact le_iff.mpr ⟨hx, hlimit, by omega⟩

theorem ordinal_eq_natAbs_rank (x : Double) : x.ordinal = x.rank.natAbs := by
  unfold rank
  split <;> simp

/-- A number between a finite limit and its negation is finite, and its magnitude does not exceed
the limit. -/
theorem abs_of_between {limit : Double} (hlimit : limit.isFinite = true)
    (hlower : limit.neg.le x = true) (hupper : x.le limit = true) :
    x.isFinite = true ∧ limit.lt x.abs = false := by
  obtain ⟨-, -, hlow⟩ := le_iff.mp hlower
  obtain ⟨-, -, hhigh⟩ := le_iff.mp hupper
  have hfinite : limit.ordinal < binary64.infinity := of_decide_eq_true hlimit
  rw [rank_neg] at hlow
  have hmagnitude : (x.ordinal : Int) ≤ limit.rank := by
    rw [ordinal_eq_natAbs_rank]
    omega
  have hlimited : limit.rank ≤ limit.ordinal := by
    rw [ordinal_eq_natAbs_rank]
    omega
  constructor
  · exact decide_eq_true (by omega)
  · rw [← Bool.not_eq_true]
    intro habs
    obtain ⟨-, -, hrank⟩ := lt_iff.mp habs
    rw [rank_abs] at hrank
    omega

end IndexQuery.Double
