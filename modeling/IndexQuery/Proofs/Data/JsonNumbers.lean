import IndexQuery.Data.JsonReading
import IndexQuery.Proofs.Number.Arithmetic
set_option autoImplicit false

/-! # The numbers of a JSON text

JSON has no way to write what is not a number, and reading keeps it that way: every
floating-point number in a datum read from a JSON text is a number (`holdsNumbers_ofJson?`). The
significand is a whole number, and scaling it multiplies with or divides by powers of ten that are
finite and not zero (`power_proper`), which never leaves the numbers. -/

namespace IndexQuery

/-- Every floating-point number in the datum is a number. -/
inductive Datum.HoldsNumbers : Datum → Prop where
  | null : HoldsNumbers .null
  | bool (value : Bool) : HoldsNumbers (.bool value)
  | int (value : Int) : HoldsNumbers (.int value)
  | float {value : Double} (h : value.isNaN = false) : HoldsNumbers (.float value)
  | text (value : String) : HoldsNumbers (.text value)
  | list {items : List Datum} (h : ∀ item ∈ items, HoldsNumbers item) : HoldsNumbers (.list items)
  | record {entries : List (String × Datum)} (h : ∀ entry ∈ entries, HoldsNumbers entry.2) :
      HoldsNumbers (.record entries)

namespace JsonReading

open BinaryFormat (binary64)

/-! ## Scaling -/

/-- A power of ten that scaling uses is one rounding of a whole number of units. -/
theorem ofDecimal_power {exponent : Nat} (h : exponent ≤ 308) :
    Double.ofDecimal false 1 exponent
      = Double.ofOrdinal false (binary64.nearest (10 ^ exponent * 2 ^ binary64.scale) 1) := by
  have hmagnitude : ((Nat.toDigits 10 1).length : Int) + exponent = 1 + exponent := rfl
  unfold Double.ofDecimal BinaryFormat.nearestDecimal
  rw [hmagnitude, if_neg (by decide), if_neg (by omega), if_neg (by omega),
    if_pos (Int.natCast_nonneg _), Int.toNat_natCast, Nat.one_mul]

/-- The powers of ten that scaling uses are finite and not zero. -/
theorem power_proper {exponent : Nat} (h : exponent ≤ 308) :
    (Double.ofDecimal false 1 exponent).isFinite = true ∧
      (Double.ofDecimal false 1 exponent).isZero = false := by
  have hpos : 0 < 10 ^ exponent * 2 ^ binary64.scale :=
    Nat.mul_pos (Nat.pow_pos (by decide)) (Nat.two_pow_pos _)
  have hlt : 10 ^ exponent * 2 ^ binary64.scale
      < (2 ^ (binary64.fractionBits + 1) - 1) * 2 ^ 2045 := by
    calc 10 ^ exponent * 2 ^ binary64.scale
        ≤ 10 ^ 308 * 2 ^ binary64.scale :=
          Nat.mul_le_mul_right _ (Nat.pow_le_pow_right (by decide) h)
      _ < (2 ^ (binary64.fractionBits + 1) - 1) * 2 ^ 2045 := by decide +kernel
  have hexponents : 2045 + 3 = 2 ^ binary64.exponentBits := by decide
  rw [ofDecimal_power h]
  exact ⟨Double.isFinite_ofOrdinal _ (binary64.nearest_lt_infinity hexponents hlt),
    Double.isZero_ofOrdinal _ (binary64.nearest_pos hexponents hpos)
      (binary64.nearest_le_infinity _ _)⟩

/-- Scaling a number gives a number. -/
theorem isNaN_scaleByTen {fuel : Nat} {x y : Double} {exponent : Int} (hx : x.isNaN = false)
    (h : scaleByTen fuel x exponent = some y) : y.isNaN = false := by
  induction fuel generalizing x exponent with
  | zero =>
      cases Option.some.inj h
      exact hx
  | succ fuel ih =>
      unfold scaleByTen at h
      split at h
      · next hsmall =>
          simp only [Bool.and_eq_true, decide_eq_true_eq] at hsmall
          split at h
          · next hup =>
              -- the product is returned only if it is finite, but it is a number in any case
              obtain ⟨n, rfl⟩ := Int.eq_ofNat_of_zero_le hup
              dsimp only at h
              split at h
              · cases h
              · cases Option.some.inj h
                exact Double.isNaN_mul_of_isFinite hx (power_proper (by omega))
          · next hdown =>
              obtain ⟨n, hn⟩ := Int.eq_ofNat_of_zero_le (a := -exponent) (by omega)
              rw [hn] at h
              cases Option.some.inj h
              exact Double.isNaN_div_of_isFinite hx (power_proper (by omega))
      · split at h
        · cases Option.some.inj h
          exact hx
        · split at h
          · cases h
          · exact ih (Double.isNaN_div_of_isFinite hx (power_proper (Nat.le_refl 308))) h

theorem isNaN_floatOf? {negative : Bool} {significand : Nat} {exponent : Int} {x : Double}
    (h : floatOf? negative significand exponent = some x) : x.isNaN = false := by
  obtain ⟨y, hy, rfl⟩ := Option.map_eq_some_iff.mp h
  rw [Double.isNaN_signed]
  exact isNaN_scaleByTen (Double.isNaN_ofInt _) hy

/-! ## Numbers -/

theorem isNaN_floatNumber? {negative : Bool} {whole fraction : List Char}
    {exponent : Option (Bool × Nat)} {x : Double}
    (h : floatNumber? negative whole fraction exponent = some x) : x.isNaN = false := by
  unfold floatNumber? at h
  dsimp only at h
  split at h
  · exact isNaN_floatOf? h
  · split at h
    · split at h
      · cases h
      · cases Option.some.inj h
        exact Double.isNaN_zero _
    · exact isNaN_floatOf? h

theorem holdsNumbers_wholeNumber? {negative : Bool} {n : Nat} {digits : List Char} {d : Datum}
    (h : wholeNumber? negative n digits = some d) : d.HoldsNumbers := by
  unfold wholeNumber? at h
  split at h
  · cases Option.some.inj h
    exact .int _
  · split at h
    · cases Option.some.inj h
      exact .int _
    · split at h
      · cases Option.some.inj h
        exact .float ((Double.isNaN_signed _ _).trans (Double.isNaN_ofInt _))
      · obtain ⟨x, hx, rfl⟩ := Option.map_eq_some_iff.mp h
        exact .float (isNaN_floatNumber? hx)

theorem holdsNumbers_takeNumber {s rest : List Char} {d : Datum}
    (h : takeNumber s = some (d, rest)) : d.HoldsNumbers := by
  unfold takeNumber at h
  dsimp only at h
  split at h
  all_goals
    split at h
    · cases h
    · simp only [Option.bind_eq_bind, Option.bind_eq_some_iff, Prod.exists] at h
      obtain ⟨fraction, afterFraction, -, exponent, afterExponent, -, h⟩ := h
      split at h
      · obtain ⟨whole, hwhole, hpair⟩ := Option.map_eq_some_iff.mp h
        cases hpair
        exact holdsNumbers_wholeNumber? hwhole
      · obtain ⟨x, hx, hpair⟩ := Option.map_eq_some_iff.mp h
        cases hpair
        exact .float (isNaN_floatNumber? hx)

/-! ## Values -/

theorem holdsNumbers_putEntry (key : String) {value : Datum} (hvalue : value.HoldsNumbers)
    {entries : List (String × Datum)} (hentries : ∀ entry ∈ entries, entry.2.HoldsNumbers) :
    ∀ entry ∈ putEntry key value entries, entry.2.HoldsNumbers := by
  induction entries with
  | nil => simpa [putEntry] using hvalue
  | cons first rest ih =>
      obtain ⟨hfirst, hrest⟩ := List.forall_mem_cons.mp hentries
      unfold putEntry
      split
      · exact List.forall_mem_cons.mpr ⟨hvalue, hentries⟩
      · split
        · exact List.forall_mem_cons.mpr ⟨hvalue, hrest⟩
        · exact List.forall_mem_cons.mpr ⟨hfirst, ih hrest⟩

/-- What is read with some fuel holds numbers only. -/
structure ReadsNumbers (fuel : Nat) : Prop where
  value : ∀ {depth : Nat} {s rest : List Char} {d : Datum},
    takeValue fuel depth s = some (d, rest) → d.HoldsNumbers
  items : ∀ {depth : Nat} {s rest : List Char} {items : List Datum},
    takeItems fuel depth s = some (items, rest) → ∀ item ∈ items, item.HoldsNumbers
  entries : ∀ {depth : Nat} {s rest : List Char} {entries entries' : List (String × Datum)},
    (∀ entry ∈ entries, entry.2.HoldsNumbers) →
    takeEntries fuel depth entries s = some (entries', rest) →
    ∀ entry ∈ entries', entry.2.HoldsNumbers

section Step

variable {fuel depth : Nat} {s rest : List Char}

theorem holdsNumbers_takeValue {d : Datum} (ih : ReadsNumbers fuel)
    (h : takeValue (fuel + 1) depth s = some (d, rest)) : d.HoldsNumbers := by
  unfold takeValue at h
  split at h
  · cases h
    exact .null
  · cases h
    exact .bool true
  · cases h
    exact .bool false
  · obtain ⟨⟨cs, after⟩, -, hpair⟩ := Option.map_eq_some_iff.mp h
    cases hpair
    exact .text _
  · split at h
    · cases h
    · split at h
      · cases h
        exact .list (by simp)
      · obtain ⟨⟨items, after⟩, hitems, hpair⟩ := Option.map_eq_some_iff.mp h
        cases hpair
        exact .list (ih.items hitems)
  · split at h
    · cases h
    · split at h
      · cases h
        exact .record (by simp)
      · obtain ⟨⟨entries, after⟩, hentries, hpair⟩ := Option.map_eq_some_iff.mp h
        cases hpair
        exact .record (ih.entries (by simp) hentries)
  · exact holdsNumbers_takeNumber h

theorem holdsNumbers_takeItems {items : List Datum} (ih : ReadsNumbers fuel)
    (h : takeItems (fuel + 1) depth s = some (items, rest)) :
    ∀ item ∈ items, item.HoldsNumbers := by
  unfold takeItems at h
  simp only [Option.bind_eq_bind, Option.bind_eq_some_iff, Prod.exists] at h
  obtain ⟨first, afterFirst, hfirst, h⟩ := h
  have hhead := ih.value hfirst
  split at h
  · simp only [Option.bind_eq_some_iff, Prod.exists] at h
    obtain ⟨others, afterOthers, hothers, hpair⟩ := h
    cases hpair
    exact List.forall_mem_cons.mpr ⟨hhead, ih.items hothers⟩
  · cases h
    exact List.forall_mem_cons.mpr ⟨hhead, by simp⟩
  · cases h

theorem holdsNumbers_takeEntries {entries entries' : List (String × Datum)}
    (ih : ReadsNumbers fuel) (hentries : ∀ entry ∈ entries, entry.2.HoldsNumbers)
    (h : takeEntries (fuel + 1) depth entries s = some (entries', rest)) :
    ∀ entry ∈ entries', entry.2.HoldsNumbers := by
  unfold takeEntries at h
  split at h
  · simp only [Option.bind_eq_bind, Option.bind_eq_some_iff, Prod.exists] at h
    obtain ⟨key, afterKey, -, h⟩ := h
    split at h
    · simp only [Option.bind_eq_some_iff, Prod.exists] at h
      obtain ⟨value, afterValue, hvalue, h⟩ := h
      have hput := holdsNumbers_putEntry (String.ofList key) (ih.value hvalue) hentries
      split at h
      · exact ih.entries hput h
      · cases h
        exact hput
      · cases h
    · cases h
  · cases h

end Step

theorem readsNumbers (fuel : Nat) : ReadsNumbers fuel := by
  induction fuel with
  | zero =>
      refine ⟨fun h => ?_, fun h => ?_, fun _ h => ?_⟩
      · cases h
      · cases h
      · cases h
  | succ fuel ih =>
      exact ⟨holdsNumbers_takeValue ih, holdsNumbers_takeItems ih, holdsNumbers_takeEntries ih⟩

end JsonReading

/-- What is read from a JSON text holds numbers only. -/
theorem Datum.holdsNumbers_ofJson? {s : List Char} {d : Datum} (h : Datum.ofJson? s = some d) :
    d.HoldsNumbers := by
  unfold Datum.ofJson? at h
  simp only [Option.bind_eq_bind, Option.bind_eq_some_iff, Prod.exists] at h
  obtain ⟨d', rest, hvalue, h⟩ := h
  split at h
  · cases h
    exact (JsonReading.readsNumbers _).value hvalue
  · cases h

end IndexQuery
