import IndexQuery.Data.JsonText
import IndexQuery.Proofs.Number.Integers
set_option autoImplicit false

/-! # Numbers in JSON texts

A finite number in a JSON text is its sign with a decimal in the cell of the number, in positional
form with a fraction or in exponent form, and reads back as that decimal (`floatText?_json`). So the
text belongs to one number only (`json_text_inj`). It always has a point or an exponent, which tells
it from the text of a whole number (`exists_mark_mem_json_text`). -/

namespace IndexQuery

/-! ## Scaled decimals -/

namespace BinaryFormat

variable (f : BinaryFormat)

/-- A zero behind the last place changes nothing. -/
theorem Reads.append_zero {ordinal significand places : Nat}
    (h : f.Reads ordinal significand places) :
    f.Reads ordinal (significand * 10) (places + 1) := by
  have hten : 0 < 10 := by omega
  have hleft : significand * 10 * (2 * 2 ^ f.scale) = significand * (2 * 2 ^ f.scale) * 10 := by
    ring
  have hright : ∀ units : Nat, units * 10 ^ (places + 1) = units * 10 ^ places * 10 := by
    intro units
    ring
  unfold Reads at *
  rw [hleft, hright, hright]
  split at h
  · next heven =>
      rw [if_pos heven]
      exact ⟨Nat.mul_le_mul_right _ h.1, Nat.mul_le_mul_right _ h.2⟩
  · next hodd =>
      rw [if_neg hodd]
      exact ⟨Nat.mul_lt_mul_of_pos_right h.1 hten, Nat.mul_lt_mul_of_pos_right h.2 hten⟩

end BinaryFormat

/-! ## Reading exponents -/

namespace Number

theorem digits?_toDigits (n : Nat) : digits? (Nat.toDigits 10 n) = some n := by
  have hempty : (Nat.toDigits 10 n).isEmpty = false := by simp
  have hall : (Nat.toDigits 10 n).all isDigit = true :=
    List.all_eq_true.mpr fun _ => isDigit_of_mem_toDigits
  rw [digits?, hempty, hall, Bool.not_false, Bool.and_self, if_pos rfl, ofDigits_toDigits]

/-- An exponent is read with its sign. -/
theorem exponent?_powerText (power : Int) :
    exponent? ('e' :: NumberLayout.powerText power) = some power := by
  change whole? (NumberLayout.powerText power) = some power
  unfold NumberLayout.powerText
  by_cases hpower : power < 0
  · have hread : whole? ('-' :: Nat.toDigits 10 power.natAbs) = some (-(power.natAbs : Int)) := by
      simp [whole?, takeSign, digits?_toDigits]
    rw [if_pos hpower, hread]
    congr 1
    omega
  · have hread : whole? ('+' :: Nat.toDigits 10 power.natAbs) = some (power.natAbs : Int) := by
      simp [whole?, takeSign, digits?_toDigits]
    rw [if_neg hpower, hread]
    congr 1
    omega

/-- The exponent form of a decimal says the decimal. -/
theorem floatText?_exponentForm (n : Nat) (exponent : Int) :
    floatText? (NumberLayout.exponentForm (Nat.toDigits 10 n)
        ((Nat.toDigits 10 n).length + exponent)) = some (.decimal n exponent) := by
  have hdigits : ∀ c ∈ Nat.toDigits 10 n, isDigit c = true := fun _ => isDigit_of_mem_toDigits
  have hvalue := ofDigits_toDigits n
  have hne : Nat.toDigits 10 n ≠ [] := Nat.toDigits_ne_nil
  generalize Nat.toDigits 10 n = ds at hdigits hvalue hne
  unfold NumberLayout.exponentForm
  split
  · next d r rest =>
      obtain ⟨hd, hrest⟩ := List.forall_mem_cons.mp hdigits
      have hread := floatText?_fraction_exponent (List.cons_ne_nil d []) (by simpa using hd) hrest
        (exponent?_powerText (((d :: r :: rest).length : Int) + exponent - 1))
      rw [List.singleton_append, List.singleton_append, hvalue] at hread
      refine hread.trans ?_
      congr 2
      simp only [List.length_cons]
      omega
  · next hshort =>
      rw [floatText?_whole_exponent hne hdigits (exponent?_powerText _), hvalue]
      have hlength : ds.length = 1 := by
        match ds, hne, hshort with
        | [d], _, _ => rfl
        | d :: r :: rest, _, hshort => exact absurd rfl (hshort d r rest)
      congr 2
      omega

end Number

/-! ## Positional forms -/

namespace NumberLayout

/-- Layouts differ in positional form only by what stands behind whole numbers. -/
theorem positionalForm_eq (layout : NumberLayout) (digits : List Char) (point : Int) :
    layout.positionalForm digits point
      = plain.positionalForm digits point
        ++ if (digits.length : Int) ≤ point then layout.wholeEnding else [] := by
  have hending : plain.wholeEnding = [] := rfl
  unfold positionalForm
  split
  · rw [hending, List.append_nil]
  · rw [List.append_nil]

/-- JSON texts have both forms. -/
theorem magnitudeText_json (m : DecimalMagnitude) :
    json.magnitudeText m = json.positionalForm (Nat.toDigits 10 m.digits)
        ((Nat.toDigits 10 m.digits).length + m.exponent) ∨
      json.magnitudeText m = exponentForm (Nat.toDigits 10 m.digits)
        ((Nat.toDigits 10 m.digits).length + m.exponent) :=
  ite_eq_or_eq _ _ _

end NumberLayout

namespace Double

open BinaryFormat (binary64)

/-! ## The number a JSON text says -/

/-- Whether what a text says is a decimal in the cell of a number. -/
def ReadsBack (x : Double) : Number.FloatText → Prop
  | .decimal significand exponent =>
    binary64.Reads x.ordinal (significand * 10 ^ exponent.toNat) (-exponent).toNat
  | _ => False

theorem ReadsBack.ordinal_eq {x y : Double} {said : Number.FloatText} (hx : x.ReadsBack said)
    (hy : y.ReadsBack said) : x.ordinal = y.ordinal := by
  cases said with
  | decimal significand exponent => exact BinaryFormat.Reads.ordinal_eq binary64 hx hy
  | _ => cases hx

theorem readsBack_places {x : Double} {significand places : Nat}
    (h : binary64.Reads x.ordinal significand places) :
    x.ReadsBack (.decimal significand (-(places : Int))) := by
  have hscale : (-(places : Int)).toNat = 0 := by omega
  have hplaces : (- -(places : Int)).toNat = places := by omega
  rw [ReadsBack, hscale, hplaces, Nat.pow_zero, Nat.mul_one]
  exact h

/-- The magnitude of a number in a JSON text. -/
def jsonMagnitude (x : Double) : List Char :=
  if x.isZero then ['0', '.', '0']
  else NumberLayout.json.magnitudeText (binary64.shortest NumberLayout.json.tie x.ordinal)

theorem json_text_eq {x : Double} (hx : x.isFinite = true) :
    NumberLayout.json.text x = (if x.negative then ['-'] else []) ++ x.jsonMagnitude := by
  rw [NumberLayout.text, isNaN_of_isFinite hx, isInfinite_of_isFinite hx]
  rfl

/-- In positional form a whole number has a zero behind the point. -/
theorem floatText?_json_positionalForm {x : Double} {n : Nat} {exponent : Int}
    (hreads : binary64.Reads x.ordinal (n * 10 ^ exponent.toNat) (-exponent).toNat) :
    ∃ said, x.ReadsBack said ∧
      Number.floatText? (NumberLayout.json.positionalForm (Nat.toDigits 10 n)
        ((Nat.toDigits 10 n).length + exponent)) = some said := by
  by_cases hwhole : 0 ≤ exponent
  · have hzeros : ((Nat.toDigits 10 n).length + exponent - (Nat.toDigits 10 n).length).toNat
        = exponent.toNat := by omega
    have hplaces : (-exponent).toNat = 0 := by omega
    have hdigits : ∀ c ∈ Nat.toDigits 10 n ++ List.replicate exponent.toNat '0',
        Number.isDigit c = true := by
      intro c hc
      rcases List.mem_append.mp hc with hc | hc
      · exact Number.isDigit_of_mem_toDigits hc
      · exact Number.isDigit_of_mem_replicate hc
    have hread := Number.floatText?_fraction
      (List.append_ne_nil_of_left_ne_nil Nat.toDigits_ne_nil _) hdigits
      (show ∀ c ∈ ['0'], Number.isDigit c = true by simp [Number.isDigit])
    have hzero : ['0'] = List.replicate 1 '0' := rfl
    rw [hzero, Number.ofDigits_append_zeros, Number.ofDigits_append_zeros,
      Number.ofDigits_toDigits, Nat.pow_one] at hread
    rw [hplaces] at hreads
    refine ⟨_, readsBack_places (hreads.append_zero binary64), ?_⟩
    rw [NumberLayout.positionalForm, if_pos (by omega), hzeros]
    exact hread
  · have hscale : exponent.toNat = 0 := by omega
    rw [hscale, Nat.pow_zero, Nat.mul_one] at hreads
    refine ⟨_, readsBack_places hreads, ?_⟩
    rw [NumberLayout.positionalForm_eq, if_neg (by omega), List.append_nil,
      Number.floatText?_positionalForm, hscale, Nat.pow_zero, Nat.mul_one]

/-- The text of a magnitude reads back. -/
theorem floatText?_json (x : Double) :
    ∃ said, x.ReadsBack said ∧ Number.floatText? x.jsonMagnitude = some said := by
  unfold jsonMagnitude
  split
  · next hzero =>
      have hordinal : x.ordinal = 0 := by simpa [isZero] using hzero
      refine ⟨.decimal 0 (-1), binary64.reads_of_eq ?_, rfl⟩
      rw [hordinal, binary64.units_of_lt (Nat.two_pow_pos _)]
      simp
  · have hreads := binary64.reads_shortest NumberLayout.json.tie x.ordinal
    rcases NumberLayout.magnitudeText_json (binary64.shortest NumberLayout.json.tie x.ordinal)
      with hform | hform
    · rw [hform]
      exact floatText?_json_positionalForm hreads
    · rw [hform]
      exact ⟨.decimal _ _, hreads, Number.floatText?_exponentForm _ _⟩

/-- Finite numbers with the same text are the same, the sign of a zero included. -/
theorem json_text_inj {x y : Double} (hx : x.isFinite = true) (hy : y.isFinite = true)
    (h : NumberLayout.json.text x = NumberLayout.json.text y) : x = y := by
  have hsign : ∀ {z : Double}, z.isFinite = true →
      Number.takeSign (NumberLayout.json.text z) = (z.negative, z.jsonMagnitude) := by
    intro z hz
    obtain ⟨said, _, hread⟩ := floatText?_json z
    rw [json_text_eq hz]
    cases z.negative with
    | true => rfl
    | false => exact Number.takeSign_of_floatText? hread
  obtain ⟨hnegative, hmagnitude⟩ := Prod.mk.inj ((hsign hx).symm.trans (h ▸ hsign hy))
  obtain ⟨said, hreads, hread⟩ := floatText?_json x
  obtain ⟨said', hreads', hread'⟩ := floatText?_json y
  have hsame : said' = said := Option.some.inj (hread'.symm.trans (hmagnitude ▸ hread))
  exact eq_of_ordinal hnegative (hreads.ordinal_eq (hsame ▸ hreads'))

/-! ## Characters -/

/-- The characters of numbers in JSON texts. -/
def isJsonChar (c : Char) : Bool := Number.isDigit c || ['+', '-', '.', 'e'].contains c

theorem isJsonChar_of_isDigit {c : Char} (hc : Number.isDigit c = true) : isJsonChar c = true := by
  rw [isJsonChar, hc, Bool.true_or]

theorem isJsonChar_toDigits (n : Nat) : ∀ c ∈ Nat.toDigits 10 n, isJsonChar c = true :=
  fun _ hc => isJsonChar_of_isDigit (Number.isDigit_of_mem_toDigits hc)

theorem isJsonChar_positionalForm (n : Nat) (point : Int) :
    ∀ c ∈ NumberLayout.json.positionalForm (Nat.toDigits 10 n) point, isJsonChar c = true :=
  forall_mem_positionalForm (by decide) (by decide)
    (by simp [NumberLayout.json, isJsonChar, Number.isDigit]) (isJsonChar_toDigits n) point

theorem isJsonChar_powerText (power : Int) :
    ∀ c ∈ NumberLayout.powerText power, isJsonChar c = true := by
  intro c hc
  rcases List.mem_cons.mp hc with rfl | hc
  · split <;> decide
  · exact isJsonChar_toDigits _ c hc

theorem isJsonChar_exponentForm {digits : List Char} (hdigits : ∀ c ∈ digits, isJsonChar c = true)
    (point : Int) : ∀ c ∈ NumberLayout.exponentForm digits point, isJsonChar c = true := by
  have hpoint : isJsonChar '.' = true := by decide
  have hmark : isJsonChar 'e' = true := by decide
  have hpower := isJsonChar_powerText (point - 1)
  intro c hc
  unfold NumberLayout.exponentForm at hc
  split at hc
  · next d r rest =>
      obtain ⟨hd, hrest⟩ := List.forall_mem_cons.mp hdigits
      simp only [List.cons_append, List.mem_cons, List.mem_append] at hc
      rcases hc with rfl | rfl | rfl | hc | rfl | hc
      · exact hd
      · exact hpoint
      · exact hrest c List.mem_cons_self
      · exact hrest c (List.mem_cons_of_mem _ hc)
      · exact hmark
      · exact hpower c hc
  · simp only [List.mem_append, List.mem_cons] at hc
    rcases hc with hc | rfl | hc
    · exact hdigits c hc
    · exact hmark
    · exact hpower c hc

theorem isJsonChar_json_text {x : Double} (hx : x.isFinite = true) :
    ∀ c ∈ NumberLayout.json.text x, isJsonChar c = true := by
  intro c hc
  rw [json_text_eq hx] at hc
  rcases List.mem_append.mp hc with hc | hc
  · cases hnegative : x.negative <;> simp [hnegative] at hc
    exact hc ▸ rfl
  · unfold jsonMagnitude at hc
    split at hc
    · have hzero : ∀ c ∈ ['0', '.', '0'], isJsonChar c = true := by
        simp [isJsonChar, Number.isDigit]
      exact hzero c hc
    · rcases NumberLayout.magnitudeText_json (binary64.shortest NumberLayout.json.tie x.ordinal)
        with hform | hform
      · rw [hform] at hc
        exact isJsonChar_positionalForm _ _ c hc
      · rw [hform] at hc
        exact isJsonChar_exponentForm (isJsonChar_toDigits _) _ c hc

/-- A floating-point number is never written like a whole number. -/
theorem exists_mark_mem_json_text {x : Double} (hx : x.isFinite = true) :
    ∃ c ∈ ['.', 'e'], c ∈ NumberLayout.json.text x := by
  have hmagnitude : ∃ c ∈ ['.', 'e'], c ∈ x.jsonMagnitude := by
    unfold jsonMagnitude
    split
    · exact ⟨'.', by decide, by decide⟩
    · rcases NumberLayout.magnitudeText_json (binary64.shortest NumberLayout.json.tie x.ordinal)
        with hform | hform
      · rw [hform]
        refine ⟨'.', by decide, ?_⟩
        unfold NumberLayout.positionalForm
        split
        · exact List.mem_append_right _ (by decide)
        · split <;> simp
      · rw [hform]
        refine ⟨'e', by decide, ?_⟩
        unfold NumberLayout.exponentForm
        split <;> simp
  obtain ⟨c, hmark, hc⟩ := hmagnitude
  rw [json_text_eq hx]
  exact ⟨c, hmark, List.mem_append_right _ hc⟩

end Double

/-! ## Whole numbers -/

namespace Number

theorem toList_toString_int (n : Int) : (toString n).toList = Double.intText n := by
  rw [Int.toString_eq_repr, Int.repr_eq_if, Double.intText]
  split
  · next hn =>
      have habs : n.toNat = n.natAbs := by omega
      rw [if_neg (by omega), Nat.toList_repr, habs]
      rfl
  · next hn =>
      have habs : (-n).toNat = n.natAbs := by omega
      rw [if_pos (by omega), String.toList_append, Nat.toList_repr, habs]
      rfl

/-- The text of a whole number has digits, and nothing else but a minus. -/
theorem isDigit_or_minus_of_mem_toString {n : Int} :
    ∀ c ∈ (toString n).toList, isDigit c = true ∨ c = '-' := by
  intro c hc
  rw [toList_toString_int] at hc
  rcases List.mem_append.mp hc with hc | hc
  · split at hc
    · exact .inr (List.mem_singleton.mp hc)
    · cases hc
  · exact .inl (isDigit_of_mem_toDigits hc)

theorem toString_int_inj {m n : Int} (h : (toString m).toList = (toString n).toList) : m = n := by
  rw [toList_toString_int, toList_toString_int] at h
  exact Double.intText_inj h

end Number

end IndexQuery
