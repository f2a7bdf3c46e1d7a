import IndexQuery.Proofs.Number.Cells
import IndexQuery.QueryText.Escape
import IndexQuery.Number.Reading
import Mathlib.Data.List.TakeWhile
set_option autoImplicit false

/-! # Written numbers

A number in a query reads back as the number: its text is a sign with the digits of a decimal in the
cell of the number, or with the word for infinity (`writtenAs_text`, `writtenAs_numberText`). A text
is therefore the text of one number only (`WrittenAs.eq`), whichever of the two ways of writing it
comes from. No text of a number has a blank or a bracket in it. -/

namespace IndexQuery

namespace Number

/-! ## Digits -/

theorem isDigit_of_mem_toDigits {n : Nat} {c : Char} (hc : c ∈ Nat.toDigits 10 n) :
    isDigit c = true :=
  Nat.isDigit_of_mem_toDigits (by omega) (by omega) hc

theorem isDigit_of_mem_replicate {n : Nat} {c : Char} (hc : c ∈ List.replicate n '0') :
    isDigit c = true := by
  rw [List.eq_of_mem_replicate hc]
  rfl

theorem ofDigits_eq (ds : List Char) : ofDigits ds = Nat.ofDigitChars 10 ds 0 := rfl

theorem ofDigits_toDigits (n : Nat) : ofDigits (Nat.toDigits 10 n) = n := by
  rw [ofDigits_eq, Nat.ofDigitChars_ten_toDigits]

theorem toDigits_inj {m n : Nat} (h : Nat.toDigits 10 m = Nat.toDigits 10 n) : m = n := by
  rw [← ofDigits_toDigits m, h, ofDigits_toDigits]

/-- Zeros behind the digits scale the number. -/
theorem ofDigits_append_zeros (ds : List Char) (n : Nat) :
    ofDigits (ds ++ List.replicate n '0') = ofDigits ds * 10 ^ n := by
  rw [ofDigits_eq, Nat.ofDigitChars_append, Nat.ofDigitChars_replicate_zero, Nat.mul_comm]
  rfl

/-- Zeros in front of the digits do not count. -/
theorem ofDigits_zeros_append (n : Nat) (ds : List Char) :
    ofDigits (List.replicate n '0' ++ ds) = ofDigits ds := by
  rw [ofDigits_eq, Nat.ofDigitChars_append, Nat.ofDigitChars_replicate_zero, Nat.mul_zero]
  rfl

/-! ## Reading positional forms -/

/-- An exponent part is empty or begins with its mark. -/
theorem exponent?_head {rest : List Char} {exponent : Int} (h : exponent? rest = some exponent) :
    rest = [] ∨ ∃ mark tail, rest = mark :: tail ∧ isDigit mark = false ∧ mark ≠ '.' := by
  unfold exponent? at h
  split at h
  · exact .inl rfl
  · exact .inr ⟨'e', _, rfl, by decide, by decide⟩
  · exact .inr ⟨'E', _, rfl, by decide, by decide⟩
  · cases h

/-- The digits in front of an exponent part. -/
theorem span_exponent {ds rest : List Char} {exponent : Int} (hds : ∀ c ∈ ds, isDigit c = true)
    (hrest : exponent? rest = some exponent) :
    (ds ++ rest).takeWhile isDigit = ds ∧ (ds ++ rest).dropWhile isDigit = rest := by
  rw [List.takeWhile_append_of_pos hds, List.dropWhile_append_of_pos hds]
  rcases exponent?_head hrest with rfl | ⟨mark, tail, rfl, hmark, _⟩
  · exact ⟨List.append_nil ds, rfl⟩
  · rw [List.takeWhile_cons_of_neg (by simp [hmark]), List.dropWhile_cons_of_neg (by simp [hmark])]
    exact ⟨List.append_nil ds, rfl⟩

/-- Digits with an exponent part behind them, which may be empty. -/
theorem floatText?_whole_exponent {ds rest : List Char} {exponent : Int} (hne : ds ≠ [])
    (hds : ∀ c ∈ ds, isDigit c = true) (hrest : exponent? rest = some exponent) :
    floatText? (ds ++ rest) = some (.decimal (ofDigits ds) exponent) := by
  obtain ⟨htake, hdrop⟩ := span_exponent hds hrest
  have hempty : ds.isEmpty = false := by simpa using hne
  unfold floatText?
  rw [htake, hdrop]
  rcases exponent?_head hrest with rfl | ⟨mark, tail, rfl, _, hpoint⟩
  · simp [hempty, hrest]
  · simp [hempty, hrest, hpoint]

/-- Digits on both sides of a point with an exponent part behind them, which may be empty. -/
theorem floatText?_fraction_exponent {ws fs rest : List Char} {exponent : Int} (hne : ws ≠ [])
    (hws : ∀ c ∈ ws, isDigit c = true) (hfs : ∀ c ∈ fs, isDigit c = true)
    (hrest : exponent? rest = some exponent) :
    floatText? (ws ++ '.' :: (fs ++ rest))
      = some (.decimal (ofDigits (ws ++ fs)) (exponent - fs.length)) := by
  have hpoint : isDigit '.' = false := by decide
  have htake : (ws ++ '.' :: (fs ++ rest)).takeWhile isDigit = ws := by
    rw [List.takeWhile_append_of_pos hws, List.takeWhile_cons_of_neg (by simp [hpoint]),
      List.append_nil]
  have hdrop : (ws ++ '.' :: (fs ++ rest)).dropWhile isDigit = '.' :: (fs ++ rest) := by
    rw [List.dropWhile_append_of_pos hws, List.dropWhile_cons_of_neg (by simp [hpoint])]
  obtain ⟨hfraction, hafter⟩ := span_exponent hfs hrest
  have hempty : ws.isEmpty = false := by simpa using hne
  simp [floatText?, htake, hdrop, hfraction, hafter, hempty, hrest]

theorem floatText?_whole {ds : List Char} (hne : ds ≠ []) (hds : ∀ c ∈ ds, isDigit c = true) :
    floatText? ds = some (.decimal (ofDigits ds) 0) := by
  have hread := floatText?_whole_exponent hne hds (rfl : exponent? [] = some 0)
  rwa [List.append_nil] at hread

theorem floatText?_fraction {ws fs : List Char} (hne : ws ≠ [])
    (hws : ∀ c ∈ ws, isDigit c = true) (hfs : ∀ c ∈ fs, isDigit c = true) :
    floatText? (ws ++ '.' :: fs) = some (.decimal (ofDigits (ws ++ fs)) (-(fs.length : Int))) := by
  have hread := floatText?_fraction_exponent hne hws hfs (rfl : exponent? [] = some 0)
  rwa [List.append_nil, Int.zero_sub] at hread

/-- What can be read without a sign does not begin with one. -/
theorem takeSign_of_floatText? {s : List Char} {said : FloatText} (h : floatText? s = some said) :
    takeSign s = (false, s) := by
  have hminus : isDigit '-' = false := by decide
  have hplus : isDigit '+' = false := by decide
  unfold takeSign
  split
  · simp [floatText?, hminus] at h
  · simp [floatText?, hplus] at h
  · rfl

/-- With the point behind all digits, zeros fill the places up to it. -/
theorem floatText?_padded (n zeros : Nat) :
    floatText? (Nat.toDigits 10 n ++ List.replicate zeros '0')
      = some (.decimal (n * 10 ^ zeros) 0) := by
  have hdigits : ∀ c ∈ Nat.toDigits 10 n ++ List.replicate zeros '0', isDigit c = true := by
    intro c hc
    rcases List.mem_append.mp hc with hc | hc
    · exact isDigit_of_mem_toDigits hc
    · exact isDigit_of_mem_replicate hc
  rw [floatText?_whole (List.append_ne_nil_of_left_ne_nil Nat.toDigits_ne_nil _) hdigits,
    ofDigits_append_zeros, ofDigits_toDigits]

/-- The point may stand among the digits. -/
theorem floatText?_parted {n point : Nat} (hpoint : 0 < point) :
    floatText? ((Nat.toDigits 10 n).take point ++ '.' :: (Nat.toDigits 10 n).drop point)
      = some (.decimal n (-(((Nat.toDigits 10 n).length - point : Nat) : Int))) := by
  have hdigits : ∀ c ∈ Nat.toDigits 10 n, isDigit c = true := fun _ => isDigit_of_mem_toDigits
  have hne : (Nat.toDigits 10 n).take point ≠ [] := by
    intro htake
    rcases List.take_eq_nil_iff.mp htake with hzero | hnil
    · omega
    · exact Nat.toDigits_ne_nil hnil
  rw [floatText?_fraction hne (fun c hc => hdigits c (List.mem_of_mem_take hc))
      (fun c hc => hdigits c (List.mem_of_mem_drop hc)),
    List.take_append_drop, ofDigits_toDigits, List.length_drop]

/-- With the point before all digits, zeros fill the places behind it. -/
theorem floatText?_below (n zeros : Nat) :
    floatText? ('0' :: '.' :: List.replicate zeros '0' ++ Nat.toDigits 10 n)
      = some (.decimal n (-((zeros + (Nat.toDigits 10 n).length : Nat) : Int))) := by
  have hdigits : ∀ c ∈ List.replicate zeros '0' ++ Nat.toDigits 10 n, isDigit c = true := by
    intro c hc
    rcases List.mem_append.mp hc with hc | hc
    · exact isDigit_of_mem_replicate hc
    · exact isDigit_of_mem_toDigits hc
  have hread := floatText?_fraction (List.cons_ne_nil '0' []) (by simp [isDigit]) hdigits
  have hzero : ['0'] = List.replicate 1 '0' := rfl
  rw [hzero, ofDigits_zeros_append, ofDigits_zeros_append, ofDigits_toDigits,
    List.length_append, List.length_replicate] at hread
  exact hread

/-- The positional form of a decimal says the decimal, with its places. -/
theorem floatText?_positionalForm (n : Nat) (exponent : Int) :
    floatText? (NumberLayout.plain.positionalForm (Nat.toDigits 10 n)
        ((Nat.toDigits 10 n).length + exponent))
      = some (.decimal (n * 10 ^ exponent.toNat) (-((-exponent).toNat : Int))) := by
  unfold NumberLayout.positionalForm
  split
  · next hwhole =>
      have hzeros : ((Nat.toDigits 10 n).length + exponent - (Nat.toDigits 10 n).length).toNat
          = exponent.toNat := by omega
      have hplaces : (-exponent).toNat = 0 := by omega
      have hending : NumberLayout.plain.wholeEnding = [] := rfl
      rw [hending, List.append_nil, hzeros, hplaces, floatText?_padded]
      rfl
  · next hwhole =>
      have hscale : exponent.toNat = 0 := by omega
      rw [hscale, Nat.pow_zero, Nat.mul_one]
      split
      · next hinside =>
          rw [floatText?_parted (by omega)]
          congr 2
          omega
      · next houtside =>
          rw [floatText?_below]
          congr 2
          omega

end Number

namespace Double

open BinaryFormat (binary64)

/-! ## The number a text says -/

/-- Whether what a text says, its sign left aside, is the magnitude of a number. -/
def Agrees (x : Double) : Number.FloatText → Prop
  | .decimal significand exponent =>
    ∃ places : Nat, exponent = -(places : Int) ∧ binary64.Reads x.ordinal significand places
  | .infinity => x.ordinal = binary64.infinity
  | .nan => False

/-- Whether a text says a number. -/
def WrittenAs (x : Double) (s : List Char) : Prop :=
  ∃ said, Number.floatText? (Number.takeSign s).2 = some said ∧
    (Number.takeSign s).1 = x.negative ∧ x.Agrees said

/-- A pattern is determined by its sign and the rest. -/
theorem eq_of_ordinal {x y : Double} (hnegative : x.negative = y.negative)
    (hordinal : x.ordinal = y.ordinal) : x = y := by
  have hweight : binary64.signWeight = 2 ^ 63 := rfl
  have hx := x.bits.toNat_lt
  have hy := y.bits.toNat_lt
  unfold negative ordinal at *
  rw [hweight] at hnegative hordinal
  have hbits : x.bits.toNat = y.bits.toNat := by
    have := decide_eq_decide.mp hnegative
    omega
  exact congrArg Double.mk (UInt64.toNat_inj.mp hbits)

/-- A text says one number at most. -/
theorem WrittenAs.eq {x y : Double} {s : List Char} (hx : x.WrittenAs s) (hy : y.WrittenAs s) :
    x = y := by
  obtain ⟨said, hsaid, hnegative, hagrees⟩ := hx
  obtain ⟨said', hsaid', hnegative', hagrees'⟩ := hy
  have hsame : said' = said := Option.some.inj (hsaid'.symm.trans hsaid)
  subst hsame
  refine eq_of_ordinal (hnegative.symm.trans hnegative') ?_
  cases said' with
  | decimal significand exponent =>
      obtain ⟨places, hplaces, hreads⟩ := hagrees
      obtain ⟨places', hplaces', hreads'⟩ := hagrees'
      have hsame : places' = places := by omega
      subst hsame
      exact hreads.ordinal_eq _ hreads'
  | infinity => exact hagrees.trans hagrees'.symm
  | nan => cases hagrees

/-! ## The texts of a number -/

/-- A sign in front of what can be read without one. -/
theorem writtenAs_of_magnitude {x : Double} {body : List Char} {said : Number.FloatText}
    (hbody : Number.floatText? body = some said) (hagrees : x.Agrees said) :
    x.WrittenAs ((if x.negative then ['-'] else []) ++ body) := by
  have hsign : Number.takeSign ((if x.negative then ['-'] else []) ++ body)
      = (x.negative, body) := by
    cases x.negative with
    | true => rfl
    | false => exact Number.takeSign_of_floatText? hbody
  exact ⟨said, by rw [hsign]; exact hbody, by rw [hsign], hagrees⟩

theorem writtenAs_text {x : Double} (hx : x.isNaN = false) : x.WrittenAs x.text := by
  have hmagnitude : ∃ said, x.Agrees said ∧ Number.floatText?
      (if x.isInfinite then ['i', 'n', 'f']
        else if x.isZero then '0' :: NumberLayout.plain.wholeEnding
        else NumberLayout.plain.magnitudeText
          (binary64.shortest NumberLayout.plain.tie x.ordinal)) = some said := by
    split
    · next hinfinite =>
        have hordinal : x.ordinal = binary64.infinity := by simpa [isInfinite] using hinfinite
        exact ⟨.infinity, hordinal, rfl⟩
    · split
      · next hzero =>
          have hordinal : x.ordinal = 0 := by simpa [isZero] using hzero
          refine ⟨.decimal 0 0, ⟨0, rfl, binary64.reads_of_eq ?_⟩, rfl⟩
          rw [hordinal, binary64.units_of_lt (Nat.two_pow_pos _), Nat.zero_mul, Nat.zero_mul]
      · exact ⟨.decimal _ _, ⟨_, rfl, binary64.reads_shortest _ _⟩,
          Number.floatText?_positionalForm _ _⟩
  obtain ⟨said, hagrees, hread⟩ := hmagnitude
  have htext := writtenAs_of_magnitude hread hagrees
  rw [text, NumberLayout.text, hx]
  exact htext

theorem writtenAs_numberText {x : Double} (hx : x.isNaN = false) :
    x.WrittenAs (QueryText.numberText x) := by
  unfold QueryText.numberText
  split
  · next hinfinite =>
      have hordinal : x.ordinal = binary64.infinity := by simpa [isInfinite] using hinfinite
      have hread : Number.floatText? ['i', 'n', 'f'] = some .infinity := rfl
      cases hnegative : x.negative with
      | true => exact ⟨.infinity, hread, hnegative.symm, hordinal⟩
      | false => exact ⟨.infinity, hread, hnegative.symm, hordinal⟩
  · split
    · -- a whole number is written with all of its digits, so its text says its exact value
      next hwhole =>
        have hunits : x.units % 2 ^ binary64.scale = 0 := by
          simp only [isWhole, Bool.and_eq_true, beq_iff_eq] at hwhole
          exact hwhole.1.2
        have hdigits : ∀ c ∈ Nat.toDigits 10 x.wholePart, Number.isDigit c = true :=
          fun _ => Number.isDigit_of_mem_toDigits
        have hread := Number.floatText?_whole Nat.toDigits_ne_nil hdigits
        refine writtenAs_of_magnitude hread ⟨0, rfl, binary64.reads_of_eq ?_⟩
        rw [Number.ofDigits_toDigits, Nat.pow_zero, Nat.mul_one]
        exact Nat.div_mul_cancel (Nat.dvd_of_mod_eq_zero hunits)
    · exact writtenAs_text hx

end Double

namespace QueryText

/-- The number in a query can be recovered from its text. -/
theorem numberText_inj {x y : Double} (hx : x.isNaN = false) (hy : y.isNaN = false)
    (h : numberText x = numberText y) : x = y :=
  (Double.writtenAs_numberText hx).eq (h ▸ Double.writtenAs_numberText hy)

end QueryText

namespace Double

theorem text_inj {x y : Double} (hx : x.isNaN = false) (hy : y.isNaN = false)
    (h : x.text = y.text) : x = y :=
  (writtenAs_text hx).eq (h ▸ writtenAs_text hy)

/-! ## Characters -/

/-- The characters of a positional form: digits, the point, zeros, and what ends whole numbers. -/
theorem forall_mem_positionalForm {layout : NumberLayout} {p : Char → Prop} (hpoint : p '.')
    (hzero : p '0') (hending : ∀ c ∈ layout.wholeEnding, p c) {digits : List Char}
    (hdigits : ∀ c ∈ digits, p c) (point : Int) :
    ∀ c ∈ layout.positionalForm digits point, p c := by
  have hzeros : ∀ k, ∀ c ∈ List.replicate k '0', p c :=
    fun k c hc => List.eq_of_mem_replicate hc ▸ hzero
  intro c hc
  unfold NumberLayout.positionalForm at hc
  split at hc
  · simp only [List.mem_append] at hc
    rcases hc with (hc | hc) | hc
    · exact hdigits c hc
    · exact hzeros _ c hc
    · exact hending c hc
  · split at hc
    · simp only [List.mem_append, List.mem_cons] at hc
      rcases hc with hc | rfl | hc
      · exact hdigits c (List.mem_of_mem_take hc)
      · exact hpoint
      · exact hdigits c (List.mem_of_mem_drop hc)
    · simp only [List.mem_append, List.mem_cons, List.cons_append] at hc
      rcases hc with rfl | rfl | hc | hc
      · exact hzero
      · exact hpoint
      · exact hzeros _ c hc
      · exact hdigits c hc

/-- The characters of written numbers. -/
def isTextChar (c : Char) : Bool :=
  Number.isDigit c || ['+', '-', '.', 'i', 'n', 'f', 'N', 'a'].contains c

theorem isTextChar_of_isDigit {c : Char} (hc : Number.isDigit c = true) : isTextChar c = true := by
  rw [isTextChar, hc, Bool.true_or]

theorem isTextChar_positionalForm (n : Nat) (point : Int) :
    ∀ c ∈ NumberLayout.plain.positionalForm (Nat.toDigits 10 n) point, isTextChar c = true :=
  forall_mem_positionalForm (by decide) (by decide) (by simp [NumberLayout.plain])
    (fun _ hc => isTextChar_of_isDigit (Number.isDigit_of_mem_toDigits hc)) point

theorem isTextChar_sign (negative : Bool) :
    ∀ c ∈ (if negative then ['-'] else []), isTextChar c = true := by
  cases negative <;> simp [isTextChar]

theorem isTextChar_text (x : Double) : ∀ c ∈ x.text, isTextChar c = true := by
  unfold text NumberLayout.text
  split
  · simp [isTextChar]
  · intro c hc
    rcases List.mem_append.mp hc with hc | hc
    · exact isTextChar_sign _ c hc
    · split at hc
      · have hword : ∀ c ∈ ['i', 'n', 'f'], isTextChar c = true := by simp [isTextChar]
        exact hword c hc
      · split at hc
        · have hzero : ∀ c ∈ ['0'], isTextChar c = true := by simp [isTextChar, Number.isDigit]
          exact hzero c hc
        · exact isTextChar_positionalForm _ _ c hc

theorem isTextChar_numberText (x : Double) :
    ∀ c ∈ QueryText.numberText x, isTextChar c = true := by
  unfold QueryText.numberText
  split
  · cases x.negative <;> simp [isTextChar]
  · split
    · intro c hc
      rcases List.mem_append.mp hc with hc | hc
      · exact isTextChar_sign _ c hc
      · exact isTextChar_of_isDigit (Number.isDigit_of_mem_toDigits hc)
    · exact isTextChar_text x

end Double

end IndexQuery
