import IndexQuery.Encoding
import IndexQuery.Proofs.Calendar.Instants
import IndexQuery.Proofs.Number.Integers
import IndexQuery.QueryText.Rendering
set_option autoImplicit false

/-! # Dates in queries

A date, an instant or a local time is encoded as its milliseconds, and the milliseconds are numbers
of the format (`numericOperand_of_millis?`). So no date is rounded on its way into a query: the
number is the one meant, the query writes it with all its digits, and different milliseconds give
different bounds (`dates_reach_query`).

What is asked of a range of dates is therefore decided by the milliseconds. They are in the order of
the instants, unless a leap second overtakes the second after it; a date is its midnight, and a
local time is the instant with the same date and time of day (`encoding_keeps_time_order`). -/

namespace IndexQuery

namespace Encoding

open BinaryFormat (binary64)

variable {f : Field} {v w : Operand} {s t : Instant} {d : Date} {m n : Int}

/-! ## Milliseconds -/

/-- The milliseconds of an operand that stands for a time. -/
def millis? : Operand → Option Int
  | .date d => some d.millis
  | .instant t => some t.millis
  | .localTime t => some t.millis
  | _ => none

/-- The instant of an operand that is given by one. -/
def instant? : Operand → Option Instant
  | .instant t => some t
  | .localTime t => some t
  | _ => none

theorem millis?_of_instant? (h : instant? v = some t) : millis? v = some t.millis := by
  cases v with
  | instant t' => cases h; rfl
  | localTime t' => cases h; rfl
  | _ => cases h

/-- A time is encoded as its milliseconds. -/
theorem numericOperand_of_millis? (f : Field) (h : millis? v = some m) :
    numericOperand f v = .ok (Double.ofInt m) := by
  have hnumber : number? v = some (Double.ofInt m) := by
    cases v with
    | date d => cases h; rfl
    | instant t => cases h; rfl
    | localTime t => cases h; rfl
    | _ => cases h
  simp [numericOperand, hnumber, Double.isNaN_ofInt]

/-- There are few enough milliseconds between the first and the last day. -/
theorem natAbs_lt_of_millis? (h : millis? v = some m) : m.natAbs < 2 ^ 53 := by
  cases v with
  | date d => cases h; exact d.natAbs_millis_lt
  | instant t => cases h; exact t.natAbs_millis_lt
  | localTime t => cases h; exact t.natAbs_millis_lt
  | _ => cases h

/-! ## Order -/

/-- Two instants in order, however they are given, are encoded in order unless the first overtakes
the second; then the first is encoded as the larger number. -/
theorem order_encoded (f : Field) (hv : instant? v = some s) (hw : instant? w = some t)
    (h : s.NotAfter t) : ∃ x y, numericOperand f v = .ok x ∧ numericOperand f w = .ok y ∧
      (x.le y = true ↔ ¬ s.Overtakes t) ∧ (y.lt x = true ↔ s.Overtakes t) := by
  refine ⟨_, _, numericOperand_of_millis? f (millis?_of_instant? hv),
    numericOperand_of_millis? f (millis?_of_instant? hw), ?_, ?_⟩
  · rw [Double.le_ofInt_iff s.natAbs_millis_lt t.natAbs_millis_lt]
    exact Instant.millis_le_iff h
  · rw [Double.lt_ofInt_iff t.natAbs_millis_lt s.natAbs_millis_lt, ← Int.not_le]
    exact not_iff_comm.mp (Instant.millis_le_iff h).symm

theorem numericOperand_midnight (f : Field) (d : Date) (hv : instant? v = some d.midnight) :
    numericOperand f v = numericOperand f (.date d) := by
  have hdate : millis? (.date d) = some d.millis := rfl
  rw [numericOperand_of_millis? f (millis?_of_instant? hv), numericOperand_of_millis? f hdate,
    d.millis_midnight]

/-- The encoding of times keeps their order. Of two instants in order, given with an offset or as
local times, the first is not encoded as a larger number, unless it lies in a leap second and
overtakes the second instant; then it is. A date is encoded as its midnight, and a local time as
the instant with the same date, time of day and nanoseconds in universal time. -/
theorem encoding_keeps_time_order (f : Field) :
    (∀ v w s t, instant? v = some s → instant? w = some t → s.NotAfter t →
      ∃ x y, numericOperand f v = .ok x ∧ numericOperand f w = .ok y ∧
        (x.le y = true ↔ ¬ s.Overtakes t) ∧ (y.lt x = true ↔ s.Overtakes t)) ∧
    (∀ d : Date, d.midnight.FallsOn d 0 ∧ d.midnight.nanos = 0 ∧
      ∃ x, numericOperand f (.date d) = .ok x ∧ numericOperand f (.instant d.midnight) = .ok x ∧
        numericOperand f (.localTime d.midnight) = .ok x) ∧
    ∀ (d : Date) (second : Nat) (s t : Instant), s.FallsOn d second → t.FallsOn d second →
      s.nanos = t.nanos →
      ∃ x, numericOperand f (.localTime s) = .ok x ∧ numericOperand f (.instant t) = .ok x := by
  refine ⟨fun v w s t hv hw h => order_encoded f hv hw h, fun d => ⟨d.midnight_fallsOn, rfl, ?_⟩,
    fun d second s t hs ht hnanos => ?_⟩
  · have hdate : numericOperand f (.date d) = .ok (Double.ofInt d.millis) :=
      numericOperand_of_millis? f rfl
    exact ⟨_, hdate, (numericOperand_midnight f d rfl).trans hdate,
      (numericOperand_midnight f d rfl).trans hdate⟩
  · have hmillis : s.millis = t.millis := by
      obtain ⟨-, hs⟩ := hs
      obtain ⟨-, ht⟩ := ht
      rw [Instant.millis, Instant.millis, hs, ht, hnanos]
    have hlocal : numericOperand f (.localTime s) = .ok (Double.ofInt s.millis) :=
      numericOperand_of_millis? f rfl
    have hinstant : numericOperand f (.instant t) = .ok (Double.ofInt t.millis) :=
      numericOperand_of_millis? f rfl
    exact ⟨_, hlocal, hmillis ▸ hinstant⟩

/-- The last second before 1970 and the first one after it, and the midnight of the last leap day
that can be represented. -/
theorem encoding_keeps_time_order_epoch :
    let born : Field := ⟨"born", "born", .date, false, by decide, by decide, by decide⟩
    let before : Instant := ⟨-1, 999999999, by decide⟩
    let after : Instant := ⟨0, 0, by decide⟩
    let leap : Date := ⟨262140, 2, 29, by decide⟩
    instant? (.instant before) = some before ∧ instant? (.localTime after) = some after ∧
      before.NotAfter after ∧
      (∃ x y, numericOperand born (.instant before) = .ok x ∧
        numericOperand born (.localTime after) = .ok y ∧ x.le y = true) ∧
      leap.midnight.FallsOn leap 0 ∧
      (∃ x, numericOperand born (.date leap) = .ok x ∧
        numericOperand born (.localTime leap.midnight) = .ok x) ∧
      ∃ x, numericOperand born (.localTime leap.midnight) = .ok x ∧
        numericOperand born (.instant leap.midnight) = .ok x := by
  intro born before after leap
  obtain ⟨horder, hmidnight, hwall⟩ := encoding_keeps_time_order born
  have hnotAfter : before.NotAfter after := Instant.notAfter_iff.mpr (.inl (by decide))
  have hkept : ¬ before.Overtakes after := by
    rintro ⟨hleap, -⟩
    exact absurd hleap (by decide)
  obtain ⟨x, y, hx, hy, hle, -⟩ := horder (.instant before) (.localTime after) _ _ rfl rfl hnotAfter
  obtain ⟨hfalls, hnanos, z, hdate, -, hlocal⟩ := hmidnight leap
  exact ⟨rfl, rfl, hnotAfter, ⟨x, y, hx, hy, hle.mpr hkept⟩, hfalls, ⟨z, hdate, hlocal⟩,
    hwall leap 0 _ _ hfalls hfalls rfl⟩

/-- The middle of the leap second at the end of 2016 and the start of 2017, as they are written in a
filter. The first is before the second, but it is encoded as the larger number. -/
theorem leap_second_overtakes :
    let born : Field := ⟨"born", "born", .date, false, by decide, by decide, by decide⟩
    let leap : Instant := ⟨1483228799, 1500000000, by decide⟩
    let year : Instant := ⟨1483228800, 0, by decide⟩
    Instant.ofText? "2016-12-31T23:59:60.5Z".toList = some leap ∧
      Instant.ofText? "2017-01-01T00:00:00Z".toList = some year ∧
      leap.NotAfter year ∧
      numericOperand born (.instant leap) = .ok (Double.ofInt 1483228800500) ∧
      numericOperand born (.instant year) = .ok (Double.ofInt 1483228800000) ∧
      (Double.ofInt 1483228800500).le (Double.ofInt 1483228800000) = false := by
  intro born leap year
  have hleap : numericOperand born (.instant leap) = .ok (Double.ofInt 1483228800500) :=
    numericOperand_of_millis? born (by decide)
  have hyear : numericOperand born (.instant year) = .ok (Double.ofInt 1483228800000) :=
    numericOperand_of_millis? born (by decide)
  exact ⟨by decide +kernel, by decide +kernel, Instant.notAfter_iff.mpr (.inl (by decide)), hleap,
    hyear, by decide +kernel⟩

/-! ## Digits -/

/-- Different milliseconds have different texts. -/
theorem numberText_ne (hv : millis? v = some m) (hw : millis? w = some n) (hne : m ≠ n) :
    QueryText.numberText (Double.ofInt m) ≠ QueryText.numberText (Double.ofInt n) := by
  have hm := natAbs_lt_of_millis? hv
  have hn := natAbs_lt_of_millis? hw
  rw [Double.numberText_ofInt hm, Double.numberText_ofInt hn]
  exact fun hsame => hne (Double.intText_inj hsame)

/-- Dates are not rounded on their way into a query. The milliseconds of a date, an instant or a
local time are of a magnitude below `2 ^ 53`; the number they are encoded as has exactly their value
in units; its text is their decimal digits, with a sign if they are negative; and the texts of
different milliseconds are different bounds of a range, at either end, included or not. -/
theorem dates_reach_query (f : Field) :
    (∀ v m, millis? v = some m → m.natAbs < 2 ^ 53 ∧
      ∃ x, numericOperand f v = .ok x ∧ x.isFinite = true ∧
        x.signedUnits = m * (2 ^ binary64.scale : Nat) ∧
        QueryText.numberText x
          = (if m < 0 then ['-'] else []) ++ Nat.toDigits 10 m.natAbs) ∧
    ∀ v w m n, millis? v = some m → millis? w = some n → m ≠ n →
      ∀ x y, numericOperand f v = .ok x → numericOperand f w = .ok y →
        QueryText.lowerBound (.inclusive x) ≠ QueryText.lowerBound (.inclusive y) ∧
        QueryText.lowerBound (.exclusive x) ≠ QueryText.lowerBound (.exclusive y) ∧
        QueryText.upperBound (.inclusive x) ≠ QueryText.upperBound (.inclusive y) ∧
        QueryText.upperBound (.exclusive x) ≠ QueryText.upperBound (.exclusive y) := by
  constructor
  · intro v m hv
    have hm := natAbs_lt_of_millis? hv
    exact ⟨hm, _, numericOperand_of_millis? f hv, Double.isFinite_ofInt hm,
      Double.signedUnits_ofInt hm, Double.numberText_ofInt hm⟩
  · intro v w m n hv hw hne x y hx hy
    rw [numericOperand_of_millis? f hv] at hx
    rw [numericOperand_of_millis? f hw] at hy
    cases Except.ok.inj hx
    cases Except.ok.inj hy
    have htexts := numberText_ne hv hw hne
    exact ⟨htexts, fun h => htexts (List.cons.inj h).2, htexts,
      fun h => htexts (List.cons.inj h).2⟩

/-- The first day that can be represented, and the two sides of sixteen digits in the year 33658. -/
theorem dates_reach_query_sixteen_digits :
    let born : Field := ⟨"born", "born", .date, false, by decide, by decide, by decide⟩
    let first : Date := ⟨-262143, 1, 1, by decide⟩
    let fifteen : Instant := ⟨999999999999, 999000000, by decide⟩
    let sixteen : Instant := ⟨1000000000000, 0, by decide⟩
    millis? (.date first) = some (-8334601228800000) ∧
      (∃ x, numericOperand born (.date first) = .ok x ∧
        QueryText.numberText x = "-8334601228800000".toList) ∧
      millis? (.instant fifteen) = some 999999999999999 ∧
      millis? (.localTime sixteen) = some 1000000000000000 ∧
      ∃ x y, numericOperand born (.instant fifteen) = .ok x ∧
        numericOperand born (.localTime sixteen) = .ok y ∧
        QueryText.numberText x = "999999999999999".toList ∧
        QueryText.numberText y = "1000000000000000".toList ∧
        QueryText.lowerBound (.exclusive x) ≠ QueryText.lowerBound (.exclusive y) := by
  intro born first fifteen sixteen
  have hfirst : millis? (.date first) = some (-8334601228800000) := by decide
  have hfifteen : millis? (.instant fifteen) = some 999999999999999 := by decide
  have hsixteen : millis? (.localTime sixteen) = some 1000000000000000 := by decide
  obtain ⟨htexts, hbounds⟩ := dates_reach_query born
  obtain ⟨-, x, hx, -, -, hxtext⟩ := htexts _ _ hfirst
  obtain ⟨-, y, hy, -, -, hytext⟩ := htexts _ _ hfifteen
  obtain ⟨-, z, hz, -, -, hztext⟩ := htexts _ _ hsixteen
  obtain ⟨-, hexclusive, -⟩ := hbounds _ _ _ _ hfifteen hsixteen (by decide) y z hy hz
  exact ⟨hfirst, ⟨x, hx, hxtext⟩, hfifteen, hsixteen, y, z, hy, hz, hytext, hztext, hexclusive⟩

end Encoding

end IndexQuery
