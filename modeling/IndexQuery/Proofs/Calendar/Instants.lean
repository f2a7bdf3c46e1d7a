import IndexQuery.Number.Binary
import IndexQuery.Proofs.Calendar.Days
set_option autoImplicit false

/-! # The order of instants

An instant falls on one second of one date (`Instant.exists_fallsOn`). Instants are ordered by date,
second of the day and nanosecond, which is the order of their seconds on the Unix scale and then
their nanoseconds (`Instant.notAfter_iff`).

Milliseconds keep this order with one exception. A leap second is written on the second before it,
with a billion nanoseconds or more, so that its milliseconds run into those of the second that
follows: an instant of a leap second *overtakes* the instants of the next second that lie fewer
milliseconds into it. No other pair is exchanged (`Instant.millis_le_iff`). All milliseconds are of
a magnitude below `2 ^ 53` (`Instant.natAbs_millis_lt`, `Date.natAbs_millis_lt`). -/

namespace IndexQuery

open Calendar

namespace Instant

variable {s t : Instant}

/-! ## Dates and times of day -/

theorem isTime_iff {seconds : Int} {nanos : Nat} : isTime seconds nanos = true ↔
    firstDay * 86400 ≤ seconds ∧ seconds < (lastDay + 1) * 86400 ∧ nanos < 2000000000 ∧
      (nanos < 1000000000 ∨ seconds % 60 = 59) := by
  simp only [isTime, Bool.and_eq_true, Bool.or_eq_true, decide_eq_true_eq, beq_iff_eq, and_assoc]
  rfl

/-- The instant lies in a second of a date. -/
def FallsOn (t : Instant) (d : Date) (second : Nat) : Prop :=
  second < 86400 ∧ t.seconds = d.dayNumber * 86400 + second

/-- Every instant lies in a second of a date. -/
theorem exists_fallsOn (t : Instant) : ∃ d second, t.FallsOn d second := by
  obtain ⟨hfirst, hlast, -⟩ := isTime_iff.mp t.exists_time
  obtain ⟨d, hd⟩ := Date.exists_dayNumber (show firstDay ≤ t.seconds / 86400 by omega)
    (show t.seconds / 86400 ≤ lastDay by omega)
  refine ⟨d, (t.seconds % 86400).toNat, by omega, ?_⟩
  rw [hd]
  omega

/-! ## Order -/

/-- The first instant is before the second one or the same: by date, second of the day and
nanosecond. -/
def NotAfter (s t : Instant) : Prop :=
  ∃ d e second second', s.FallsOn d second ∧ t.FallsOn e second' ∧
    (d.Before e ∨ d = e ∧ (second < second' ∨ second = second' ∧ s.nanos ≤ t.nanos))

/-- Instants are ordered by their seconds and nanoseconds. -/
theorem notAfter_iff :
    s.NotAfter t ↔ s.seconds < t.seconds ∨ s.seconds = t.seconds ∧ s.nanos ≤ t.nanos := by
  constructor
  · rintro ⟨d, e, second, second', ⟨hlt, hs⟩, ⟨hlt', ht⟩, horder⟩
    rcases horder with hbefore | ⟨rfl, hplace⟩
    · have hdays : d.dayNumber < e.dayNumber := Date.dayNumber_lt_iff.mpr hbefore
      omega
    · omega
  · intro h
    obtain ⟨d, second, hs⟩ := s.exists_fallsOn
    obtain ⟨e, second', ht⟩ := t.exists_fallsOn
    refine ⟨d, e, second, second', hs, ht, ?_⟩
    obtain ⟨hlt, hs⟩ := hs
    obtain ⟨hlt', ht⟩ := ht
    -- the second instant does not fall on an earlier day
    rcases Int.lt_or_eq_of_le (show d.dayNumber ≤ e.dayNumber by omega) with hdays | hdays
    · exact .inl (Date.dayNumber_lt_iff.mp hdays)
    · exact .inr ⟨Date.dayNumber_inj hdays, by omega⟩

/-! ## Milliseconds -/

/-- The first instant lies in a leap second, and the second one in the second after it, fewer whole
milliseconds from its start than the first is from the start of the leap second. -/
def Overtakes (s t : Instant) : Prop :=
  1000000000 ≤ s.nanos ∧ t.seconds = s.seconds + 1 ∧
    t.nanos / 1000000 < (s.nanos - 1000000000) / 1000000

/-- Of two instants in order, the milliseconds are in order unless the first overtakes the
second. -/
theorem millis_le_iff (h : s.NotAfter t) : s.millis ≤ t.millis ↔ ¬ s.Overtakes t := by
  obtain ⟨-, -, hnanos, -⟩ := isTime_iff.mp s.exists_time
  unfold millis Overtakes
  rcases notAfter_iff.mp h with hlt | ⟨heq, hle⟩
  · omega
  · have hmillis : s.nanos / 1000000 ≤ t.nanos / 1000000 := Nat.div_le_div_right hle
    omega

/-- Milliseconds are exact in double precision. -/
theorem natAbs_millis_lt (t : Instant) : t.millis.natAbs < 2 ^ 53 := by
  obtain ⟨hfirst, hlast, hnanos, -⟩ := isTime_iff.mp t.exists_time
  have hstart : firstDay = -96465292 := by decide
  have hend : lastDay = 95026236 := by decide
  rw [hstart] at hfirst
  rw [hend] at hlast
  unfold millis
  omega

end Instant

namespace Date

theorem isTime_midnight (d : Date) : Instant.isTime (d.dayNumber * 86400) 0 = true := by
  have hfirst := d.firstDay_le_dayNumber
  have hlast := d.dayNumber_le_lastDay
  exact Instant.isTime_iff.mpr (by omega)

/-- The start of a date, in universal time. -/
def midnight (d : Date) : Instant := ⟨d.dayNumber * 86400, 0, d.isTime_midnight⟩

theorem midnight_fallsOn (d : Date) : d.midnight.FallsOn d 0 := ⟨by decide, by simp [midnight]⟩

theorem millis_midnight (d : Date) : d.midnight.millis = d.millis := by
  simp [Instant.millis, midnight, millis, secondsPerDay]

theorem natAbs_millis_lt (d : Date) : d.millis.natAbs < 2 ^ 53 :=
  d.millis_midnight ▸ d.midnight.natAbs_millis_lt

end Date

end IndexQuery
