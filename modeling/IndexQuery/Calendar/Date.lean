set_option autoImplicit false

/-! # Dates and instants

A `Date` is a day of the Gregorian calendar, carried back before its introduction, with a year 0.
An `Instant` is a second on the Unix scale with its nanoseconds. A leap second is written on the
second before it, with a billion or more nanoseconds. Both are encoded as milliseconds since the
start of 1970. -/

namespace IndexQuery

/-! ## The calendar -/

namespace Calendar

/-- Whether the year has a 29th of February. -/
def isLeap (year : Int) : Bool := year % 4 == 0 && (year % 100 != 0 || year % 400 == 0)

def monthLengths (year : Int) : List Nat :=
  [31, if isLeap year then 29 else 28, 31, 30, 31, 30, 31, 31, 30, 31, 30, 31]

/-- The days from the start of the year 0 to the start of the given year. -/
def daysBeforeYear (year : Int) : Int :=
  365 * year + (year + 3) / 4 - (year + 99) / 100 + (year + 399) / 400

/-- The days of the year before the given month. -/
def daysBeforeMonth (year : Int) (month : Nat) : Nat :=
  ((monthLengths year).take (month - 1)).foldl (· + ·) 0

/-- The days from the start of 1970 to the given day. -/
def dayNumber (year : Int) (month day : Nat) : Int :=
  daysBeforeYear year - daysBeforeYear 1970 + daysBeforeMonth year month + day - 1

/-- The first year that can be represented. -/
def firstYear : Int := -262143

def lastYear : Int := 262142

def secondsPerDay : Int := 86400

/-- Whether the calendar has the day and its year can be represented. -/
def isDay (year : Int) (month day : Nat) : Bool :=
  firstYear ≤ year && year ≤ lastYear && 1 ≤ month && 1 ≤ day &&
    decide (day ≤ ((monthLengths year)[month - 1]?).getD 0)

end Calendar

/-! ## Dates -/

/-- A day of the calendar. -/
structure Date where
  /-- the year, counted with a year 0 -/
  year : Int
  /-- the month, from 1 -/
  month : Nat
  /-- the day of the month, from 1 -/
  day : Nat
  exists_day : Calendar.isDay year month day = true
deriving DecidableEq

namespace Date

/-- The day with the given year, month and day of the month, if the calendar has it. -/
def ofParts? (year : Int) (month day : Nat) : Option Date :=
  if h : Calendar.isDay year month day = true then some ⟨year, month, day, h⟩ else none

def dayNumber (d : Date) : Int := Calendar.dayNumber d.year d.month d.day

/-- The milliseconds from the start of 1970 to the start of the day. -/
def millis (d : Date) : Int := d.dayNumber * Calendar.secondsPerDay * 1000

end Date

/-! ## Instants -/

namespace Instant

/-- Whether a second and its nanoseconds name an instant of a representable day. Only the last
second of a minute can be a leap second. -/
def isTime (seconds : Int) (nanos : Nat) : Bool :=
  Calendar.dayNumber Calendar.firstYear 1 1 * Calendar.secondsPerDay ≤ seconds &&
    seconds < (Calendar.dayNumber Calendar.lastYear 12 31 + 1) * Calendar.secondsPerDay &&
    nanos < 2000000000 && (nanos < 1000000000 || seconds % 60 == 59)

end Instant

/-- An instant on the Unix scale. -/
structure Instant where
  /-- the whole seconds since the start of 1970 -/
  seconds : Int
  /-- the nanoseconds; a billion or more in a leap second -/
  nanos : Nat
  exists_time : Instant.isTime seconds nanos = true
deriving DecidableEq

namespace Instant

def ofParts? (seconds : Int) (nanos : Nat) : Option Instant :=
  if h : isTime seconds nanos = true then some ⟨seconds, nanos, h⟩ else none

/-- The whole milliseconds since the start of 1970. -/
def millis (t : Instant) : Int := t.seconds * 1000 + (t.nanos / 1000000 : Nat)

end Instant

end IndexQuery
