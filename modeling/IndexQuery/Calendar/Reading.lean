import IndexQuery.Calendar.Date
import IndexQuery.Number.Reading
import IndexQuery.Text.Blank
set_option autoImplicit false

/-! # Reading dates and instants

Two written forms are accepted. `Instant.ofText?` reads a date and a time of day with an offset,
as RFC 3339 describes it, with fixed widths throughout. `Date.ofText?` reads a year, a month and a
day separated by hyphens and is lenient: blanks may stand before each number, a month and a day
may have one digit, and a year with a sign may have any number of digits. -/

namespace IndexQuery

namespace Calendar

open Number (isDigit ofDigits)

/-! ## Scanning -/

/-- Takes at least `least` and at most `most` digits off the text. -/
def takeDigits (least most : Nat) (s : List Char) : Option (Nat × List Char) :=
  let digits := (s.take most).takeWhile isDigit
  if digits.length < least then none else some (ofDigits digits, s.drop digits.length)

def takeChar (c : Char) : List Char → Option (List Char)
  | x :: rest => if x = c then some rest else none
  | [] => none

def takeTimeMark : List Char → Option (List Char)
  | 'T' :: rest => some rest
  | 't' :: rest => some rest
  | ' ' :: rest => some rest
  | _ => none

/-- Takes an optional fraction of a second off the text, as nanoseconds. Digits past the ninth are
cut off. -/
def takeFraction : List Char → Option (Nat × List Char)
  | '.' :: rest => do
    let (value, after) ← takeDigits 1 9 rest
    let width := rest.length - after.length
    some (value * 10 ^ (9 - width), after.dropWhile isDigit)
  | s => some (0, s)

/-- The sign of an offset; besides the hyphen the minus sign proper is allowed. -/
def takeOffsetSign : List Char → Option (Bool × List Char)
  | '+' :: rest => some (false, rest)
  | '-' :: rest => some (true, rest)
  | '\u2212' :: rest => some (true, rest)
  | _ => none

/-- Takes an offset from universal time off the text, in seconds. -/
def takeOffset : List Char → Option (Int × List Char)
  | 'Z' :: rest => some (0, rest)
  | 'z' :: rest => some (0, rest)
  | s => do
    let (negative, rest) ← takeOffsetSign s
    let (hours, rest) ← takeDigits 2 2 rest
    let rest ← takeChar ':' rest
    let (minutes, rest) ← takeDigits 2 2 rest
    if 59 < minutes || 23 < hours then none
    else
      let seconds : Int := hours * 3600 + minutes * 60
      some (if negative then -seconds else seconds, rest)

/-- A number of the lenient date form, after optional blanks. -/
def takeField (s : List Char) : Option (Nat × List Char) :=
  takeDigits 1 2 (s.dropWhile Text.isBlank)

/-- The year of the lenient date form. Without a sign it has at most four digits. -/
def takeYear (s : List Char) : Option (Int × List Char) :=
  match s.dropWhile Text.isBlank with
  | '-' :: rest => (takeDigits 1 rest.length rest).map fun (n, rest) => (-(n : Int), rest)
  | '+' :: rest => (takeDigits 1 rest.length rest).map fun (n, rest) => ((n : Int), rest)
  | rest => (takeDigits 1 4 rest).map fun (n, rest) => ((n : Int), rest)

end Calendar

open Calendar

/-- A day written as year, month and day, with nothing after it. -/
def Date.ofText? (s : List Char) : Option Date := do
  let (year, s) ← takeYear s
  let s ← takeChar '-' s
  let (month, s) ← takeField s
  let s ← takeChar '-' s
  let (day, s) ← takeField s
  if s.isEmpty then Date.ofParts? year month day else none

/-- An instant written as date, time of day and offset, with nothing after it. The second 60 is a
leap second. -/
def Instant.ofText? (s : List Char) : Option Instant := do
  let (year, s) ← takeDigits 4 4 s
  let s ← takeChar '-' s
  let (month, s) ← takeDigits 2 2 s
  let s ← takeChar '-' s
  let (day, s) ← takeDigits 2 2 s
  let s ← takeTimeMark s
  let (hour, s) ← takeDigits 2 2 s
  let s ← takeChar ':' s
  let (minute, s) ← takeDigits 2 2 s
  let s ← takeChar ':' s
  let (second, s) ← takeDigits 2 2 s
  let (nanos, s) ← takeFraction s
  let (offset, s) ← takeOffset s
  let date ← Date.ofParts? year month day
  if !s.isEmpty || 23 < hour || 59 < minute || 60 < second then none
  else
    let (second, leap) := if second = 60 then (59, 1000000000) else (second, 0)
    let wall : Int := date.dayNumber * secondsPerDay + (hour * 3600 + minute * 60 + second : Nat)
    Instant.ofParts? (wall - offset) (nanos + leap)

end IndexQuery
