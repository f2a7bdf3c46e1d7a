import IndexQuery.Number.Double
import IndexQuery.Number.Shortest
set_option autoImplicit false

/-! # Numbers as text

A number is written with the fewest digits that read back. What remains to be decided is the
layout: where the positional form ends and the exponent form begins, and whether a whole number
shows a fractional part. These decisions are one record, `NumberLayout`. Queries and messages use
`plain`, which never writes an exponent; JSON texts use `json`. -/

namespace IndexQuery

/-- How a decimal magnitude is laid out. -/
structure NumberLayout where
  /-- Positional form is used when the decimal point stands after more than the first and at most
  the second number of digits; always, when there is no window. -/
  window : Option (Int × Int)
  /-- What is written after a whole number in positional form. -/
  wholeEnding : List Char
  /-- Which of two equally near decimals is taken. -/
  tie : TieBreak

namespace NumberLayout

/-- The layout of queries and messages: positional throughout, whole numbers without a fraction. -/
def plain : NumberLayout := ⟨none, [], .up⟩

/-- The layout of JSON texts: whole numbers end in `.0`, and magnitudes below a hundred-thousandth
or of more than sixteen digits before the point take an exponent, which always shows its sign. -/
def json : NumberLayout := ⟨some (-5, 16), ['.', '0'], .even⟩

variable (layout : NumberLayout)

/-- Positional form: the point stands after `point` of the digits. -/
def positionalForm (digits : List Char) (point : Int) : List Char :=
  if (digits.length : Int) ≤ point then
    digits ++ List.replicate (point - digits.length).toNat '0' ++ layout.wholeEnding
  else if 0 < point then
    digits.take point.toNat ++ '.' :: digits.drop point.toNat
  else '0' :: '.' :: List.replicate (-point).toNat '0' ++ digits

/-- The text of a power of ten: always signed, without leading zeros. -/
def powerText (power : Int) : List Char :=
  (if power < 0 then '-' else '+') :: Nat.toDigits 10 power.natAbs

/-- Exponent form: one digit before the point. -/
def exponentForm (digits : List Char) (point : Int) : List Char :=
  let power := powerText (point - 1)
  match digits with
  | d :: r :: rest => d :: '.' :: r :: rest ++ 'e' :: power
  | _ => digits ++ 'e' :: power

/-- The text of a positive magnitude. -/
def magnitudeText (m : DecimalMagnitude) : List Char :=
  let digits := Nat.toDigits 10 m.digits
  let point := (digits.length : Int) + m.exponent
  match layout.window with
  | none => layout.positionalForm digits point
  | some (low, high) =>
    if low < point ∧ point ≤ high then layout.positionalForm digits point
    else exponentForm digits point

/-- The text of a number. A negative zero keeps its sign. -/
def text (x : Double) : List Char :=
  if x.isNaN then ['N', 'a', 'N']
  else
    (if x.negative then ['-'] else []) ++
      if x.isInfinite then ['i', 'n', 'f']
      else if x.isZero then '0' :: layout.wholeEnding
      else layout.magnitudeText (BinaryFormat.binary64.shortest layout.tie x.ordinal)

end NumberLayout

namespace Double

/-- The text of a number in queries and messages. -/
def text (x : Double) : List Char := NumberLayout.plain.text x

instance : ToString Double := ⟨fun x => String.ofList x.text⟩

end Double

end IndexQuery
