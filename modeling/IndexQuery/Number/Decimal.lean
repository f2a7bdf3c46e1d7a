import IndexQuery.Number.Reading
set_option autoImplicit false

/-! # Decimals with a fixed scale

A decimal is a whole mantissa with a number of places after the point; `1.50` and `1.5` are
different decimals of the same value. `toDouble` goes through the whole and the fractional part
separately and rounds the sum back to the decimal's own places, so its result is close to the
decimal but not always the nearest double. Without places a decimal is a whole number, which has no
negative zero. -/

namespace IndexQuery

/-- The decimal `± mantissa / 10 ^ scale`. -/
structure Decimal where
  negative : Bool
  /-- all digits, read as one whole number -/
  mantissa : Nat
  /-- the number of digits after the point -/
  scale : Nat
deriving DecidableEq, Repr

namespace Decimal

/-- The text without the underscores behind its first digit, which only part digits from each
other. -/
def dropSeparators : List Char → List Char
  | [] => []
  | c :: rest => c :: if Number.isDigit c then rest.filter (· != '_') else dropSeparators rest

/-- Reads digits with at most one point among them. The sign of a zero is dropped. -/
def ofText? (s : List Char) : Option Decimal :=
  let (negative, rest) := Number.takeSign s
  let rest := dropSeparators rest
  let whole := rest.takeWhile Number.isDigit
  let fraction? : Option (List Char) := match rest.dropWhile Number.isDigit with
    | [] => some []
    | '.' :: tail => if tail.all Number.isDigit then some tail else none
    | _ => none
  fraction?.bind fun fraction =>
    let mantissa := Number.ofDigits (whole ++ fraction)
    if (whole ++ fraction).isEmpty || 28 < fraction.length || 2 ^ 96 ≤ mantissa then none
    else some ⟨negative && mantissa != 0, mantissa, fraction.length⟩

/-- All places are written, trailing zeros included. -/
def text (d : Decimal) : List Char :=
  let whole := Nat.toDigits 10 (d.mantissa / 10 ^ d.scale)
  let fraction := Nat.toDigits 10 (d.mantissa % 10 ^ d.scale)
  (if d.negative then ['-'] else []) ++ whole ++
    if d.scale = 0 then []
    else '.' :: List.replicate (d.scale - fraction.length) '0' ++ fraction

/-- The magnitude in double precision: the whole part plus the fractional part, rounded to the
places of the decimal. -/
def magnitudeToDouble (d : Decimal) : Double :=
  let power := 10 ^ d.scale
  let whole := Double.ofInt (d.mantissa / power : Nat)
  let fraction := (Double.ofInt (d.mantissa % power : Nat)).div (Double.ofInt power)
  if fraction.isZero then whole
  else
    let places := Double.ofInt power
    (((whole.add fraction).mul places).round).div places

/-- The sign in double precision. -/
def signed (d : Decimal) : Bool := d.negative && (d.scale != 0 || d.mantissa != 0)

def toDouble (d : Decimal) : Double :=
  if d.signed then d.magnitudeToDouble.neg else d.magnitudeToDouble

end Decimal

end IndexQuery
