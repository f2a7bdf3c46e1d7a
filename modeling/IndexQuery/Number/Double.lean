import IndexQuery.Number.Binary
set_option autoImplicit false

/-! # Double-precision numbers

A `Double` is a 64-bit pattern. Its order and its arithmetic are defined on whole numbers through
the ordinals and units of `BinaryFormat.binary64`: every operation computes the exact result and
rounds it once. `rank` maps the numbers to integers so that the order of numbers is the order of
ranks; the two zeros share the rank 0, and what is not a number has no place in the order. -/

namespace IndexQuery

/-- A double-precision floating-point number, by its bit pattern. -/
structure Double where
  /-- the sign bit, the exponent field and the fraction field -/
  bits : UInt64
deriving DecidableEq, Inhabited, Repr

namespace Double

open BinaryFormat (binary64)

/-! ## Parts of a pattern -/

/-- Whether the sign bit is set. -/
def negative (x : Double) : Bool := binary64.signWeight ≤ x.bits.toNat

/-- The pattern without its sign. -/
def ordinal (x : Double) : Nat := x.bits.toNat % binary64.signWeight

/-- The number with the given sign and ordinal. -/
def ofOrdinal (negative : Bool) (ordinal : Nat) : Double :=
  ⟨UInt64.ofNat (ordinal + if negative then binary64.signWeight else 0)⟩

/-- The pattern that stands for the result of an undefined operation. -/
def nan : Double := ofOrdinal false (binary64.infinity + 2 ^ 51)

def infinite (negative : Bool) : Double := ofOrdinal negative binary64.infinity

def zero (negative : Bool) : Double := ofOrdinal negative 0

/-- Whether the pattern is not a number. -/
def isNaN (x : Double) : Bool := binary64.infinity < x.ordinal

def isInfinite (x : Double) : Bool := x.ordinal == binary64.infinity

def isFinite (x : Double) : Bool := x.ordinal < binary64.infinity

def isZero (x : Double) : Bool := x.ordinal == 0

/-- The magnitude of a finite number in units. -/
def units (x : Double) : Nat := binary64.units x.ordinal

/-- A finite number in units, with its sign. -/
def signedUnits (x : Double) : Int := if x.negative then -(x.units : Int) else x.units

/-! ## Order -/

/-- The place of a number in the order. -/
def rank (x : Double) : Int := if x.negative then -(x.ordinal : Int) else x.ordinal

/-- Numeric equality: the zeros are equal, and nothing equals what is not a number. -/
def eq (a b : Double) : Bool := !a.isNaN && !b.isNaN && a.rank == b.rank

def lt (a b : Double) : Bool := !a.isNaN && !b.isNaN && decide (a.rank < b.rank)

def le (a b : Double) : Bool := !a.isNaN && !b.isNaN && decide (a.rank ≤ b.rank)

/-! ## Arithmetic -/

/-- The number nearest to `num / den` units. -/
def ofRatio (negative : Bool) (num den : Nat) : Double :=
  ofOrdinal negative (binary64.nearest num den)

def ofInt (n : Int) : Double := ofRatio (n < 0) (n.natAbs * 2 ^ binary64.scale) 1

/-- The number nearest to `significand · 10 ^ exponent`. -/
def ofDecimal (negative : Bool) (significand : Nat) (exponent : Int) : Double :=
  ofOrdinal negative (binary64.nearestDecimal significand exponent)

def neg (x : Double) : Double := ofOrdinal (!x.negative) x.ordinal

def abs (x : Double) : Double := ofOrdinal false x.ordinal

/-- The rounded sum. A sum of zero is positive unless both terms are negative. -/
def add (a b : Double) : Double :=
  if a.isNaN || b.isNaN then nan
  else if a.isInfinite then
    if b.isInfinite && a.negative != b.negative then nan else a
  else if b.isInfinite then b
  else
    let sum := a.signedUnits + b.signedUnits
    if sum = 0 then zero (a.negative && b.negative) else ofRatio (sum < 0) sum.natAbs 1

def sub (a b : Double) : Double := a.add b.neg

def mul (a b : Double) : Double :=
  let sign := a.negative != b.negative
  if a.isNaN || b.isNaN then nan
  else if a.isInfinite || b.isInfinite then
    if a.isZero || b.isZero then nan else infinite sign
  else ofRatio sign (a.units * b.units) (2 ^ binary64.scale)

def div (a b : Double) : Double :=
  let sign := a.negative != b.negative
  if a.isNaN || b.isNaN then nan
  else if a.isInfinite then
    if b.isInfinite then nan else infinite sign
  else if b.isInfinite then zero sign
  else if b.isZero then
    if a.isZero then nan else infinite sign
  else ofRatio sign (a.units * 2 ^ binary64.scale) b.units

/-- The whole part of the square root, one binary digit pair at a time; `fuel` bounds the number
of pairs. -/
def rootFloor : Nat → Nat → Nat
  | 0, _ => 0
  | fuel + 1, n =>
    if n = 0 then 0
    else
      let r := 2 * rootFloor fuel (n / 4)
      if (r + 1) * (r + 1) ≤ n then r + 1 else r

/-- The rounded square root. The exact root lies strictly between two neighbouring whole numbers
of units or is one of them, and half-way between them rounds as it does. -/
def sqrt (x : Double) : Double :=
  if x.isNaN || x.isZero then x
  else if x.negative then nan
  else if x.isInfinite then x
  else
    let square := x.units * 2 ^ binary64.scale
    let root := rootFloor (Nat.log2 square + 1) square
    ofRatio false (2 * root + if root * root = square then 0 else 1) 2

/-- The nearest whole number, with ties away from zero. -/
def round (x : Double) : Double :=
  if x.isFinite then
    let one := 2 ^ binary64.scale
    ofRatio x.negative ((2 * x.units + one) / (2 * one) * one) 1
  else x

def isWhole (x : Double) : Bool := x.isFinite && x.units % 2 ^ binary64.scale == 0

/-- The whole part of the magnitude of a finite number. -/
def wholePart (x : Double) : Nat := x.units / 2 ^ binary64.scale

def sum (xs : List Double) : Double := xs.foldl add (zero false)

/-! ## Machine numbers -/

/-- The machine number with the same pattern. -/
def toFloat (x : Double) : Float := Float.ofBits x.bits

def ofFloat (x : Float) : Double := ⟨x.toBits⟩

end Double

end IndexQuery
