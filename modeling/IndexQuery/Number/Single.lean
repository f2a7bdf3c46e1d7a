import IndexQuery.Number.Double
set_option autoImplicit false

/-! # Single-precision numbers

The components of vectors are single-precision numbers. Nothing is computed with them: they are
compared, written as bytes, and widened to double precision, which loses nothing. -/

namespace IndexQuery

/-- A single-precision floating-point number, by its bit pattern. -/
structure Single where
  /-- the sign bit, the exponent field and the fraction field -/
  bits : UInt32
deriving DecidableEq, Inhabited, Repr

namespace Single

open BinaryFormat (binary32 binary64)

def negative (x : Single) : Bool := binary32.signWeight ≤ x.bits.toNat

def ordinal (x : Single) : Nat := x.bits.toNat % binary32.signWeight

def ofOrdinal (negative : Bool) (ordinal : Nat) : Single :=
  ⟨UInt32.ofNat (ordinal + if negative then binary32.signWeight else 0)⟩

def isNaN (x : Single) : Bool := binary32.infinity < x.ordinal

def isFinite (x : Single) : Bool := x.ordinal < binary32.infinity

def rank (x : Single) : Int := if x.negative then -(x.ordinal : Int) else x.ordinal

def eq (a b : Single) : Bool := !a.isNaN && !b.isNaN && a.rank == b.rank

/-- The same number in double precision. A pattern that is not a number keeps its sign and its
fraction field. -/
def toDouble (x : Single) : Double :=
  if x.isFinite then
    Double.ofRatio x.negative
      (binary32.units x.ordinal * 2 ^ (binary64.scale - binary32.scale)) 1
  else
    Double.ofOrdinal x.negative
      (binary64.infinity + (x.ordinal - binary32.infinity) * 2 ^ (52 - 23))

def ofDecimal (negative : Bool) (significand : Nat) (exponent : Int) : Single :=
  ofOrdinal negative (binary32.nearestDecimal significand exponent)

end Single

end IndexQuery
