set_option autoImplicit false

/-! # Binary floating-point formats, in whole numbers

A binary format has finitely many non-negative numbers. In increasing order they are numbered
0, 1, 2, …; this number, the *ordinal*, is also the bit pattern without its sign, and the ordinal
after the largest finite number stands for infinity. All finite numbers of a format are multiples
of the smallest positive one, the *unit* `2 ^ -scale`; `units` gives the multiple. With the two,
order is the order of ordinals, values are whole numbers of units, and rounding is one integer
division: `nearest` finds the ordinal closest to any ratio, a tie going to the even ordinal. -/

namespace IndexQuery

-- A power of whole numbers means the core operation, also where an algebra library offers another.
attribute [instance (20000), default_instance 20000] instPowNat

/-- A binary interchange format, by the widths of its two fields below the sign bit. -/
structure BinaryFormat where
  fractionBits : Nat
  exponentBits : Nat

namespace BinaryFormat

/-- Double precision. -/
def binary64 : BinaryFormat := ⟨52, 11⟩

/-- Single precision. -/
def binary32 : BinaryFormat := ⟨23, 8⟩

variable (f : BinaryFormat)

/-- The unit is `2 ^ -scale`; so one is `2 ^ scale` units. -/
def scale : Nat := 2 ^ (f.exponentBits - 1) - 2 + f.fractionBits

/-- The ordinal of infinity. Larger bit patterns are not numbers. -/
def infinity : Nat := (2 ^ f.exponentBits - 1) * 2 ^ f.fractionBits

def signWeight : Nat := 2 ^ (f.fractionBits + f.exponentBits)

/-- The value of an ordinal in units. Up to the first `2 ^ fractionBits` ordinals the numbers are
evenly spaced; from there on the spacing doubles every `2 ^ fractionBits` ordinals. -/
def units (ordinal : Nat) : Nat :=
  if ordinal < 2 ^ f.fractionBits then ordinal
  else (2 ^ f.fractionBits + ordinal % 2 ^ f.fractionBits)
    * 2 ^ (ordinal / 2 ^ f.fractionBits - 1)

/-- The ordinal nearest to `num / den` units, with ties to the even ordinal. A ratio beyond the
largest finite number by half a step or more gives infinity. -/
def nearest (num den : Nat) : Nat :=
  let shift := Nat.log2 (num / den) - f.fractionBits
  let step := den * 2 ^ shift
  let below := num / step
  let rest := num % step
  let rounded :=
    if step < 2 * rest ∨ (2 * rest = step ∧ below % 2 = 1) then below + 1 else below
  min (shift * 2 ^ f.fractionBits + rounded) f.infinity

/-- The ordinal nearest to `significand · 10 ^ exponent`. The powers of ten are only formed when
the result is neither certainly zero nor certainly infinite. -/
def nearestDecimal (significand : Nat) (exponent : Int) : Nat :=
  if significand = 0 then 0
  else
    let magnitude := ((Nat.toDigits 10 significand).length : Int) + exponent
    if 400 < magnitude then f.infinity
    else if magnitude < -400 then 0
    else if 0 ≤ exponent then f.nearest (significand * 10 ^ exponent.toNat * 2 ^ f.scale) 1
    else f.nearest (significand * 2 ^ f.scale) (10 ^ (-exponent).toNat)

end BinaryFormat

end IndexQuery
