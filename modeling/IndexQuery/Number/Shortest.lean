import IndexQuery.Number.Binary
set_option autoImplicit false

/-! # The shortest decimal that reads back

Every positive finite number of a binary format is the nearest number to a whole interval of
reals: the points closer to it than to its neighbours, with the ends when its ordinal is even.
`shortest` gives a decimal `digits · 10 ^ exponent` of that interval with as few digits as
possible, and of those the nearest to the number. It looks at the decimal grids from coarse to
fine; on each grid only the two points around the number can be the answer. -/

namespace IndexQuery

/-- A decimal magnitude `digits · 10 ^ exponent`. -/
structure DecimalMagnitude where
  /-- the digits, read as one whole number -/
  digits : Nat
  /-- the power of ten of the last digit -/
  exponent : Int
deriving DecidableEq, Repr

/-- How an exact tie between two decimals of equal length is broken. -/
inductive TieBreak where
  | up
  | even
deriving DecidableEq, Repr

namespace BinaryFormat

variable (f : BinaryFormat)

/-- An upper bound for the decimal exponent of a number of `2 ^ bits` or fewer: `log₁₀ 2` is a
little less than 0.30103. -/
def decimalBound (bits : Int) : Int := bits * 30103 / 100000 + 1

/-- The better of the two points of the grid `10 ^ exponent` around the number, if one of them
reads back as the number. All lengths are counted in halves of `10 ^ exponent / den` units. -/
def gridPoint (tie : TieBreak) (ordinal : Nat) (exponent : Int) : Option Nat :=
  let up := 10 ^ (-exponent).toNat
  let den := 2 ^ f.scale * 10 ^ exponent.toNat
  let value := 2 * f.units ordinal * up
  let low := (f.units (ordinal - 1) + f.units ordinal) * up
  let high := (f.units ordinal + f.units (ordinal + 1)) * up
  let step := 2 * den
  let below := value / step
  let reads (d : Nat) : Bool :=
    if ordinal % 2 = 0 then low ≤ d * step && d * step ≤ high
    else low < d * step && d * step < high
  let gap := value - below * step
  let preferAbove : Bool :=
    step < 2 * gap || (2 * gap == step && (tie == .up || below % 2 == 1))
  match reads below, reads (below + 1) with
  | true, true => some (if preferAbove then below + 1 else below)
  | true, false => some below
  | false, true => some (below + 1)
  | false, false => none

/-- The first grid with a point that reads back, from `exponent` downwards. -/
def searchGrids (tie : TieBreak) (ordinal : Nat) : Nat → Int → Option DecimalMagnitude
  | 0, _ => none
  | fuel + 1, exponent =>
    match f.gridPoint tie ordinal exponent with
    | some digits => some ⟨digits, exponent⟩
    | none => searchGrids tie ordinal fuel (exponent - 1)

/-- The shortest decimal that reads back as the given positive finite ordinal. Seventeen digits
always suffice in double precision; the exact value stands behind the search. -/
def shortest (tie : TieBreak) (ordinal : Nat) : DecimalMagnitude :=
  let top := decimalBound ((Nat.log2 (f.units ordinal) : Int) + 1 - f.scale)
  (f.searchGrids tie ordinal 24 top).getD ⟨f.units ordinal * 5 ^ f.scale, -(f.scale : Int)⟩

end BinaryFormat

end IndexQuery
