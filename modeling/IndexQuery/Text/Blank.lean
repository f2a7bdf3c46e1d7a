set_option autoImplicit false

/-! # White space, and cutting text at it

Texts are handled as lists of characters. A *blank* is a character with the Unicode property
`White_Space` (the property has not changed since Unicode 4.1). `trim` takes the blanks off both
ends; `splitFirst` cuts at the first occurrence of a character and keeps the rest whole; `pieces`
cuts at every character of a class and drops what is empty. -/

namespace IndexQuery.Text

/-! ## The class of blanks -/

/-- The characters with the property `White_Space`. -/
def isBlank (c : Char) : Bool :=
  (9 ≤ c.toNat && c.toNat ≤ 13) || c.toNat == 0x20 || c.toNat == 0x85 || c.toNat == 0xA0 ||
  c.toNat == 0x1680 || (0x2000 ≤ c.toNat && c.toNat ≤ 0x200A) || c.toNat == 0x2028 ||
  c.toNat == 0x2029 || c.toNat == 0x202F || c.toNat == 0x205F || c.toNat == 0x3000

/-! ## Trimming -/

def trimEnd (s : List Char) : List Char := (s.reverse.dropWhile isBlank).reverse

def trim (s : List Char) : List Char := trimEnd (s.dropWhile isBlank)

/-- A text of blanks only, the empty text included. -/
def isBlankText (s : List Char) : Bool := s.all isBlank

/-! ## Cutting -/

/-- The parts before and after the first `c`, or `none` when there is no `c`. -/
def splitFirst (c : Char) : List Char → Option (List Char × List Char)
  | [] => none
  | x :: rest =>
    if x = c then some ([], rest) else (splitFirst c rest).map fun (a, b) => (x :: a, b)

/-- The maximal non-empty runs of characters outside the class `p`, in order. -/
def pieces (p : Char → Bool) (s : List Char) : List (List Char) :=
  (s.splitOnP p).filter (!·.isEmpty)

/-! ## Letter case of the basic Latin alphabet -/

/-- Basic Latin letters in lower case; every other character as it is. -/
def lowerLatin (s : List Char) : List Char := s.map Char.toLower

/-- Equality up to the case of basic Latin letters. -/
def sameLatin (a b : List Char) : Bool := lowerLatin a == lowerLatin b

end IndexQuery.Text
