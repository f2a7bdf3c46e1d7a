import IndexQuery.Number.Single
set_option autoImplicit false

/-! # Reading numbers

The accepted forms are an optional sign with decimal digits for whole numbers, and for
floating-point numbers also a fractional part, an exponent, and the words `inf`, `infinity` and
`nan` in any case. No blanks and no digit separators are allowed; only the ten basic Latin digits
count. A floating-point text denotes the nearest number. -/

namespace IndexQuery

namespace Number

/-! ## Digits and signs -/

def isDigit (c : Char) : Bool := '0' ≤ c && c ≤ '9'

def digitValue (c : Char) : Nat := c.toNat - '0'.toNat

def ofDigits (ds : List Char) : Nat := ds.foldl (fun n c => 10 * n + digitValue c) 0

/-- Takes a leading sign off a text; the Boolean tells whether it is a minus. -/
def takeSign : List Char → Bool × List Char
  | '-' :: rest => (true, rest)
  | '+' :: rest => (false, rest)
  | s => (false, s)

/-- A non-empty list of digits as a number. -/
def digits? (s : List Char) : Option Nat :=
  if !s.isEmpty && s.all isDigit then some (ofDigits s) else none

/-! ## Whole numbers -/

/-- An optionally signed whole number. -/
def whole? (s : List Char) : Option Int :=
  let (negative, rest) := takeSign s
  (digits? rest).map fun n => if negative then -(n : Int) else n

/-- A whole number of the signed 64-bit range. -/
def int64? (s : List Char) : Option Int :=
  (whole? s).filter fun n => -2 ^ 63 ≤ n && n < 2 ^ 63

/-- A whole number of the unsigned 64-bit range; a plus sign is allowed. -/
def nat64? (s : List Char) : Option Nat :=
  let rest := match s with
    | '+' :: rest => rest
    | _ => s
  (digits? rest).filter (· < 2 ^ 64)

/-! ## Floating-point numbers -/

/-- What a floating-point text says, before it is rounded to a format. -/
inductive FloatText where
  | decimal (significand : Nat) (exponent : Int)
  | infinity
  | nan

/-- The exponent part of a floating-point text; an absent one is zero. -/
def exponent? : List Char → Option Int
  | [] => some 0
  | 'e' :: rest => whole? rest
  | 'E' :: rest => whole? rest
  | _ => none

/-- An unsigned floating-point text. Digits may be missing on one side of the point. -/
def floatText? (s : List Char) : Option FloatText :=
  let whole := s.takeWhile isDigit
  let afterWhole := s.dropWhile isDigit
  let (fraction, rest) := match afterWhole with
    | '.' :: tail => (tail.takeWhile isDigit, tail.dropWhile isDigit)
    | _ => ([], afterWhole)
  if whole.isEmpty && fraction.isEmpty then
    match s.map Char.toLower with
    | ['i', 'n', 'f'] => some .infinity
    | ['i', 'n', 'f', 'i', 'n', 'i', 't', 'y'] => some .infinity
    | ['n', 'a', 'n'] => some .nan
    | _ => none
  else
    (exponent? rest).map fun e => .decimal (ofDigits (whole ++ fraction)) (e - fraction.length)

end Number

/-- The double nearest to what the text says. -/
def Double.ofText? (s : List Char) : Option Double :=
  let (negative, rest) := Number.takeSign s
  (Number.floatText? rest).map fun
    | .decimal significand exponent => ofDecimal negative significand exponent
    | .infinity => infinite negative
    | .nan => if negative then nan.neg else nan

def Single.ofText? (s : List Char) : Option Single :=
  let (negative, rest) := Number.takeSign s
  (Number.floatText? rest).map fun
    | .decimal significand exponent => ofDecimal negative significand exponent
    | .infinity => ofOrdinal negative BinaryFormat.binary32.infinity
    | .nan => ofOrdinal negative (BinaryFormat.binary32.infinity + 2 ^ 22)

end IndexQuery
