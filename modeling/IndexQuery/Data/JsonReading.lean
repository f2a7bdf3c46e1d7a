import IndexQuery.Data.Datum
import IndexQuery.Number.Reading
set_option autoImplicit false

/-! # Reading JSON

`Datum.ofJson?` reads one JSON text. Records come out with their keys in increasing order; of
entries with the same key the last one counts. Lists and records may be nested 127 deep.

Whole numbers of the 64-bit ranges stay whole. Every other number is read into a 64-bit
significand, digits that no longer fit being cut off, which is then scaled by a power of ten in
double precision; the result is near the written number but need not be the nearest double. A
number too large for double precision is no number. -/

namespace IndexQuery

namespace JsonReading

open Number (isDigit digitValue ofDigits)

/-! ## Blanks -/

def isSpace (c : Char) : Bool := c == ' ' || c == '\n' || c == '\t' || c == '\r'

/-- The text from its first character that is not white space. -/
def skip (s : List Char) : List Char := s.dropWhile isSpace

/-! ## Texts -/

def hexValue? (c : Char) : Option Nat :=
  if isDigit c then some (digitValue c)
  else if 'a' ≤ c && c ≤ 'f' then some (c.toNat - 87)
  else if 'A' ≤ c && c ≤ 'F' then some (c.toNat - 55)
  else none

def takeHex : Nat → Nat → List Char → Option (Nat × List Char)
  | 0, value, s => some (value, s)
  | n + 1, value, c :: rest => (hexValue? c).bind fun d => takeHex n (16 * value + d) rest
  | _ + 1, _, [] => none

/-- A character escape of one letter. -/
def shortEscape? : Char → Option Char
  | '"' => some '"'
  | '\\' => some '\\'
  | '/' => some '/'
  | 'b' => some (Char.ofNat 8)
  | 'f' => some (Char.ofNat 12)
  | 'n' => some '\n'
  | 'r' => some '\r'
  | 't' => some '\t'
  | _ => none

/-- Takes the character of a numeric escape off the text. A character outside the basic plane is
written as two surrogates; a surrogate alone is refused. -/
def takeEscapedCode (s : List Char) : Option (Char × List Char) := do
  let (code, rest) ← takeHex 4 0 s
  if 0xDC00 ≤ code && code ≤ 0xDFFF then none
  else if 0xD800 ≤ code && code ≤ 0xDBFF then
    match rest with
    | '\\' :: 'u' :: rest => do
      let (low, rest) ← takeHex 4 0 rest
      if 0xDC00 ≤ low && low ≤ 0xDFFF then
        some (Char.ofNat (0x10000 + (code - 0xD800) * 0x400 + (low - 0xDC00)), rest)
      else none
    | _ => none
  else some (Char.ofNat code, rest)

/-- Takes the rest of a quoted text, with its closing mark. -/
def takeQuoted : Nat → List Char → Option (List Char × List Char)
  | 0, _ => none
  | _ + 1, [] => none
  | _ + 1, '"' :: rest => some ([], rest)
  | fuel + 1, '\\' :: 'u' :: rest => do
    let (c, rest) ← takeEscapedCode rest
    let (cs, rest) ← takeQuoted fuel rest
    some (c :: cs, rest)
  | fuel + 1, '\\' :: e :: rest => do
    let c ← shortEscape? e
    let (cs, rest) ← takeQuoted fuel rest
    some (c :: cs, rest)
  | fuel + 1, c :: rest =>
    if c.toNat < 32 || c = '\\' then none
    else (takeQuoted fuel rest).map fun (cs, rest) => (c :: cs, rest)

/-! ## Numbers -/

/-- Appends digits to a significand for as long as it stays below `2 ^ 64`; the digits left over
are returned. -/
def absorb : Nat → List Char → Nat × List Char
  | significand, [] => (significand, [])
  | significand, c :: rest =>
    if 10 * significand + digitValue c < 2 ^ 64 then absorb (10 * significand + digitValue c) rest
    else (significand, c :: rest)

/-- Scales a number by a power of ten, at most 308 places at a time. -/
def scaleByTen : Nat → Double → Int → Option Double
  | 0, x, _ => some x
  | fuel + 1, x, exponent =>
    if -308 ≤ exponent && exponent ≤ 308 then
      if 0 ≤ exponent then
        let y := x.mul (Double.ofDecimal false 1 exponent)
        if y.isInfinite then none else some y
      else some (x.div (Double.ofDecimal false 1 (-exponent)))
    else if x.isZero then some x
    else if 0 ≤ exponent then none
    else scaleByTen fuel (x.div (Double.ofDecimal false 1 308)) (exponent + 308)

def floatOf? (negative : Bool) (significand : Nat) (exponent : Int) : Option Double :=
  (scaleByTen 4 (Double.ofInt significand) exponent).map fun x => if negative then x.neg else x

/-- Takes an exponent part off the text, with its sign and digits; there may be none. -/
def takeExponent (s : List Char) : Option (Option (Bool × Nat) × List Char) :=
  match s with
  | c :: rest =>
    if c = 'e' || c = 'E' then
      let (negative, rest) := Number.takeSign rest
      let digits := rest.takeWhile isDigit
      if digits.isEmpty then none
      else some (some (negative, ofDigits digits), rest.dropWhile isDigit)
    else some (none, s)
  | [] => some (none, [])

/-- Takes a fractional part off the text; there may be none. -/
def takeFraction (s : List Char) : Option (Option (List Char) × List Char) :=
  match s with
  | '.' :: rest =>
    let digits := rest.takeWhile isDigit
    if digits.isEmpty then none else some (some digits, rest.dropWhile isDigit)
  | _ => some (none, s)

/-- A number written with a fractional part, an exponent, or too many digits for a whole one. -/
def floatNumber? (negative : Bool) (whole fraction : List Char) (exponent : Option (Bool × Nat)) :
    Option Double :=
  let (significand, dropped) := absorb 0 whole
  let (significand, unread) := absorb significand fraction
  let start : Int := (dropped.length : Int) - (fraction.length - unread.length : Nat)
  match exponent with
  | none => floatOf? negative significand start
  | some (down, power) =>
    if 2 ^ 31 ≤ power then
      if significand ≠ 0 && !down then none else some (Double.zero negative)
    else floatOf? negative significand (if down then start - power else start + power)

/-- A whole number, in double precision where the 64-bit ranges end and for minus zero. -/
def wholeNumber? (negative : Bool) (n : Nat) (digits : List Char) : Option Datum :=
  if !negative && n < 2 ^ 64 then some (.int n)
  else if negative && n ≠ 0 && n ≤ 2 ^ 63 then some (.int (-n))
  else if n < 2 ^ 64 then
    some (.float (if negative then (Double.ofInt n).neg else Double.ofInt n))
  else (floatNumber? negative digits [] none).map .float

def takeNumber (s : List Char) : Option (Datum × List Char) := do
  let (negative, s) := match s with
    | '-' :: rest => (true, rest)
    | _ => (false, s)
  let digits := s.takeWhile isDigit
  if digits.isEmpty || (digits.head? == some '0' && digits.length ≠ 1) then none
  else do
    let (fraction, rest) ← takeFraction (s.dropWhile isDigit)
    let (exponent, rest) ← takeExponent rest
    match fraction, exponent with
    | none, none => (wholeNumber? negative (ofDigits digits) digits).map (·, rest)
    | _, _ => (floatNumber? negative digits (fraction.getD []) exponent).map (.float ·, rest)

/-! ## Records -/

/-- Puts an entry at its place among entries with increasing keys, over an entry with its key. -/
def putEntry (key : String) (value : Datum) : List (String × Datum) → List (String × Datum)
  | [] => [(key, value)]
  | (k, v) :: rest =>
    if key < k then (key, value) :: (k, v) :: rest
    else if key = k then (key, value) :: rest
    else (k, v) :: putEntry key value rest

/-! ## Values -/

mutual

/-- Takes a value off the text. Each step spends fuel; `depth` bounds the nesting. -/
def takeValue : Nat → Nat → List Char → Option (Datum × List Char)
  | 0, _, _ => none
  | fuel + 1, depth, s =>
    match skip s with
    | 'n' :: 'u' :: 'l' :: 'l' :: rest => some (.null, rest)
    | 't' :: 'r' :: 'u' :: 'e' :: rest => some (.bool true, rest)
    | 'f' :: 'a' :: 'l' :: 's' :: 'e' :: rest => some (.bool false, rest)
    | '"' :: rest =>
      (takeQuoted (rest.length + 1) rest).map fun (cs, rest) => (.text (String.ofList cs), rest)
    | '[' :: rest =>
      match depth with
      | 0 => none
      | depth + 1 =>
        match skip rest with
        | ']' :: rest => some (.list [], rest)
        | _ => (takeItems fuel depth rest).map fun (items, rest) => (.list items, rest)
    | '\x7b' :: rest =>
      match depth with
      | 0 => none
      | depth + 1 =>
        match skip rest with
        | '\x7d' :: rest => some (.record [], rest)
        | _ => (takeEntries fuel depth [] rest).map fun (entries, rest) => (.record entries, rest)
    | s => takeNumber s

/-- Takes the items of a list off the text, with the closing bracket. -/
def takeItems : Nat → Nat → List Char → Option (List Datum × List Char)
  | 0, _, _ => none
  | fuel + 1, depth, s => do
    let (item, rest) ← takeValue fuel depth s
    match skip rest with
    | ',' :: rest => do
      let (items, rest) ← takeItems fuel depth rest
      some (item :: items, rest)
    | ']' :: rest => some ([item], rest)
    | _ => none

def takeEntries : Nat → Nat → List (String × Datum) → List Char →
    Option (List (String × Datum) × List Char)
  | 0, _, _, _ => none
  | fuel + 1, depth, entries, s => do
    match skip s with
    | '"' :: rest => do
      let (key, rest) ← takeQuoted (rest.length + 1) rest
      match skip rest with
      | ':' :: rest => do
        let (value, rest) ← takeValue fuel depth rest
        let entries := putEntry (String.ofList key) value entries
        match skip rest with
        | ',' :: rest => takeEntries fuel depth entries rest
        | '\x7d' :: rest => some (entries, rest)
        | _ => none
      | _ => none
    | _ => none

end

end JsonReading

/-- The datum of a JSON text, with nothing but white space around it. -/
def Datum.ofJson? (s : List Char) : Option Datum := do
  let (d, rest) ← JsonReading.takeValue (2 * s.length + 2) 127 s
  if (JsonReading.skip rest).isEmpty then some d else none

end IndexQuery
