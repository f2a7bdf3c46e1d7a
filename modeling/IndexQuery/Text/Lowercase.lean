import IndexQuery.Text.AlphanumericTable
import IndexQuery.Text.CaseTable
set_option autoImplicit false

/-! # Letters and lower case

`isAlphanumeric` is the class of characters that carry a word: the property `Alphabetic` or a
general category of numbers. Basic Latin is decided directly, everything else by the table.

`lowercase` is the full Unicode lower-case mapping without language tailoring. It works character
by character with two exceptions: a capital I with a dot becomes two characters, and a capital
sigma becomes the final form `ς` at the end of a word. What ends a word is decided by the
neighbours of the sigma, so lower-casing a part of a text may differ from the part of the
lower-cased text. -/

namespace IndexQuery.Text

/-! ## One character -/

/-- Membership of a code point in a list of inclusive ranges. -/
def inRanges (ranges : List (Nat × Nat)) (n : Nat) : Bool :=
  ranges.any fun (first, last) => first ≤ n && n ≤ last

/-- A letter or a digit of any script. -/
def isAlphanumeric (c : Char) : Bool :=
  if c.toNat < 128 then c.isAlphanum else inRanges alphanumericRanges c.toNat

def CaseRun.covers (run : CaseRun) (n : Nat) : Bool :=
  run.first ≤ n && n ≤ run.last && (n - run.first) % run.step == 0

/-- The lower-case form of one character, the context of a sigma left aside. -/
def lowerChar (c : Char) : List Char :=
  if c.toNat < 128 then [c.toLower]
  else if c.toNat = 0x130 then ['i', Char.ofNat 0x307]
  else match lowerRuns.find? (·.covers c.toNat) with
    | some run => [Char.ofNat ((c.toNat : Int) + run.shift).toNat]
    | none => [c]

/-! ## The final sigma -/

/-- The property `Cased`. -/
def isCased (c : Char) : Bool := inRanges casedRanges c.toNat

/-- The property `Case_Ignorable`. -/
def isCaseIgnorable (c : Char) : Bool := inRanges caseIgnorableRanges c.toNat

/-- Whether the first character that is not case-ignorable is cased. -/
def startsCased (s : List Char) : Bool :=
  match s.dropWhile isCaseIgnorable with
  | [] => false
  | c :: _ => isCased c

/-- The lower-case mapping of `s` where `before` holds the characters in front of `s`, the nearest
first. A capital sigma is final when a cased letter comes before it and none comes after it. -/
def lowercaseAfter : List Char → List Char → List Char
  | _, [] => []
  | before, c :: rest =>
    (if c.toNat = 0x3A3 then
      [Char.ofNat (if startsCased before && !startsCased rest then 0x3C2 else 0x3C3)]
     else lowerChar c) ++ lowercaseAfter (c :: before) rest

def lowercase (s : List Char) : List Char := lowercaseAfter [] s

end IndexQuery.Text
