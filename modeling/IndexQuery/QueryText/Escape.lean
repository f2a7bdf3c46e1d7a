import IndexQuery.Text.Blank
import IndexQuery.Number.Layout
set_option autoImplicit false

/-! # Literals in query syntax

Characters with a meaning in the query language are escaped by a backslash; which ones these are
depends on the place: inside a tag set, inside a quoted phrase, in a field reference, or in a word
of a text pattern. A text pattern is cut into words where the index cuts texts (at white space,
hyphens and slashes), each word is escaped on its own, and the mode of the pattern decides which
words carry a marker. A pattern without words is the bare wildcard. -/

namespace IndexQuery.QueryText

/-! ## Escaping -/

/-- The text with a backslash before each character of a class. -/
def escape (special : Char → Bool) (s : List Char) : List Char :=
  s.flatMap fun c => if special c then ['\\', c] else [c]

/-- Characters with a meaning in a word of a text pattern. -/
def textSpecial : List Char :=
  ['\\', '(', ')', '|', '\'', '"', '[', ']', '\x7b', '\x7d', ':', '@', '?', '~', '&', '!', '.',
    '*', '%', ',', '<', '>', ';', '$', '=', '^', '+', '#']

/-- Characters with a meaning inside a tag set. -/
def tagSpecial : List Char := ['$', '\x7b', '\x7d', '\\', '|', '.', '-', '*']

/-- Characters of a key that would be read as syntax. -/
def keySpecial : List Char := ['.', '$']

/-- Characters with a meaning inside a quoted phrase. -/
def phraseSpecial : List Char := ['\\', '"']

def escapeTag (s : List Char) : List Char := escape tagSpecial.contains s

/-- A reference to the field with a key. -/
def fieldRef (key : List Char) : List Char := '@' :: escape keySpecial.contains key

def phrase (s : List Char) : List Char := '"' :: escape phraseSpecial.contains s ++ ['"']

/-! ## Text patterns -/

/-- Where the index cuts a text into words. -/
def isWordBreak (c : Char) : Bool := Text.isBlank c || c == '-' || c == '/'

def words (s : List Char) : List (List Char) := Text.pieces isWordBreak s

def escapedWords (s : List Char) : List (List Char) :=
  (words s).map (escape textSpecial.contains)

/-- Words joined by single blanks; none give the bare wildcard. -/
def joinWords (ws : List (List Char)) : List Char :=
  if ws.isEmpty then ['*'] else [' '].intercalate ws

/-- The words with a marker behind the last one. -/
def markLast : List (List Char) → List (List Char)
  | [] => []
  | [w] => [w ++ ['*']]
  | w :: rest => w :: markLast rest

/-- The words with a marker in front of the first one. -/
def markFirst : List (List Char) → List (List Char)
  | [] => []
  | w :: rest => ('*' :: w) :: rest

/-- Leading words are matched whole, the last one as the start of a word. -/
def startsPattern (s : List Char) : List Char := joinWords (markLast (escapedWords s))

/-- The first word is matched as the end of a word, the others whole. -/
def endsPattern (s : List Char) : List Char := joinWords (markFirst (escapedWords s))

/-- Every word is matched as a part of a word. -/
def containsPattern (s : List Char) : List Char :=
  joinWords ((escapedWords s).map fun w => '*' :: w ++ ['*'])

/-- Every word is matched up to one edit. -/
def fuzzyPattern (s : List Char) : List Char :=
  joinWords ((escapedWords s).map fun w => '%' :: w ++ ['%'])

/-! ## Numbers -/

/-- A number in a query. Infinities carry a sign, and whole numbers of up to fifteen digits are
written digit by digit. -/
def numberText (x : Double) : List Char :=
  if x.isInfinite then (if x.negative then '-' else '+') :: ['i', 'n', 'f']
  else if x.isWhole && x.wholePart < 10 ^ 15 then
    (if x.negative then ['-'] else []) ++ Nat.toDigits 10 x.wholePart
  else x.text

end IndexQuery.QueryText
