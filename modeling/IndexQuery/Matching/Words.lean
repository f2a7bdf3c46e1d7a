import IndexQuery.Literal
import IndexQuery.Text.Blank
import IndexQuery.Text.Lowercase
set_option autoImplicit false

/-! # Texts as words

A stored text is matched word by word: a word is a maximal run of letters, digits and underscores,
in lower case. `textMatches` compares the words of a pattern with the words of a text in each of
the modes; `editDistance` is the number of edits between two words. -/

namespace IndexQuery.Matching

/-! ## Words -/

def isWordChar (c : Char) : Bool := Text.isAlphanumeric c || c == '_'

/-- The words of a text, in lower case. -/
def words (s : List Char) : List (List Char) :=
  (Text.pieces (!isWordChar ·) s).map Text.lowercase

/-! ## Edits -/

/-- The next row of the table of distances. The row holds the distances of the prefixes of `right`
from one prefix of the left word, which grows by `c`; `before` is the entry to the left. -/
def nextRow (c : Char) : Nat → List Char → List Nat → List Nat
  | before, r :: right, diagonal :: above :: row =>
    let here := min (diagonal + if c = r then 0 else 1) (min (above + 1) (before + 1))
    here :: nextRow c here right (above :: row)
  | _, _, _ => []

/-- The last row of the table of distances. -/
def lastRow (right : List Char) : List Char → List Nat → List Nat
  | [], row => row
  | c :: left, row =>
    let first := row.headD 0 + 1
    lastRow right left (first :: nextRow c first right row)

/-- The least number of insertions, deletions and substitutions that turn one word into the
other. -/
def editDistance (left right : List Char) : Nat :=
  (lastRow right left (List.range (right.length + 1))).getLastD 0

/-! ## Patterns -/

/-- Whether a list occurs in another in order and without gaps. -/
def hasRun {α : Type} [BEq α] (run : List α) : List α → Bool
  | [] => run.isEmpty
  | x :: rest => run.isPrefixOf (x :: rest) || hasRun run rest

/-- Every wanted word but the last is a word of the text, and the last one starts a word. -/
def meetsStarts (text : List (List Char)) : List (List Char) → Bool
  | [] => true
  | [w] => text.any (w.isPrefixOf ·)
  | w :: rest => text.contains w && meetsStarts text rest

/-- The first wanted word ends a word of the text, and the others are words of the text. -/
def meetsEnds (text : List (List Char)) : List (List Char) → Bool
  | [] => true
  | w :: rest => text.any (w.isSuffixOf ·) && rest.all text.contains

/-- Whether a pattern matches a text. A pattern without words matches every text, but a phrase
without words matches none. -/
def textMatches (mode : TextMode) (pattern text : List Char) : Bool :=
  let wanted := words pattern
  let present := words text
  if wanted.isEmpty then mode != .exact
  else match mode with
    | .exact => hasRun wanted present
    | .starts => meetsStarts present wanted
    | .ends => meetsEnds present wanted
    | .contains => wanted.all fun w => present.any (hasRun w ·)
    | .fuzzy => wanted.all fun w => present.any fun p => editDistance p w ≤ 1

end IndexQuery.Matching
