import IndexQuery.Data.Datum
import IndexQuery.Number.Layout
set_option autoImplicit false

/-! # Writing JSON

Two forms: `compact` has no blanks at all, `pretty` puts every item and entry on a line of its own
and indents by two blanks. In texts only the quotation mark, the backslash and the control
characters below U+0020 are escaped. -/

namespace IndexQuery

namespace JsonText

/-! ## Texts and numbers -/

def hexDigit (n : Nat) : Char := if n < 10 then Char.ofNat (48 + n) else Char.ofNat (87 + n)

/-- One character inside a quoted text. -/
def quotedChar (c : Char) : List Char :=
  if c = '"' then ['\\', '"']
  else if c = '\\' then ['\\', '\\']
  else if c.toNat = 8 then ['\\', 'b']
  else if c.toNat = 9 then ['\\', 't']
  else if c.toNat = 10 then ['\\', 'n']
  else if c.toNat = 12 then ['\\', 'f']
  else if c.toNat = 13 then ['\\', 'r']
  else if c.toNat < 32 then ['\\', 'u', '0', '0', hexDigit (c.toNat / 16), hexDigit (c.toNat % 16)]
  else [c]

def quoted (s : String) : List Char := '"' :: s.toList.flatMap quotedChar ++ ['"']

/-- A floating-point number; one that is not finite is written as the absent value. -/
def number (x : Double) : List Char :=
  if x.isFinite then NumberLayout.json.text x else ['n', 'u', 'l', 'l']

def truth (b : Bool) : List Char := if b then ['t', 'r', 'u', 'e'] else ['f', 'a', 'l', 's', 'e']

/-- A line break and the indentation of the given depth. -/
def newline (depth : Nat) : List Char := '\n' :: List.replicate (2 * depth) ' '

end JsonText

open JsonText

namespace Datum

/-! ## The compact form -/

mutual

/-- JSON text without blanks. -/
def compact : Datum → List Char
  | .null => ['n', 'u', 'l', 'l']
  | .bool b => truth b
  | .int n => (toString n).toList
  | .float x => JsonText.number x
  | .text s => quoted s
  | .list items => '[' :: compactItems items ++ [']']
  | .record entries => '\x7b' :: compactEntries entries ++ ['\x7d']

def compactItems : List Datum → List Char
  | [] => []
  | [d] => d.compact
  | d :: rest => d.compact ++ ',' :: compactItems rest

def compactEntries : List (String × Datum) → List Char
  | [] => []
  | [(key, d)] => quoted key ++ ':' :: d.compact
  | (key, d) :: rest => quoted key ++ ':' :: d.compact ++ ',' :: compactEntries rest

end

/-! ## The pretty form -/

mutual

/-- JSON text with one item or entry a line, at the given depth. -/
def prettyAt (depth : Nat) : Datum → List Char
  | .null => ['n', 'u', 'l', 'l']
  | .bool b => truth b
  | .int n => (toString n).toList
  | .float x => JsonText.number x
  | .text s => quoted s
  | .list [] => ['[', ']']
  | .list items => '[' :: prettyItems (depth + 1) items ++ newline depth ++ [']']
  | .record [] => ['\x7b', '\x7d']
  | .record entries => '\x7b' :: prettyEntries (depth + 1) entries ++ newline depth ++ ['\x7d']

def prettyItems (depth : Nat) : List Datum → List Char
  | [] => []
  | [d] => newline depth ++ d.prettyAt depth
  | d :: rest => newline depth ++ d.prettyAt depth ++ ',' :: prettyItems depth rest

def prettyEntries (depth : Nat) : List (String × Datum) → List Char
  | [] => []
  | [(key, d)] => newline depth ++ quoted key ++ ':' :: ' ' :: d.prettyAt depth
  | (key, d) :: rest =>
    newline depth ++ quoted key ++ ':' :: ' ' :: d.prettyAt depth ++ ',' :: prettyEntries depth rest

end

def pretty (d : Datum) : List Char := d.prettyAt 0

end Datum

end IndexQuery
