import IndexQuery.Data.TomlTable
import IndexQuery.Calendar.Reading
import IndexQuery.Data.JsonReading
set_option autoImplicit false

/-! # Reading TOML

`Datum.ofToml?` reads a TOML 1.0 document as a record. Values may be nested 79 deep. Dates and
times carry no meaning for settings; they are checked and become a record with one reserved key. -/

namespace IndexQuery

namespace TomlReading

open Number (isDigit ofDigits)
open Calendar (takeDigits takeChar)

/-! ## Characters, blanks and lines -/

/-- A blank within a line. -/
def isSpace (c : Char) : Bool := c == ' ' || c == '\t'

/-- A character that may stand in a comment: no control character but the tabulator. -/
def isPrintable (c : Char) : Bool := c == '\t' || (0x20 ≤ c.toNat && c.toNat ≠ 0x7F)

/-- The text from its first character that is not a blank within a line. -/
def skip (s : List Char) : List Char := s.dropWhile isSpace

def takeNewline : List Char → Option (List Char)
  | '\n' :: rest => some rest
  | '\r' :: '\n' :: rest => some rest
  | _ => none

/-- The text without a comment at its start. -/
def dropComment : List Char → List Char
  | '#' :: rest => rest.dropWhile isPrintable
  | s => s

/-- The text from its first character that is not a blank, in a comment or a line break. -/
def skipLines : Nat → List Char → List Char
  | 0, s => s
  | fuel + 1, s =>
    let rest := dropComment (skip s)
    match takeNewline rest with
    | some rest => skipLines fuel rest
    | none => rest

/-- Takes the end of a line off the text: blanks, a comment, and a line break or the end. -/
def takeLineEnd (s : List Char) : Option (List Char) :=
  match dropComment (skip s) with
  | [] => some []
  | rest => takeNewline rest

/-! ## Texts -/

/-- The character of a numeric escape, unless it is a surrogate or too large. -/
def takeCode (width : Nat) (s : List Char) : Option (Char × List Char) := do
  let (code, rest) ← JsonReading.takeHex width 0 s
  if code.isValidChar then some (Char.ofNat code, rest) else none

/-- Takes an escape off the text, after its backslash. -/
def takeEscape : List Char → Option (Char × List Char)
  | 'b' :: rest => some (Char.ofNat 8, rest)
  | 't' :: rest => some ('\t', rest)
  | 'n' :: rest => some ('\n', rest)
  | 'f' :: rest => some (Char.ofNat 12, rest)
  | 'r' :: rest => some ('\r', rest)
  | '"' :: rest => some ('"', rest)
  | '\\' :: rest => some ('\\', rest)
  | 'u' :: rest => takeCode 4 rest
  | 'U' :: rest => takeCode 8 rest
  | _ => none

/-- Takes the rest of a text in quotation marks off the document. -/
def takeBasic : Nat → List Char → Option (List Char × List Char)
  | 0, _ => none
  | _ + 1, [] => none
  | _ + 1, '"' :: rest => some ([], rest)
  | fuel + 1, '\\' :: rest => do
    let (c, rest) ← takeEscape rest
    let (cs, rest) ← takeBasic fuel rest
    some (c :: cs, rest)
  | fuel + 1, c :: rest =>
    if isPrintable c then (takeBasic fuel rest).map fun (cs, rest) => (c :: cs, rest) else none

/-- Takes the rest of a text in apostrophes off the document; it has no escapes. -/
def takeLiteral : List Char → Option (List Char × List Char)
  | [] => none
  | '\'' :: rest => some ([], rest)
  | c :: rest =>
    if isPrintable c then (takeLiteral rest).map fun (cs, rest) => (c :: cs, rest) else none

def countLeading (mark : Char) (s : List Char) : Nat := (s.takeWhile (· == mark)).length

/-- Takes a run of delimiters inside a text of several lines off the document. Three to five close
the text, all but three of them belonging to it; fewer belong to it entirely. -/
def takeMarks (mark : Char) (s : List Char) : Option (List Char × Bool × List Char) :=
  let n := countLeading mark s
  if n < 3 then some (List.replicate n mark, false, s.drop n)
  else if n ≤ 5 then some (List.replicate (n - 3) mark, true, s.drop n)
  else some (List.replicate 2 mark, true, s.drop 5)

/-- Drops the blanks and line breaks after a backslash at the end of a line. -/
def dropContinuation : Nat → List Char → List Char
  | 0, s => s
  | fuel + 1, s =>
    match takeNewline (skip s) with
    | some rest => dropContinuation fuel rest
    | none => skip s

/-- Takes the rest of a text of several lines in quotation marks off the document. -/
def takeLongBasic : Nat → List Char → Option (List Char × List Char)
  | 0, _ => none
  | _ + 1, [] => none
  | fuel + 1, '"' :: rest => do
    let (marks, closed, rest) ← takeMarks '"' ('"' :: rest)
    if closed then some (marks, rest)
    else do
      let (cs, rest) ← takeLongBasic fuel rest
      some (marks ++ cs, rest)
  | fuel + 1, '\\' :: rest =>
    match takeNewline (skip rest) with
    | some after => takeLongBasic fuel (dropContinuation after.length after)
    | none => do
      let (c, rest) ← takeEscape rest
      let (cs, rest) ← takeLongBasic fuel rest
      some (c :: cs, rest)
  | fuel + 1, c :: rest =>
    match takeNewline (c :: rest) with
    | some rest => (takeLongBasic fuel rest).map fun (cs, rest) => ('\n' :: cs, rest)
    | none =>
      if isPrintable c then (takeLongBasic fuel rest).map fun (cs, rest) => (c :: cs, rest)
      else none

/-- Takes the rest of a text of several lines in apostrophes off the document. -/
def takeLongLiteral : Nat → List Char → Option (List Char × List Char)
  | 0, _ => none
  | _ + 1, [] => none
  | fuel + 1, '\'' :: rest => do
    let (marks, closed, rest) ← takeMarks '\'' ('\'' :: rest)
    if closed then some (marks, rest)
    else do
      let (cs, rest) ← takeLongLiteral fuel rest
      some (marks ++ cs, rest)
  | fuel + 1, c :: rest =>
    match takeNewline (c :: rest) with
    | some rest => (takeLongLiteral fuel rest).map fun (cs, rest) => ('\n' :: cs, rest)
    | none =>
      if isPrintable c then (takeLongLiteral fuel rest).map fun (cs, rest) => (c :: cs, rest)
      else none

/-- The text without a line break at its start. -/
def dropFirstNewline (s : List Char) : List Char := (takeNewline s).getD s

/-- Takes a text in any of the four forms off the document. -/
def takeText (s : List Char) : Option (List Char × List Char) :=
  match s with
  | '"' :: '"' :: '"' :: rest => takeLongBasic (rest.length + 1) (dropFirstNewline rest)
  | '\'' :: '\'' :: '\'' :: rest => takeLongLiteral (rest.length + 1) (dropFirstNewline rest)
  | '"' :: rest => takeBasic (rest.length + 1) rest
  | '\'' :: rest => takeLiteral rest
  | _ => none

/-! ## Keys -/

def isKeyChar (c : Char) : Bool := c.isAlphanum || c == '_' || c == '-'

def takeKeyPart (s : List Char) : Option (String × List Char) :=
  match s with
  | '"' :: rest => (takeBasic (rest.length + 1) rest).map fun (cs, rest) => (String.ofList cs, rest)
  | '\'' :: rest => (takeLiteral rest).map fun (cs, rest) => (String.ofList cs, rest)
  | _ =>
    let word := s.takeWhile isKeyChar
    if word.isEmpty then none else some (String.ofList word, s.dropWhile isKeyChar)

/-- Takes a dotted key off the text, blanks included. -/
def takeKey : Nat → List Char → Option (List String × List Char)
  | 0, _ => none
  | fuel + 1, s => do
    let (part, rest) ← takeKeyPart (skip s)
    match skip rest with
    | '.' :: rest => (takeKey fuel rest).map fun (parts, rest) => (part :: parts, rest)
    | rest => some ([part], rest)

/-- A dotted key as its path and its last part. -/
def splitKey (parts : List String) : Option (List String × String) :=
  parts.getLast?.map fun key => (parts.dropLast, key)

/-! ## Numbers -/

/-- Digits of a class, single underscores between them allowed, without the underscores. -/
def takeGrouped (digit : Char → Bool) : List Char → Option (List Char × List Char)
  | [] => none
  | c :: rest =>
    if !digit c then none
    else match rest with
      | '_' :: next :: rest =>
        (takeGrouped digit (next :: rest)).map fun (ds, rest) => (c :: ds, rest)
      | next :: rest =>
        if next == '_' then none
        else if digit next then
          (takeGrouped digit (next :: rest)).map fun (ds, rest) => (c :: ds, rest)
        else some ([c], next :: rest)
      | [] => some ([c], [])

/-- A whole number of the signed 64-bit range. -/
def wholeDatum? (n : Int) : Option Datum :=
  if -2 ^ 63 ≤ n && n < 2 ^ 63 then some (.int n) else none

/-- Takes a number with the given base off the text, after its mark. -/
def takeBased (base : Nat) (s : List Char) : Option (Datum × List Char) := do
  let digit (c : Char) : Bool := match JsonReading.hexValue? c with
    | some v => v < base
    | none => false
  let (digits, rest) ← takeGrouped digit s
  let n := digits.foldl (fun n c => base * n + (JsonReading.hexValue? c).getD 0) 0
  (wholeDatum? n).map (·, rest)

/-- Takes the fractional part of a number off the text; there may be none. -/
def takeFraction : List Char → Option (List Char × List Char)
  | '.' :: rest => takeGrouped isDigit rest
  | s => some ([], s)

/-- Takes the exponent of a number off the text; there may be none. -/
def takeExponent (s : List Char) : Option (Option Int × List Char) :=
  match s with
  | c :: rest =>
    if c = 'e' || c = 'E' then
      let (negative, rest) := Number.takeSign rest
      (takeGrouped isDigit rest).map fun (ds, rest) =>
        (some (if negative then -(ofDigits ds : Int) else ofDigits ds), rest)
    else some (none, s)
  | [] => some (none, [])

/-- Takes a number in decimal digits off the text. A leading zero must stand alone. A whole number
must be in range, and a floating-point number must not overflow upwards; one that overflows
downwards is minus infinity. -/
def takeDecimal (s : List Char) : Option (Datum × List Char) := do
  let (negative, s) := Number.takeSign s
  match s with
  | 'i' :: 'n' :: 'f' :: rest => some (.float (Double.infinite negative), rest)
  | 'n' :: 'a' :: 'n' :: rest => some (.float Double.nan, rest)
  | _ => do
    let (whole, rest) ← takeGrouped isDigit s
    if whole.head? == some '0' && whole.length ≠ 1 then none
    else do
      let pointed := rest.head? == some '.'
      let (fraction, rest) ← takeFraction rest
      let (exponent, rest) ← takeExponent rest
      if !pointed && exponent.isNone then
        let n : Int := ofDigits whole
        (wholeDatum? (if negative then -n else n)).map (·, rest)
      else
        let x := Double.ofDecimal negative (ofDigits (whole ++ fraction))
          (exponent.getD 0 - fraction.length)
        if x.isInfinite && !negative then none else some (.float x, rest)

/-! ## Dates and times -/

def takeTime (s : List Char) : Option (List Char) := do
  let (hour, s) ← takeDigits 2 2 s
  let s ← takeChar ':' s
  let (minute, s) ← takeDigits 2 2 s
  let s ← takeChar ':' s
  let (second, s) ← takeDigits 2 2 s
  let (_, s) ← Calendar.takeFraction s
  if 23 < hour || 59 < minute || 60 < second then none else some s

def takeDay (s : List Char) : Option (List Char) := do
  let (year, s) ← takeDigits 4 4 s
  let s ← takeChar '-' s
  let (month, s) ← takeDigits 2 2 s
  let s ← takeChar '-' s
  let (day, s) ← takeDigits 2 2 s
  if (Date.ofParts? year month day).isSome then some s else none

def takeOffset (s : List Char) : Option (List Char) :=
  match s with
  | 'Z' :: rest => some rest
  | 'z' :: rest => some rest
  | '+' :: _ => (Calendar.takeOffset s).map (·.2)
  | '-' :: _ => (Calendar.takeOffset s).map (·.2)
  | _ => some s

/-- Takes a date, a time, or both off the text. After a date a blank may stand for the mark before
the time, if a time follows. -/
def takeMoment (s : List Char) : Option (List Char) :=
  match takeDay s with
  | none => takeTime s
  | some rest =>
    match rest with
    | 'T' :: tail => (takeTime tail).bind takeOffset
    | 't' :: tail => (takeTime tail).bind takeOffset
    | ' ' :: c :: tail => if isDigit c then (takeTime (c :: tail)).bind takeOffset else some rest
    | _ => some rest

def startsMoment (s : List Char) : Bool :=
  match s with
  | a :: b :: c :: d :: e :: _ =>
    isDigit a && isDigit b && (c == ':' || (isDigit c && isDigit d && e == '-'))
  | a :: b :: c :: _ => isDigit a && isDigit b && c == ':'
  | _ => false

/-- What a date or a time is turned into. -/
def momentDatum (s : List Char) : Datum := .record [("$moment", .text (String.ofList s))]

/-! ## Values -/

mutual

/-- Takes a value off the text. Each step spends fuel; `depth` bounds the nesting. -/
def takeValue : Nat → Nat → List Char → Option (Datum × List Char)
  | 0, _, _ => none
  | fuel + 1, depth, s =>
    match s with
    | '[' :: rest =>
      match depth with
      | 0 => none
      | depth + 1 =>
        (takeItems fuel depth rest).map fun (items, rest) => (.list items, rest)
    | '\x7b' :: rest =>
      match depth with
      | 0 => none
      | depth + 1 =>
        match skip rest with
        | '\x7d' :: rest => some (.record [], rest)
        | _ => (takeInline fuel depth [] rest).map fun (entries, rest) =>
            (.record (TomlTable.entriesToData entries), rest)
    | '"' :: _ => (takeText s).map fun (cs, rest) => (.text (String.ofList cs), rest)
    | '\'' :: _ => (takeText s).map fun (cs, rest) => (.text (String.ofList cs), rest)
    | 't' :: 'r' :: 'u' :: 'e' :: rest => some (.bool true, rest)
    | 'f' :: 'a' :: 'l' :: 's' :: 'e' :: rest => some (.bool false, rest)
    | '0' :: 'x' :: rest => takeBased 16 rest
    | '0' :: 'o' :: rest => takeBased 8 rest
    | '0' :: 'b' :: rest => takeBased 2 rest
    | _ =>
      if startsMoment s then
        (takeMoment s).map fun rest => (momentDatum (s.take (s.length - rest.length)), rest)
      else takeDecimal s

/-- Takes the items of an array off the text, with the closing bracket. A comma may follow the
last item. -/
def takeItems : Nat → Nat → List Char → Option (List Datum × List Char)
  | 0, _, _ => none
  | fuel + 1, depth, s =>
    match skipLines s.length s with
    | ']' :: rest => some ([], rest)
    | s => do
      let (item, rest) ← takeValue fuel depth s
      match skipLines rest.length rest with
      | ',' :: rest => do
        let (items, rest) ← takeItems fuel depth rest
        some (item :: items, rest)
      | ']' :: rest => some ([item], rest)
      | _ => none

/-- Takes the entries of an inline table off the text, with the closing brace. -/
def takeInline : Nat → Nat → TomlTable.Entries → List Char →
    Option (TomlTable.Entries × List Char)
  | 0, _, _, _ => none
  | fuel + 1, depth, entries, s => do
    let (parts, rest) ← takeKey 79 s
    let (path, key) ← splitKey parts
    let rest ← takeChar '=' rest
    let (value, rest) ← takeValue fuel depth (skip rest)
    let entries ← TomlTable.assign path key value entries
    match skip rest with
    | ',' :: rest => takeInline fuel depth entries rest
    | '\x7d' :: rest => some (entries, rest)
    | _ => none

end

/-! ## Documents -/

/-- A document read so far: its tables, and the path to the table under the last header. -/
structure Document where
  entries : TomlTable.Entries
  /-- the path to the current table -/
  current : List String

/-- Reads a header, after its first bracket. -/
def takeHeader (doc : Document) (s : List Char) : Option (Document × List Char) :=
  match s with
  | '[' :: rest => do
    let (parts, rest) ← takeKey 79 rest
    let (path, key) ← splitKey parts
    let rest ← takeChar ']' rest
    let rest ← takeChar ']' rest
    let entries ← TomlTable.openArray path key doc.entries
    some (⟨entries, parts⟩, rest)
  | _ => do
    let (parts, rest) ← takeKey 79 s
    let (path, key) ← splitKey parts
    let rest ← takeChar ']' rest
    let entries ← TomlTable.openTable path key doc.entries
    some (⟨entries, parts⟩, rest)

def takeAssignment (doc : Document) (s : List Char) : Option (Document × List Char) := do
  let (parts, rest) ← takeKey 79 s
  let (path, key) ← splitKey parts
  let rest ← takeChar '=' rest
  let rest := skip rest
  let (value, rest) ← takeValue (2 * rest.length + 2) 79 rest
  let entries ← TomlTable.changeAt (TomlTable.assign path key value) doc.current doc.entries
  some ({ doc with entries := entries }, rest)

def takeLines : Nat → Document → List Char → Option Document
  | 0, _, _ => none
  | fuel + 1, doc, s =>
    match skipLines s.length s with
    | [] => some doc
    | '[' :: rest => do
      let (doc, rest) ← takeHeader doc rest
      let rest ← takeLineEnd rest
      takeLines fuel doc rest
    | s => do
      let (doc, rest) ← takeAssignment doc s
      let rest ← takeLineEnd rest
      takeLines fuel doc rest

end TomlReading

/-- The record of a TOML document. A byte order mark at its start is ignored. -/
def Datum.ofToml? (s : List Char) : Option Datum :=
  let s := match s with
    | '\uFEFF' :: rest => rest
    | _ => s
  (TomlReading.takeLines (s.length + 1) ⟨[], []⟩ s).map fun doc =>
    .record (TomlTable.entriesToData doc.entries)

end IndexQuery
