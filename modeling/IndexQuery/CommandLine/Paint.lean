set_option autoImplicit false

/-! # Colours on a terminal

A text is coloured by an escape sequence before it and a resetting one behind it. Whether colours
are wanted depends on the surroundings of the program: an environment variable can force them or
forbid them, and otherwise a terminal has to be there to show them. -/

namespace IndexQuery.CommandLine

/-! ## Inks -/

inductive Color where
  | red
  | green
  | blue
  | magenta
  | cyan
  | white
  | brightBlack
  | brightBlue
  | brightCyan
deriving DecidableEq, Repr

/-- The number of a colour in an escape sequence. -/
def Color.code : Color → Nat
  | red => 31
  | green => 32
  | blue => 34
  | magenta => 35
  | cyan => 36
  | white => 37
  | brightBlack => 90
  | brightBlue => 94
  | brightCyan => 96

/-- How a piece of text looks. -/
structure Ink where
  color : Color
  bold : Bool := false
deriving DecidableEq, Repr

namespace Ink

def success : Ink := ⟨.green, false⟩

def error : Ink := ⟨.red, false⟩

def info : Ink := ⟨.blue, false⟩

/-- Headings of help pages. -/
def highlight : Ink := ⟨.cyan, true⟩

def muted : Ink := ⟨.brightBlack, false⟩

/-- Headings of reports. -/
def primary : Ink := ⟨.brightBlue, true⟩

/-- What can be typed. -/
def secondary : Ink := ⟨.magenta, false⟩

def key : Ink := ⟨.brightCyan, true⟩

def value : Ink := ⟨.white, false⟩

/-! ## Escape sequences -/

/-- The escape sequence with the given parameters. -/
def sequence (parameters : String) : List Char := '\x1b' :: '[' :: parameters.toList ++ ['m']

def reset : List Char := sequence "0"

/-- The sequence that starts an ink, all its parameters together. -/
def start (ink : Ink) : List Char :=
  sequence ((if ink.bold then "1;" else "") ++ toString ink.color.code)

/-- The sequences that start an ink, one for each parameter. -/
def startApart (ink : Ink) : List Char :=
  (if ink.bold then sequence "1" else []) ++ sequence (toString ink.color.code)

/-- The text with an ink started anew behind every sequence that ends colouring. -/
def resume (ink : Ink) : List Char → List Char
  | '\x1b' :: '[' :: '0' :: 'm' :: rest => reset ++ ink.start ++ resume ink rest
  | c :: rest => c :: resume ink rest
  | [] => []

/-- A text in an ink, if colours are wanted. -/
def paint (ink : Ink) (colored : Bool) (s : String) : String :=
  if colored then String.ofList (ink.start ++ ink.resume s.toList ++ reset) else s

/-- A part of a help page in an ink, if colours are wanted. -/
def paintApart (ink : Ink) (colored : Bool) (s : String) : String :=
  if colored then String.ofList (ink.startApart ++ s.toList ++ reset) else s

end Ink

/-! ## Surroundings -/

/-- What the program knows of the place it runs in. -/
structure Surroundings where
  environment : List (String × String) := []
  terminal : Bool := false

namespace Surroundings

def setting? (s : Surroundings) (name : String) : Option String := s.environment.lookup name

/-- Whether a variable is there and not empty. -/
def isSet (s : Surroundings) (name : String) : Bool := (s.setting? name).any (!·.isEmpty)

def colored (s : Surroundings) : Bool :=
  if (s.setting? "CLICOLOR_FORCE").any (· != "0") then true
  else if (s.setting? "NO_COLOR").isSome then false
  else s.terminal && s.setting? "CLICOLOR" != some "0"

/-- Whether help pages are coloured. Here an empty variable counts as an absent one, and a
prohibition outweighs force. -/
def coloredHelp (s : Surroundings) : Bool :=
  s.colored && !s.isSet "NO_COLOR" && (s.isSet "CLICOLOR_FORCE" || s.terminal)

end Surroundings

end IndexQuery.CommandLine
