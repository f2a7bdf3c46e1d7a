import IndexQuery.CommandLine.Paint
import IndexQuery.CommandLine.Switches
import IndexQuery.Text.Blank
set_option autoImplicit false

/-! # Arguments

`Invocation.ofArguments` tells what the arguments of the program ask for. They are read from left
to right: the switches of the program, a command, and the switches of the command. A call for help
or for the version is answered at once, whatever follows it. A value that stands apart from its
switch is judged when the next switch or the end is reached, so a help page of the command comes
before the judgement of the value in front of the command. -/

namespace IndexQuery.CommandLine

/-! ## Invocations -/

/-- What a help page is about. -/
inductive HelpTopic where
  | program
  | compile
  | help
deriving DecidableEq, Repr

/-- How a report is shown. -/
structure Presentation where
  format : OutputFormat := .text
  /-- whether only errors are shown -/
  quiet : Bool := false
  /-- whether colours are forbidden -/
  plain : Bool := false
deriving DecidableEq, Repr

/-- What is to be compiled. -/
structure CompileRequest where
  schema : String
  filters : List String := []
  /-- the sort key, with or without a direction -/
  sort : Option String := none
  page : Option Nat := none
  pageSize : Option Nat := none
  /-- the path of the settings -/
  config : Option String := none
  /-- the path of documents to select from -/
  documents : Option String := none
deriving DecidableEq, Repr

/-- What the arguments ask for. -/
inductive Invocation where
  | help (topic : HelpTopic) (full : Bool)
  | version
  | compile (presentation : Presentation) (request : CompileRequest)
  /-- arguments that cannot be understood -/
  | misuse
deriving DecidableEq, Repr

/-! ## Reading switches -/

/-- Why reading ends early. -/
inductive Interruption where
  | help (full : Bool)
  | version
  | misuse
deriving DecidableEq, Repr

/-- What has been read of the switches of a command: what they have said, and the last switch, if
its value stands or should stand in an argument of its own and has not been judged yet. -/
structure Progress where
  given : Given := {}
  awaiting : Option (Switch × Option String) := none

namespace Progress

/-- An absent result means that the arguments cannot be understood. -/
def orMisuse {α : Type} : Option α → Except Interruption α
  | some a => .ok a
  | none => .error .misuse

/-- Everything that has been said, the last switch included. -/
def settled (p : Progress) : Except Interruption Given :=
  match p.awaiting with
  | none => .ok p.given
  | some (_, none) => .error .misuse
  | some (s, some value) => orMisuse (p.given.put s value)

/-- Goes on with a switch whose value is the next argument. -/
def await (p : Progress) (s : Switch) : Except Interruption Progress :=
  p.settled.map fun given => ⟨given, some (s, none)⟩

def take (p : Progress) (s : Switch) (value : String) : Except Interruption Progress :=
  p.settled.bind fun given => (orMisuse (given.put s value)).map (⟨·, none⟩)

/-- Goes on with a switch that has no value. Help in full is called for by the long name. -/
def mark (p : Progress) (s : Switch) (byName : Bool) : Except Interruption Progress :=
  p.settled.bind fun given =>
    match s with
    | .help => .error (.help byName)
    | .version => .error .version
    | s => (orMisuse (given.mark s)).map (⟨·, none⟩)

end Progress

/-- Reads a switch by its long name; a value may follow behind an equals sign. -/
def readNamed (switches : List Switch) (body : List Char) (p : Progress) :
    Except Interruption Progress :=
  let (name, value) := match Text.splitFirst '=' body with
    | some (name, value) => (name, some (String.ofList value))
    | none => (body, none)
  match switches.find? (·.long.toList = name), value with
  | none, _ => .error .misuse
  | some s, some value => if s.takesValue then p.take s value else .error .misuse
  | some s, none => if s.takesValue then p.await s else p.mark s true

/-- Reads switches by their letters. What follows the letter of a switch with a value is the value,
with or without an equals sign before it. -/
def readLetters (switches : List Switch) : List Char → Progress → Except Interruption Progress
  | [], p => .ok p
  | c :: rest, p =>
    match switches.find? (·.letter? = some c) with
    | none => .error .misuse
    | some s =>
      if s.takesValue then
        match rest with
        | [] => p.await s
        | '=' :: value => p.take s (String.ofList value)
        | value => p.take s (String.ofList value)
      else (p.mark s false).bind (readLetters switches rest)

def isDashed : List Char → Bool
  | ['-'] => false
  | '-' :: _ => true
  | _ => false

/-- Reads the switches in front of the first command, or all arguments. The result is what has been
read, with the command and the arguments behind it. -/
def readSwitches (switches : List Switch) (commands : List String) :
    List String → Progress → Except Interruption (Progress × Option (String × List String))
  | [], p => .ok (p, none)
  | arg :: rest, p =>
    match p.awaiting with
    | some (s, none) =>
      if isDashed arg.toList then .error .misuse
      else readSwitches switches commands rest { p with awaiting := some (s, some arg) }
    | _ =>
      if commands.contains arg then .ok (p, some (arg, rest))
      else match arg.toList with
        | ['-', '-'] => if rest.isEmpty then .ok (p, none) else .error .misuse
        | '-' :: '-' :: body =>
          (readNamed switches body p).bind (readSwitches switches commands rest)
        | '-' :: c :: letters =>
          (readLetters switches (c :: letters) p).bind (readSwitches switches commands rest)
        | _ => .error .misuse

/-! ## Reading arguments -/

namespace Invocation

/-- The variable with the path of the settings. -/
def configVariable : String := "SNUGOM_STREAM_CONFIG"

def compileWord : String := "compile"

def helpWord : String := "help"

/-- The invocation an early end of reading comes to. -/
def ofInterruption (topic : HelpTopic) : Interruption → Invocation
  | .help full => .help topic full
  | .version => .version
  | .misuse => .misuse

/-- Help on the command that is named, on the program if none is. -/
def ofHelp : List String → Invocation
  | [] => .help .program true
  | [word] =>
    if word = compileWord then .help .compile true
    else if word = helpWord then .help .help true
    else .misuse
  | _ => .misuse

/-- The request of the switches of the command that compiles. -/
def requestOf (surroundings : Surroundings) (g : Given) : Option CompileRequest := do
  let config ← match g.config, surroundings.setting? configVariable with
    | some path, _ => some (some path)
    | none, some value => (path? value).map some
    | none, none => some none
  let schema ← g.schema
  some ⟨schema, g.filters, g.sort, g.page, g.pageSize, config, g.documents⟩

/-- Compilation, given the switches of the program and the arguments of the command. What the
switches of the command say counts before what those of the program say. -/
def ofCompile (surroundings : Surroundings) (outer : Progress) (args : List String) :
    Invocation :=
  match readSwitches Switch.ofCompile [] args {} with
  | .error e => ofInterruption .compile e
  | .ok (inner, _) =>
    match inner.settled, outer.settled with
    | .ok given, .ok above =>
      match requestOf surroundings given with
      | none => .misuse
      | some request =>
        .compile ⟨(given.format.or above.format).getD .text, given.quiet || above.quiet,
          given.noColor || above.noColor⟩ request
    | _, _ => .misuse

def ofArguments (surroundings : Surroundings) (args : List String) : Invocation :=
  match readSwitches Switch.ofProgram [compileWord, helpWord] args {} with
  | .error e => ofInterruption .program e
  | .ok (_, none) => .misuse
  | .ok (p, some (word, rest)) =>
    if word = helpWord then ofHelp rest else ofCompile surroundings p rest

end Invocation

end IndexQuery.CommandLine
