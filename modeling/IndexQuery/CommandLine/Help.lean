import IndexQuery.CommandLine.Arguments
set_option autoImplicit false

/-! # Help pages

There is a page on the program, one on each command, and each in a short and in a full form. The
short form has one line for a switch; the full form says more and adds an appendix. -/

namespace IndexQuery.CommandLine

/-! ## Parts -/

def programName : String := "snugom-stream"

def versionText : String := programName ++ " 0.1.0"

namespace Help

def header (colored : Bool) (s : String) : String := Ink.highlight.paintApart colored s

/-- What is to be typed as it stands. -/
def literal (colored : Bool) (s : String) : String := Ink.secondary.paintApart colored s

/-- What stands for something else. -/
def placeholder (colored : Bool) (s : String) : String := Ink.muted.paintApart colored s

/-- The line on usage, after the name of what is used. -/
def usage (colored : Bool) (name : String) (parts : List String) : String :=
  Ink.primary.paintApart colored "Usage:" ++ " " ++
    " ".intercalate (literal colored name :: parts) ++ "\n"

def blanks (n : Nat) : String := String.ofList (List.replicate n ' ')

/-! ## Switches -/

/-- What a switch is for. -/
def about (full : Bool) : Switch → String
  | .format => "Output format"
  | .schema => "Entity schema (TOML)"
  | .filter => "Filter as field:operator:value; repeat to add more, applied in order"
  | .quiet => "Suppress output (only errors will be shown)"
  | .noColor => "Disable colored output"
  | .sort => "Sort as FIELD or FIELD:asc|desc"
  | .page => "Page number, starting at 1"
  | .pageSize => "Page size, clamped to the configured maximum"
  | .config => "Search settings (TOML)"
  | .documents => "JSON array of documents to evaluate the compiled query against"
  | .help =>
    if full then "Print help (see a summary with '-h')" else "Print help (see more with '--help')"
  | .version => "Print version"

/-- Notes on the values of a switch. Possible values are among them in the short form only. -/
def notes (full : Bool) (config : String) : Switch → List String
  | .format =>
    let words := ", ".intercalate (OutputFormat.all.map OutputFormat.word)
    "[default: text]" :: if full then [] else ["[possible values: " ++ words ++ "]"]
  | .config => ["[env: " ++ Invocation.configVariable ++ "=" ++ config ++ "]"]
  | _ => []

def named (colored : Bool) (s : Switch) : String :=
  literal colored ("--" ++ s.long) ++
    match s.value? with
    | none => ""
    | some v => placeholder colored " " ++ placeholder colored ("<" ++ v ++ ">")

def entryHead (colored : Bool) (s : Switch) : String :=
  (match s.letter? with
    | none => "      "
    | some c => "  " ++ literal colored (String.ofList ['-', c]) ++ ", ") ++ named colored s

def width (s : Switch) : Nat := (named false s).length

/-- The line on a switch, given the greatest width. -/
def shortEntry (colored : Bool) (config : String) (widest : Nat) (s : Switch) : String :=
  entryHead colored s ++ blanks (widest + 2 - width s) ++
    " ".intercalate (about false s :: notes false config s) ++ "\n"

def indent : String := blanks 10

/-- The list of possible values in the full form. -/
def possibleValues (colored : Bool) : Switch → String
  | .format =>
    "\n" ++ indent ++ "Possible values:\n" ++
      String.join (OutputFormat.all.map fun f =>
        indent ++ "- " ++ literal colored f.word ++ ": " ++ f.about ++ "\n")
  | _ => ""

/-- The paragraphs on a switch. -/
def fullEntry (colored : Bool) (config : String) (s : Switch) : String :=
  entryHead colored s ++ "\n" ++ indent ++ about true s ++ "\n" ++ possibleValues colored s ++
    String.join ((notes true config s).map fun note => indent ++ "\n" ++ indent ++ note ++ "\n")

def switchPart (colored full : Bool) (config : String) (switches : List Switch) : String :=
  let widest := (switches.map width).foldl max 0
  header colored "Options:" ++ "\n" ++
    if full then "\n".intercalate (switches.map (fullEntry colored config))
    else String.join (switches.map (shortEntry colored config widest))

/-! ## Commands -/

def compileAbout : String := "Compile filters against a schema into a RediSearch query"

def helpAbout : String := "Print this message or the help of the given subcommand(s)"

def commandPart (colored : Bool) : String :=
  header colored "Commands:" ++ "\n" ++
    "  " ++ literal colored Invocation.compileWord ++ "  " ++ compileAbout ++ "\n" ++
    "  " ++ literal colored Invocation.helpWord ++ "     " ++ helpAbout ++ "\n"

/-! ## Appendices -/

def programStory : String :=
  "Compile textual filters against an entity schema into RediSearch queries.\n\n" ++
    "Filters are written as field:operator:value and applied in order. The\n" ++
    "compiled query, its binary parameters and the FT.SEARCH command are\n" ++
    "printed; nothing is sent to Redis.\n\n" ++
    "Commands:\n  compile   Compile filters into a query and command\n\n"

/-- The environment variables with what they are for. -/
def environmentVariables : List (String × String) :=
  [(Invocation.configVariable, "Path to the search settings file"),
    ("RUST_LOG", "Log filter, e.g. snugom_stream=debug")]

def programAppendix (colored : Bool) : String :=
  Ink.highlight.paint colored "Environment Variables:" ++ "\n" ++
    String.join (environmentVariables.map fun (name, use) =>
      "  " ++ Ink.key.paint colored name ++ "  " ++ Ink.value.paint colored use ++ "\n") ++
    "\n" ++ Ink.highlight.paint colored "Tip:" ++ " " ++
    Ink.secondary.paint colored
      "Use 'snugom-stream <command> --help' to view examples for each command." ++ "\n"

/-- Examples of compilation, in groups with a title. -/
def exampleGroups : List (String × List String) :=
  [("Compile Filters",
      ["snugom-stream compile -s person.toml -f age:gt:18 -f name:ne:Bob",
        "snugom-stream compile -s person.toml -f tags:in:admin|ops --sort age:desc"]),
    ("Dry Run",
      ["snugom-stream compile -s person.toml -f active:bool:true --documents people.json"]),
    ("Scripting",
      ["snugom-stream --format json compile -s person.toml -f location:near:2.35,48.85,5,km"])]

def exampleGroup (colored : Bool) (group : String × List String) : String :=
  "  " ++ Ink.primary.paint colored group.1 ++ "\n" ++
    String.join (group.2.map fun command =>
      "    " ++ Ink.secondary.paint colored "→" ++ " " ++ Ink.secondary.paint colored command ++
        "\n")

def compileAppendix (colored : Bool) : String :=
  Ink.highlight.paint colored "Examples:" ++ "\n" ++
    "\n".intercalate (exampleGroups.map (exampleGroup colored))

/-! ## Pages -/

def programPage (colored full : Bool) (config : String) : List String :=
  [if full then programStory else "Compile typed filters into RediSearch queries\n",
    usage colored programName [placeholder colored "[OPTIONS]", placeholder colored "<COMMAND>"],
    commandPart colored, switchPart colored full config Switch.ofProgram] ++
    if full then [programAppendix colored] else []

def compilePage (colored full : Bool) (config : String) : List String :=
  [compileAbout ++ "\n",
    usage colored (programName ++ " " ++ Invocation.compileWord)
      [placeholder colored "[OPTIONS]", named colored .schema],
    switchPart colored full config Switch.ofCompile] ++
    if full then [compileAppendix colored] else []

/-- The page on the command for help, which is the same in both forms. -/
def helpPage (colored : Bool) : List String :=
  [helpAbout ++ "\n",
    usage colored (programName ++ " " ++ Invocation.helpWord) [placeholder colored "[COMMAND]..."],
    header colored "Arguments:" ++ "\n" ++
      "  " ++ placeholder colored "[COMMAND]..." ++ "  Print help for the subcommand(s)\n"]

/-- A page, its parts separated by blank lines. The path of the settings in the surroundings is
shown where it applies. -/
def page (topic : HelpTopic) (full : Bool) (surroundings : Surroundings) : String :=
  let colored := surroundings.coloredHelp
  let config := (surroundings.setting? Invocation.configVariable).getD ""
  "\n".intercalate <| match topic with
    | .program => programPage colored full config
    | .compile => compilePage colored full config
    | .help => helpPage colored

end Help

end IndexQuery.CommandLine
