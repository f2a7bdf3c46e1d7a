import IndexQuery.Number.Reading
set_option autoImplicit false

/-! # Switches

A switch is an option of the command line, with a long name, perhaps a letter, and perhaps a value.
`Given` holds what the switches of one command have said; `put` and `mark` add one more, and refuse
a value that cannot be read and a second say where only one is possible. -/

namespace IndexQuery.CommandLine

/-! ## Names -/

inductive OutputFormat where
  | text
  | json
deriving DecidableEq, Repr

namespace OutputFormat

def word : OutputFormat → String
  | text => "text"
  | json => "json"

def about : OutputFormat → String
  | text => "Human-readable, colored output (default)"
  | json => "JSON output for scripting"

def all : List OutputFormat := [text, json]

def ofWord? (w : String) : Option OutputFormat := all.find? (·.word = w)

end OutputFormat

/-- An option of the command line. -/
inductive Switch where
  | format
  | schema
  | filter
  | quiet
  | noColor
  | sort
  | page
  | pageSize
  | config
  | documents
  | help
  | version
deriving DecidableEq, Repr

namespace Switch

/-- The long name, without its hyphens. -/
def long : Switch → String
  | format => "format"
  | schema => "schema"
  | filter => "filter"
  | quiet => "quiet"
  | noColor => "no-color"
  | sort => "sort"
  | page => "page"
  | pageSize => "page-size"
  | config => "config"
  | documents => "documents"
  | help => "help"
  | version => "version"

/-- The letter, for switches that have one. -/
def letter? : Switch → Option Char
  | schema => some 's'
  | filter => some 'f'
  | quiet => some 'q'
  | help => some 'h'
  | version => some 'V'
  | _ => none

/-- The name of the value in help pages, for switches that take one. -/
def value? : Switch → Option String
  | format => some "FORMAT"
  | schema => some "SCHEMA"
  | filter => some "FILTERS"
  | sort => some "SORT"
  | page => some "PAGE"
  | pageSize => some "PAGE_SIZE"
  | config => some "CONFIG"
  | documents => some "DOCUMENTS"
  | quiet | noColor | help | version => none

def takesValue (s : Switch) : Bool := s.value?.isSome

/-- The switches of the program itself, in the order of its help page. -/
def ofProgram : List Switch := [format, quiet, noColor, help, version]

/-- The switches of the command that compiles, in the order of its help page. -/
def ofCompile : List Switch :=
  [format, schema, filter, quiet, noColor, sort, page, pageSize, config, documents, help]

end Switch

/-! ## What the switches say -/

/-- What the switches of one command have said. -/
structure Given where
  format : Option OutputFormat := none
  quiet : Bool := false
  noColor : Bool := false
  schema : Option String := none
  filters : List String := []
  sort : Option String := none
  page : Option Nat := none
  pageSize : Option Nat := none
  config : Option String := none
  documents : Option String := none
deriving DecidableEq, Repr

/-- The path a value names; the empty one names none. -/
def path? (value : String) : Option String := if value.isEmpty then none else some value

namespace Given

/-- A new value, where there must not be one already. -/
def once {α : Type} (current new : Option α) : Option α :=
  match current with
  | none => new
  | some _ => none

/-- Adds what a switch says by a value. -/
def put (g : Given) (s : Switch) (value : String) : Option Given :=
  match s with
  | .format => (once g.format (OutputFormat.ofWord? value)).map ({ g with format := some · })
  | .schema => (once g.schema (path? value)).map ({ g with schema := some · })
  | .filter => some { g with filters := g.filters ++ [value] }
  | .sort => (once g.sort (some value)).map ({ g with sort := some · })
  | .page => (once g.page (Number.nat64? value.toList)).map ({ g with page := some · })
  | .pageSize =>
    (once g.pageSize (Number.nat64? value.toList)).map ({ g with pageSize := some · })
  | .config => (once g.config (path? value)).map ({ g with config := some · })
  | .documents => (once g.documents (path? value)).map ({ g with documents := some · })
  | .quiet | .noColor | .help | .version => none

/-- Adds what a switch without a value says. -/
def mark (g : Given) (s : Switch) : Option Given :=
  match s with
  | .quiet => if g.quiet then none else some { g with quiet := true }
  | .noColor => if g.noColor then none else some { g with noColor := true }
  | _ => none

end Given

end IndexQuery.CommandLine
