import IndexQuery.CommandLine.Compilation
import IndexQuery.CommandLine.Help
import IndexQuery.Data.JsonText
set_option autoImplicit false

/-! # What the program prints

`Invocation.run` gives the whole outcome of the program: its exit code and what it writes to both
of its outputs. Reports and remarks go to the first output, errors to the second. A remark that
nothing is filtered is printed as soon as that is known, so it stands even if the documents cannot
be read afterwards. -/

namespace IndexQuery.CommandLine

/-- The outcome of the program. -/
structure Outcome where
  code : Nat
  out : String := ""
  err : String := ""
deriving DecidableEq, Repr

/-! ## Lines -/

/-- How lines look. -/
structure LineStyle where
  colored : Bool
  underlined : Bool
deriving DecidableEq, Repr

namespace LineStyle

/-- A message behind a sign. -/
def signed (s : LineStyle) (ink : Ink) (sign message : String) : String :=
  ink.paint s.colored sign ++ " " ++ ink.paint s.colored message ++ "\n"

/-- A heading, with a blank line before it. -/
def heading (s : LineStyle) (title : String) : String :=
  "\n" ++
    if s.underlined then
      title ++ "\n" ++ String.ofList (List.replicate title.utf8ByteSize '=') ++ "\n"
    else Ink.primary.paint s.colored title ++ "\n"

def entry (s : LineStyle) (name value : String) : String :=
  Ink.key.paint s.colored name ++ ": " ++ Ink.value.paint s.colored value ++ "\n"

def bullet (s : LineStyle) (text : String) : String :=
  "  " ++ Ink.muted.paint s.colored "•" ++ " " ++ text ++ "\n"

end LineStyle

/-! ## Reports as text -/

namespace Report

/-- How a document is named in a report: by its identity, or else in full. -/
def documentName (idField : String) (doc : Datum) : String :=
  match doc.get? idField with
  | some (.text id) => id
  | some other => String.ofList other.compact
  | none => String.ofList doc.compact

def selectionText (s : LineStyle) (idField : String) (docs : List Datum) : String :=
  s.heading "Dry run" ++
    s.signed .success "✓" (toString docs.length ++ " documents selected") ++
    String.join (docs.map fun doc => s.bullet (documentName idField doc))

def text (s : LineStyle) (r : Report) : String :=
  s.heading "Compiled query" ++ s.entry "Index" r.index ++ s.entry "Query" r.query ++
    String.join (r.params.map fun (name, size) =>
      s.bullet ("PARAMS " ++ name ++ " (" ++ toString size ++ " bytes)")) ++
    s.entry "Command" (" ".intercalate r.command) ++
    s.entry "Count" (" ".intercalate r.countCommand) ++
    match r.selected with
    | none => ""
    | some docs => selectionText s r.idField docs

def json (r : Report) : String := String.ofList r.toDatum.pretty ++ "\n"

end Report

/-! ## Outcomes -/

namespace Presentation

/-- The look of lines. Headings are underlined where colours are forbidden. -/
def lineStyle (p : Presentation) (surroundings : Surroundings) : LineStyle :=
  ⟨surroundings.colored && !p.plain, p.plain⟩

/-- The remark on a tree of all documents, where remarks are shown. -/
def remark (p : Presentation) (s : LineStyle) (tree : Tree) : String :=
  if tree.isRoot && p.format = .text && !p.quiet then
    s.signed .info "ℹ" "No constraining filters: the query matches every document"
  else ""

/-- A report, where reports are shown. -/
def shown (p : Presentation) (s : LineStyle) (r : Report) : String :=
  if p.quiet then ""
  else match p.format with
    | .text => r.text s
    | .json => r.json

end Presentation

/-- The outcome of a failure, after what has been printed before it. -/
def CompileFailure.outcome (s : LineStyle) (printed : String) (f : CompileFailure) : Outcome :=
  ⟨1, printed, s.signed .error "✗" f.message⟩

/-- The outcome when selecting documents is given up. -/
def Outcome.givenUp (printed : String) : Outcome :=
  ⟨101, printed, "user-provided comparison function does not correctly implement a total order\n"⟩

/-- The outcome of a request to compile. -/
def CompileRequest.run (surroundings : Surroundings) (files : Files) (p : Presentation)
    (r : CompileRequest) : Outcome :=
  let s := p.lineStyle surroundings
  match r.prepare files with
  | .error f => f.outcome s ""
  | .ok c =>
    let remark := p.remark s c.stream.compile
    match c.report files r.documents with
    | .error f => f.outcome s remark
    | .ok none => .givenUp remark
    | .ok (some report) => ⟨0, remark ++ p.shown s report, ""⟩

namespace Invocation

/-- The files that are looked up. -/
def paths : Invocation → List String
  | compile _ r => r.config.toList ++ [r.schema] ++ r.documents.toList
  | _ => []

/-- The outcome of the program. Help and version stand between blank lines. -/
def run (surroundings : Surroundings) (files : Files) : Invocation → Outcome
  | help topic full => ⟨0, "\n" ++ Help.page topic full surroundings ++ "\n", ""⟩
  | version => ⟨0, "\n" ++ versionText ++ "\n\n", ""⟩
  | compile p r => r.run surroundings files p
  | misuse => ⟨2, "", "\nThe arguments cannot be understood; try '--help'.\n\n"⟩

end Invocation

end IndexQuery.CommandLine
