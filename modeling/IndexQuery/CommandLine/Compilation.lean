import IndexQuery.Command
import IndexQuery.CommandLine.Arguments
import IndexQuery.Data.JsonReading
import IndexQuery.FieldRecord
import IndexQuery.Filter.Query
import IndexQuery.Matching.Selection
import IndexQuery.Tree.Data
set_option autoImplicit false

/-! # Compilation by request

A `CompileRequest` is carried out in stages: the settings, the schema, the sort key, the stream, and
the documents, if there are any. The first stage that fails is reported; a request whose stages all
succeed gives a `Report`. Files are looked up through a function, so nothing here depends on when
and how they are read. -/

namespace IndexQuery.CommandLine

/-! ## Files -/

/-- Why a file could not be read. -/
inductive ReadFailure where
  | missing
  | forbidden
  | notDirectory
  | directory
  /-- the octets of the file encode no text -/
  | notText
deriving DecidableEq, Repr

namespace ReadFailure

def message : ReadFailure → String
  | missing => "No such file or directory (os error 2)"
  | forbidden => "Permission denied (os error 13)"
  | notDirectory => "Not a directory (os error 20)"
  | directory => "Is a directory (os error 21)"
  | notText => "stream did not contain valid UTF-8"

end ReadFailure

/-- The texts of files by their paths. -/
abbrev Files := String → Except ReadFailure String

/-! ## Failures -/

/-- Why a request could not be carried out. -/
inductive CompileFailure where
  | configUnread (path : String) (failure : ReadFailure)
  | configUnusable (path : String) (error : SettingsError)
  | schemaUnread (path : String) (failure : ReadFailure)
  | schemaUnusable (path : String) (error : SettingsError)
  | sortOrder (word : String)
  | stream (error : QueryError)
  | documentsUnread (path : String) (failure : ReadFailure)
  | documentsUnusable (path : String)
deriving DecidableEq

namespace CompileFailure

/-- The wording of a failure, from the stage to the cause. -/
def message : CompileFailure → String
  | configUnread path failure =>
    s!"Failed to load config {path}: config error: failed to read {path}: {failure.message}"
  | configUnusable path .malformed =>
    s!"Failed to load config {path}: config error: failed to parse config: malformed settings"
  | configUnusable path (.rejected error) => s!"Failed to load config {path}: {error.message}"
  | schemaUnread path failure => s!"Failed to read schema {path}: {failure.message}"
  | schemaUnusable path error =>
    let cause := match error with
      | .malformed => "malformed schema"
      | .rejected error => error.message
    s!"Invalid schema {path}: invalid field descriptor '': failed to parse schema: {cause}"
  | sortOrder word => s!"Invalid sort order '{word}', expected asc or desc"
  | stream error => s!"Failed to build search stream: {error.message}"
  | documentsUnread path failure => s!"Failed to read documents {path}: {failure.message}"
  | documentsUnusable path => s!"{path} must contain a JSON array of objects: malformed documents"

end CompileFailure

/-! ## Stages -/

/-- The settings at a path; without a path, the default ones. -/
def loadConfig (files : Files) : Option String → Except CompileFailure SearchConfig
  | none => .ok .default
  | some path => do
    let source ← (files path).mapError (.configUnread path)
    (SearchConfig.ofToml source).mapError (.configUnusable path)

def loadSchema (files : Files) (path : String) : Except CompileFailure Schema := do
  let source ← (files path).mapError (.schemaUnread path)
  (Schema.ofToml source).mapError (.schemaUnusable path)

/-- The name of the field to sort by and the direction, from a name with or without a direction
behind a colon. -/
def sortKey : Option String → Except CompileFailure (Option String × Option SortOrder)
  | none => .ok (none, none)
  | some raw =>
    match Text.splitFirst ':' raw.toList with
    | none => .ok (some (String.ofList (Text.trim raw.toList)), none)
    | some (name, word) =>
      match SortOrder.ofText? (String.ofList word) with
      | none => .error (.sortOrder (String.ofList word))
      | some order => .ok (some (String.ofList (Text.trim name)), some order)

/-- The documents at a path; without a path there are none to select from. -/
def loadDocuments (files : Files) : Option String → Except CompileFailure (Option (List Datum))
  | none => .ok none
  | some path => do
    let source ← (files path).mapError (.documentsUnread path)
    match (Datum.ofJson? source.toList).bind Datum.list? with
    | none => .error (.documentsUnusable path)
    | some docs => .ok (some docs)

/-- A search stream with the settings it is compiled under. -/
structure Compilation where
  config : SearchConfig
  /-- what is searched -/
  stream : SearchStream
deriving DecidableEq

/-- All stages before the documents. -/
def CompileRequest.prepare (files : Files) (r : CompileRequest) :
    Except CompileFailure Compilation := do
  let config ← loadConfig files r.config
  let schema ← loadSchema files r.schema
  let (sortBy, order) ← sortKey r.sort
  let query : FilterQuery := ⟨r.page, r.pageSize, sortBy, order, r.filters⟩
  let stream ← (query.stream schema config).mapError .stream
  .ok ⟨config, stream⟩

/-! ## Reports -/

/-- What a request has come to. -/
structure Report where
  index : String
  query : String
  /-- the parameters, by name and number of octets -/
  params : List (String × Nat)
  command : List String
  /-- the command that counts, as it is shown -/
  countCommand : List String
  tree : Tree
  /-- the selected documents, if there were documents -/
  selected : Option (List Datum)
  /-- the key under which documents carry their identity -/
  idField : String

namespace Compilation

/-- The report, given the documents, unless selecting from them is given up. -/
def reportOn (c : Compilation) (docs : Option (List Datum)) : Option Report := do
  let tree := c.stream.compile
  let rendered := tree.rendered c.config
  let selected ← docs.mapM tree.select
  some
    { index := c.stream.schema.index
      query := rendered.query
      params := rendered.params.map fun (name, blob) => (name, blob.length)
      command := (c.stream.command c.config).describe
      countCommand := (c.stream.countCommand c.config).describe
      tree := tree
      selected := selected
      idField := c.stream.schema.idField }

/-- The last stage: the documents, and the report. -/
def report (files : Files) (documents : Option String) (c : Compilation) :
    Except CompileFailure (Option Report) :=
  (loadDocuments files documents).map c.reportOn

end Compilation

namespace Report

def toDatum (r : Report) : Datum :=
  .record (
    [("index", .text r.index), ("query", .text r.query),
      ("params", .list (r.params.map fun (name, size) =>
        .record [("name", .text name), ("bytes", .nat size)])),
      ("command", .texts r.command), ("count_command", .texts r.countCommand),
      ("tree", r.tree.toDatum)] ++
    match r.selected with
    | none => []
    | some docs => [("selected", .list docs)])

end Report

end IndexQuery.CommandLine
