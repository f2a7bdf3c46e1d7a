import IndexQuery.Stream
import IndexQuery.Text.Utf8
set_option autoImplicit false

/-! # Commands

A search is sent to the index as one command: the name of the index, the query text, the sort key,
the window, the parameters and the dialect. Counting asks for an empty window. Commands are built
here, never sent. -/

namespace IndexQuery

inductive Argument where
  | text (value : String)
  | octets (value : List UInt8)
deriving DecidableEq, Repr

namespace Argument

def nat (n : Nat) : Argument := .text (toString n)

/-- An argument as it is shown. Octets are shown as the text they encode, and only counted when
they encode none. -/
def describe : Argument → String
  | .text value => value
  | .octets value =>
    match Text.decodeUtf8? value with
    | some cs => String.ofList cs
    | none => s!"<{value.length} bytes>"

end Argument

abbrev Command := List Argument

namespace Command

open Argument (text nat octets)

/-- The sort part. Without a sort key, neighbours are sorted by their distance. -/
def sortPart (tree : Tree) (sort : Option SearchSort) (config : SearchConfig) : Command :=
  match sort, tree.clause? with
  | some key, _ => [text "SORTBY", text key.key, text key.order.keyword]
  | none, some _ => [text "SORTBY", text config.scoreField, text SortOrder.asc.keyword]
  | none, none => []

def pagePart (page : Page) : Command := [text "LIMIT", nat page.offset, nat page.size]

/-- The parameter part; the count is of names and values together. -/
def paramPart (params : List (String × List UInt8)) : Command :=
  if params.isEmpty then []
  else text "PARAMS" :: nat (2 * params.length) ::
    params.flatMap fun (name, blob) => [text name, octets blob]

/-- A search for one window of the results. -/
def search (index : String) (tree : Tree) (sort : Option SearchSort) (page : Page)
    (config : SearchConfig) : Command :=
  let rendered := tree.rendered config
  [text "FT.SEARCH", text index, text rendered.query] ++ sortPart tree sort config ++
    pagePart page ++ paramPart rendered.params ++ [text "DIALECT", nat config.dialect]

def count (index : String) (tree : Tree) (config : SearchConfig) : Command :=
  let rendered := tree.rendered config
  [text "FT.SEARCH", text index, text rendered.query] ++ pagePart ⟨0, 0⟩ ++
    paramPart rendered.params ++ [text "DIALECT", nat config.dialect]

def describe (c : Command) : List String := c.map Argument.describe

end Command

namespace SearchStream

def command (s : SearchStream) (config : SearchConfig) : Command :=
  Command.search s.schema.index s.compile s.sort ⟨s.offset, config.clampPageSize s.limit⟩ config

def countCommand (s : SearchStream) (config : SearchConfig) : Command :=
  Command.count s.schema.index s.compile config

end SearchStream

end IndexQuery
