import IndexQuery.Data.Datum
set_option autoImplicit false

/-! # Tables under construction

A TOML document builds nested tables by headers and by dotted keys, and what may still be added to
a table depends on how it came to be. `TomlTable.Origin` records that: a table opened by its own
header, a table that exists only because a header named something below it, or a table made by a
dotted key. `openTable`, `openArray` and `assign` are the three ways to add to a document; each
fails where the document would define something twice. -/

namespace IndexQuery

namespace TomlTable

/-- How a table came to be. -/
inductive Origin where
  /-- opened by a header of its own -/
  | header
  /-- named on the way by a header of a table below it -/
  | path
  /-- made by a dotted key -/
  | dotted
deriving DecidableEq

end TomlTable

/-- What stands under a key of a table under construction. -/
inductive TomlItem where
  | value (d : Datum)
  | table (origin : TomlTable.Origin) (entries : List (String × TomlItem))
  /-- an array of tables, the last one first -/
  | tables (reversed : List (List (String × TomlItem)))

namespace TomlTable

/-- The entries of a table, in order of definition. -/
abbrev Entries := List (String × TomlItem)

/-- Puts another item under a key that is there. -/
def replace (key : String) (item : TomlItem) (entries : Entries) : Entries :=
  entries.map fun (k, old) => if k = key then (k, item) else (k, old)

/-- Changes the table at the end of a path. Missing tables on the way are made; in an array of
tables the way leads through the last one. -/
def changeAt (change : Entries → Option Entries) : List String → Entries → Option Entries
  | [], entries => change entries
  | key :: path, entries =>
    match entries.lookup key with
    | none => (changeAt change path []).map fun sub => entries ++ [(key, .table .path sub)]
    | some (.table origin sub) =>
      (changeAt change path sub).map fun sub => replace key (.table origin sub) entries
    | some (.tables (last :: earlier)) =>
      (changeAt change path last).map fun last => replace key (.tables (last :: earlier)) entries
    | some _ => none

/-- Opens the table of a header. A table may be opened once, and not after it was made by a dotted
key. -/
def openTable (path : List String) (key : String) : Entries → Option Entries :=
  changeAt (fun entries =>
    match entries.lookup key with
    | none => some (entries ++ [(key, .table .header [])])
    | some (.table .path sub) => some (replace key (.table .header sub) entries)
    | some _ => none) path

/-- Opens a new table of an array of tables. -/
def openArray (path : List String) (key : String) : Entries → Option Entries :=
  changeAt (fun entries =>
    match entries.lookup key with
    | none => some (entries ++ [(key, .tables [[]])])
    | some (.tables reversed) => some (replace key (.tables ([] :: reversed)) entries)
    | some _ => none) path

/-- Assigns a value to a key behind a dotted path, inside the current table; `atDotted` tells
whether the entries at hand belong to a table made by a dotted key. -/
def assignFrom (atDotted : Bool) (key : String) (value : Datum) :
    List String → Entries → Option Entries
  | [], entries =>
    if !atDotted || (entries.lookup key).isSome then none
    else some (entries ++ [(key, .value value)])
  | part :: path, entries =>
    match entries.lookup part with
    | none =>
      (assignFrom true key value path []).map fun sub => entries ++ [(part, .table .dotted sub)]
    | some (.table .header _) => none
    | some (.table origin sub) =>
      (assignFrom (origin = .dotted) key value path sub).map fun sub =>
        replace part (.table origin sub) entries
    | some (.tables (last :: earlier)) =>
      (assignFrom false key value path last).map fun last =>
        replace part (.tables (last :: earlier)) entries
    | some _ => none

/-- Assigns a value to a dotted key of the current table. A key is assigned once. -/
def assign (path : List String) (key : String) (value : Datum) (entries : Entries) :
    Option Entries :=
  assignFrom path.isEmpty key value path entries

end TomlTable

mutual

def TomlItem.toDatum : TomlItem → Datum
  | .value d => d
  | .table _ entries => .record (TomlTable.entriesToData entries)
  | .tables reversed => .list (TomlTable.recordsToData reversed).reverse

def TomlTable.entriesToData : List (String × TomlItem) → List (String × Datum)
  | [] => []
  | (key, item) :: rest => (key, item.toDatum) :: TomlTable.entriesToData rest

def TomlTable.recordsToData : List (List (String × TomlItem)) → List Datum
  | [] => []
  | entries :: rest => .record (TomlTable.entriesToData entries) :: TomlTable.recordsToData rest

end

end IndexQuery
