import IndexQuery.Predicate
import IndexQuery.QueryText.Rendering
import IndexQuery.Schema
set_option autoImplicit false

/-! # Search streams

A `SearchStream` collects what a search over one entity asks for: predicates in order, a sort key,
and a window of the results. `compile` folds the predicates into one tree. -/

namespace IndexQuery

/-! ## Sorting -/

inductive SortOrder where
  | asc
  | desc
deriving DecidableEq, Repr

namespace SortOrder

def keyword : SortOrder → String
  | asc => "ASC"
  | desc => "DESC"

def word : SortOrder → String
  | asc => "asc"
  | desc => "desc"

def ofWord? (w : String) : Option SortOrder := [asc, desc].find? (·.word = w)

/-- The direction a text names, blanks around it and its case left aside. -/
def ofText? (raw : String) : Option SortOrder :=
  ofWord? (String.ofList (Text.lowerLatin (Text.trim raw.toList)))

end SortOrder

/-- A sort key of the index with a direction. -/
structure SearchSort where
  /-- the key of the field in the index -/
  key : String
  order : SortOrder
deriving DecidableEq, Repr

/-! ## Pages -/

/-- The largest number an offset can hold. -/
def maxOffset : Nat := 2 ^ 64 - 1

/-- A window of the results. -/
structure Page where
  /-- the number of results before the window -/
  offset : Nat
  size : Nat
deriving DecidableEq, Repr

namespace Page

/-- The window of a page. Pages are numbered from one, and there is no page before the first. An
offset beyond the largest number is that number. -/
def numbered (page size : Nat) : Page := ⟨min ((page - 1) * size) maxOffset, size⟩

end Page

/-! ## Streams -/

/-- What a search over one entity asks for. -/
structure SearchStream where
  schema : Schema
  predicates : List Predicate := []
  sort : Option SearchSort := none
  /-- the number of results to skip -/
  offset : Nat := 0
  /-- the page size asked for, if one was asked for -/
  limit : Option Nat := none
deriving DecidableEq

namespace SearchStream

/-- Adds a predicate behind the others. -/
def filter (s : SearchStream) (p : Predicate) : SearchStream :=
  { s with predicates := s.predicates ++ [p] }

/-- Sorts by a field, which must be open to sorting. -/
def sortedBy (s : SearchStream) (name : String) (order : SortOrder) :
    Except QueryError SearchStream :=
  (s.schema.field name).bind fun f =>
    if f.sortable then .ok { s with sort := some ⟨f.key, order⟩ }
    else .error (.notSortable f.name)

def skip (s : SearchStream) (offset : Nat) : SearchStream := { s with offset := offset }

def take (s : SearchStream) (limit : Nat) : SearchStream := { s with limit := some limit }

def compile (s : SearchStream) : Tree := Predicate.compile s.predicates

def rendered (s : SearchStream) (config : SearchConfig) : RenderedQuery :=
  s.compile.rendered config

end SearchStream

end IndexQuery
