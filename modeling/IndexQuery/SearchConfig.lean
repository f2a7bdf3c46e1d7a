import IndexQuery.QueryError
import IndexQuery.Data.TomlReading
set_option autoImplicit false

/-! # Search settings

The settings of a search: the dialect of the query language, page sizes, and two names that appear
in searches for nearest neighbours. They are kept in a TOML document under the table `search`;
whatever is missing there has a default. `validated` refuses settings that could not work. -/

namespace IndexQuery

structure SearchConfig where
  /-- the dialect of the query language -/
  dialect : Nat := 3
  /-- the page size of a request that does not name one -/
  defaultPageSize : Nat := 25
  maxPageSize : Nat := 100
  /-- the name under which the distance of a neighbour is returned -/
  scoreField : String := "__score"
  /-- the name of the parameter that holds the vector -/
  vectorParam : String := "vector_blob"
deriving DecidableEq, Repr, Inhabited

namespace SearchConfig

def default : SearchConfig := {}

/-- Searches for neighbours need this dialect. -/
def leastDialect : Nat := 2

/-- A name of basic Latin letters, digits and underscores. -/
def isName (s : List Char) : Bool := !s.isEmpty && s.all fun c => c.isAlphanum || c == '_'

/-- The settings, if they can work. -/
def validated (c : SearchConfig) : Except QueryError SearchConfig :=
  if c.dialect < leastDialect then .error (.config (.dialect leastDialect c.dialect))
  else if c.maxPageSize = 0 ∨ c.defaultPageSize = 0 then .error (.config .zeroPageSize)
  else if c.maxPageSize < c.defaultPageSize then
    .error (.config (.defaultAboveMaximum c.defaultPageSize c.maxPageSize))
  else if !isName c.scoreField.toList then
    .error (.config (.notIdentifier "score_field" c.scoreField))
  else if !isName c.vectorParam.toList then
    .error (.config (.notIdentifier "vector_param" c.vectorParam))
  else .ok c

/-- A page size within the limits; at least one, whatever the settings say. -/
def clampPageSize (c : SearchConfig) (requested : Option Nat) : Nat :=
  max 1 (min (requested.getD c.defaultPageSize) (max c.maxPageSize 1))

/-! ## As data -/

def keys : List String :=
  ["dialect", "default_page_size", "max_page_size", "score_field", "vector_param"]

def toDatum (c : SearchConfig) : Datum :=
  .record [("dialect", .nat c.dialect), ("default_page_size", .nat c.defaultPageSize),
    ("max_page_size", .nat c.maxPageSize), ("score_field", .text c.scoreField),
    ("vector_param", .text c.vectorParam)]

/-- The settings in a record, not validated. -/
def ofDatum? (format : DataFormat) (d : Datum) : Option SearchConfig := do
  let entries ← d.entries? format keys
  let dialect ← Datum.withDefault? entries "dialect" (Datum.natBelow? 256) default.dialect
  let size ← Datum.withDefault? entries "default_page_size" Datum.nat64? default.defaultPageSize
  let most ← Datum.withDefault? entries "max_page_size" Datum.nat64? default.maxPageSize
  let score ← Datum.withDefault? entries "score_field" Datum.text? default.scoreField
  let vector ← Datum.withDefault? entries "vector_param" Datum.text? default.vectorParam
  some ⟨dialect, size, most, score, vector⟩

/-- The validated settings of a TOML document. -/
def ofToml (source : String) : Except SettingsError SearchConfig :=
  match (Datum.ofToml? source.toList).bind fun d =>
      (d.entries? .toml ["search"]).bind fun entries =>
        Datum.withDefault? entries "search" (ofDatum? .toml) default with
  | none => .error .malformed
  | some config => config.validated.mapError .rejected

end SearchConfig

end IndexQuery
