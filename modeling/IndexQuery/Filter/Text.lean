import IndexQuery.QueryError
import IndexQuery.Text.Blank
set_option autoImplicit false

/-! # Filters as text

A filter is written `field:operator:value`. `Filter.ofText` takes it apart: the field and the
operator may have blanks around them, the operator in any case, and the value may contain colons.
How the value is cut depends on the operator: a list at bars and commas, a range or a circle at
commas, all others not at all. Only `missing` has no value. -/

namespace IndexQuery

/-! ## Operators -/

inductive FilterOperator where
  | eq
  | ne
  | gt
  | gte
  | lt
  | lte
  | range
  | isIn
  | notIn
  | all
  | bool
  | missing
  | starts
  | ends
  | contains
  | fuzzy
  | near
deriving DecidableEq, Repr

namespace FilterOperator

/-- The words for operators; `bool` has two. -/
def vocabulary : List (String × FilterOperator) :=
  [("eq", eq), ("ne", ne), ("gt", gt), ("gte", gte), ("lt", lt), ("lte", lte), ("range", range),
    ("in", isIn), ("nin", notIn), ("all", all), ("bool", bool), ("boolean", bool),
    ("missing", missing), ("prefix", starts), ("suffix", ends), ("contains", contains),
    ("fuzzy", fuzzy), ("near", near)]

/-- The operator a text names, blanks around it and its case left aside. -/
def ofText (raw : List Char) : Except QueryError FilterOperator :=
  let word := String.ofList (Text.lowerLatin (Text.trim raw))
  match vocabulary.lookup word with
  | some op => .ok op
  | none => .error (.invalidRequest (.unknownOperator word))

end FilterOperator

/-! ## Filters -/

/-- A textual filter taken apart. Its values have no type yet. -/
structure Filter where
  field : String
  operator : FilterOperator
  values : List String
deriving DecidableEq, Repr

namespace Filter

/-- The pieces between characters of a class, without the blanks around them. -/
def trimmedPieces (p : Char → Bool) (s : List Char) : List (List Char) :=
  (s.splitOnP p).map Text.trim

def valuesOf (op : FilterOperator) (value : List Char) : List (List Char) :=
  match op with
  | .isIn | .notIn | .all =>
    (trimmedPieces (fun c => c == '|' || c == ',') value).filter (!·.isEmpty)
  | .range | .near => trimmedPieces (· == ',') value
  | .missing => []
  | .starts | .ends | .contains | .fuzzy => [value]
  | .eq | .ne | .gt | .gte | .lt | .lte | .bool => [Text.trim value]

/-- The filter with a field, an operator and a value. -/
def ofParts (malformed : QueryError) (field : List Char) (op : FilterOperator)
    (value : List Char) : Except QueryError Filter :=
  let name := Text.trim field
  if name.isEmpty then .error malformed
  else .ok ⟨String.ofList name, op, (valuesOf op value).map String.ofList⟩

/-- Takes a textual filter apart. -/
def ofText (raw : String) : Except QueryError Filter :=
  let malformed : QueryError := .invalidRequest (.malformedFilter raw)
  match Text.splitFirst ':' raw.toList with
  | none => .error malformed
  | some (field, rest) =>
    match Text.splitFirst ':' rest with
    | some (word, value) => do
      let op ← FilterOperator.ofText word
      ofParts malformed field op value
    | none => do
      let op ← FilterOperator.ofText rest
      if op = .missing then ofParts malformed field op [] else .error malformed

end Filter

end IndexQuery
