import IndexQuery.Predicate
set_option autoImplicit false

/-! # Queries as data

Trees, literals and criteria as records, for reports. A number that is not finite has no place in
data and becomes the absent value. The numbers of data are in double precision, those of vectors
too. So the dump of a tree is the JSON value, and a text of this value has the digits of the wider
number where a text written from the tree itself has the fewer ones of single precision. -/

namespace IndexQuery

namespace Bound

def toDatum : Bound → Datum
  | unbounded => .record [("kind", .text "unbounded")]
  | inclusive x => .record [("kind", .text "inclusive"), ("value", .number x)]
  | exclusive x => .record [("kind", .text "exclusive"), ("value", .number x)]

end Bound

namespace NumericRange

def entries (r : NumericRange) : List (String × Datum) :=
  [("lower", r.lower.toDatum), ("upper", r.upper.toDatum)]

end NumericRange

namespace GeoCircle

def entries (c : GeoCircle) : List (String × Datum) :=
  [("center", .record [("lon", .number c.center.lon), ("lat", .number c.center.lat)]),
    ("radius", .number c.radius), ("unit", .text c.unit.word)]

end GeoCircle

namespace TextMode

def word : TextMode → String
  | exact => "exact"
  | starts => "prefix"
  | ends => "suffix"
  | contains => "contains"
  | fuzzy => "fuzzy"

end TextMode

namespace TagMode

def word : TagMode → String
  | exact => "exact"
  | starts => "prefix"
  | ends => "suffix"
  | contains => "contains"

end TagMode

namespace Literal

def toDatum : Literal → Datum
  | text mode value =>
    .record [("kind", .text "text"), ("mode", .text mode.word), ("value", .text value)]
  | tag mode value =>
    .record [("kind", .text "tag"), ("mode", .text mode.word), ("value", .text value)]
  | numeric range => .record (("kind", .text "numeric") :: range.entries)
  | geo circle => .record (("kind", .text "geo") :: circle.entries)
  | missing => .record [("kind", .text "missing")]

end Literal

namespace KnnClause

/-- The record of a search for neighbours. The components of the vector are widened. -/
def toDatum (c : KnnClause) : Datum :=
  .record [("alias", .text c.key), ("k", .nat c.k),
    ("vector", .list (c.vector.map fun x => .number x.toDouble)),
    ("element_type", .text c.elementType.word), ("metric", .text c.metric.word),
    ("threshold", .orNull .number c.threshold)]

end KnnClause

namespace Tree

mutual

def toDatum : Tree → Datum
  | root => .record [("node", .text "root")]
  | term key literal =>
    .record [("node", .text "term"), ("alias", .text key), ("value", literal.toDatum)]
  | intersect children =>
    .record [("node", .text "intersect"), ("children", .list (childData children))]
  | union key literals =>
    .record [("node", .text "union"), ("alias", .text key),
      ("alternatives", .list (literals.map Literal.toDatum))]
  | negatedUnion key literals =>
    .record [("node", .text "negated_union"), ("alias", .text key),
      ("alternatives", .list (literals.map Literal.toDatum))]
  | knn filter clause =>
    .record [("node", .text "knn"), ("filter", filter.toDatum), ("clause", clause.toDatum)]

def childData : List Tree → List Datum
  | [] => []
  | child :: rest => child.toDatum :: childData rest

end

end Tree

namespace Criterion

def toDatum : Criterion → Datum
  | unconstrained => .record [("kind", .text "unconstrained")]
  | term literal => .record [("kind", .text "match"), ("terms", literal.toDatum)]
  | anyOf literals =>
    .record [("kind", .text "any_of"), ("terms", .list (literals.map Literal.toDatum))]
  | allOf literals =>
    .record [("kind", .text "all_of"), ("terms", .list (literals.map Literal.toDatum))]
  | noneOf literals =>
    .record [("kind", .text "none_of"), ("terms", .list (literals.map Literal.toDatum))]
  | nearest clause => .record [("kind", .text "nearest"), ("terms", clause.toDatum)]

end Criterion

end IndexQuery
