import IndexQuery.FieldType
set_option autoImplicit false

/-! # Operators

What can be asked of a field. `types` is the table of the field types an operator is defined for;
`unconstrainedWhenEmpty` tells for which operators an empty operand asks for nothing, rather than
being an error. -/

namespace IndexQuery

/-- What can be asked of a field. -/
inductive Operator where
  | equal
  | notEqual
  | isIn
  | notIn
  | between
  | greaterThan
  | greaterThanOrEqual
  | lessThan
  | lessThanOrEqual
  | isTrue
  | isFalse
  | isMissing
  | startsWith
  | endsWith
  | containing
  | like
  | containsAll
  | near
  | vectorSimilarity
deriving DecidableEq, Repr

namespace Operator

def all : List Operator :=
  [equal, notEqual, isIn, notIn, between, greaterThan, greaterThanOrEqual, lessThan,
    lessThanOrEqual, isTrue, isFalse, isMissing, startsWith, endsWith, containing, like,
    containsAll, near, vectorSimilarity]

/-- The name in error messages. -/
def label : Operator → String
  | equal => "Equal"
  | notEqual => "NotEqual"
  | isIn => "In"
  | notIn => "NotIn"
  | between => "Between"
  | greaterThan => "GreaterThan"
  | greaterThanOrEqual => "GreaterThanOrEqual"
  | lessThan => "LessThan"
  | lessThanOrEqual => "LessThanOrEqual"
  | isTrue => "IsTrue"
  | isFalse => "IsFalse"
  | isMissing => "IsMissing"
  | startsWith => "StartsWith"
  | endsWith => "EndsWith"
  | containing => "Containing"
  | like => "Like"
  | containsAll => "ContainsAll"
  | near => "Near"
  | vectorSimilarity => "VectorSimilarity"

def ofLabel? (name : String) : Option Operator := all.find? (·.label = name)

/-- Whether an empty operand means that any document will do. -/
def unconstrainedWhenEmpty : Operator → Bool
  | equal | notEqual | isIn | notIn | startsWith | endsWith | containing | like | containsAll =>
    true
  | _ => false

/-- The types of the fields an operator is defined for. -/
def types : Operator → List FieldType
  | equal | notEqual => [.text, .tag, .numeric, .boolean, .date]
  | isIn | notIn => [.text, .tag, .numeric, .date]
  | between | greaterThan | greaterThanOrEqual | lessThan | lessThanOrEqual => [.numeric, .date]
  | isTrue | isFalse => [.boolean]
  | isMissing => FieldType.all
  | startsWith | endsWith | containing => [.text, .tag]
  | like => [.text]
  | containsAll => [.tag]
  | near => [.geo]
  | vectorSimilarity => [.vector]

def supports (op : Operator) (type : FieldType) : Bool := op.types.contains type

end Operator

end IndexQuery
