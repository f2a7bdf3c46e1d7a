import IndexQuery.Encoding
import IndexQuery.Tree
set_option autoImplicit false

/-! # Conditions and predicates

A `Condition` is a question about a field, with operands that may not fit. A `Predicate` is a
question that fits: `Predicate.of` checks the operator against the type of the field, applies the
rule for empty operands, and encodes the operands. All errors arise there; adding a predicate to a
tree cannot fail. -/

namespace IndexQuery

/-! ## Conditions -/

/-- A question about a field. -/
inductive Condition where
  | equal (value : Operand)
  | notEqual (value : Operand)
  /-- any of the members of the operand -/
  | isIn (values : Operand)
  /-- none of the members of the operand -/
  | notIn (values : Operand)
  /-- all of the members of the operand -/
  | containsAll (values : Operand)
  /-- both ends included -/
  | between (lower upper : Operand)
  | greaterThan (value : Operand)
  | atLeast (value : Operand)
  | lessThan (value : Operand)
  | atMost (value : Operand)
  | isTrue
  | isFalse
  /-- documents without a value for the field -/
  | isMissing
  | startsWith (value : Operand)
  | endsWith (value : Operand)
  | containing (value : Operand)
  /-- equal up to one edit -/
  | like (value : Operand)
  | near (center : GeoPoint) (radius : Double) (unit : GeoUnit)
  /-- the nearest neighbours of a vector, within a distance if one is given -/
  | nearest (vector : Operand) (k : Nat) (threshold : Option Double)

def Condition.operator : Condition → Operator
  | equal _ => .equal
  | notEqual _ => .notEqual
  | isIn _ => .isIn
  | notIn _ => .notIn
  | containsAll _ => .containsAll
  | between _ _ => .between
  | greaterThan _ => .greaterThan
  | atLeast _ => .greaterThanOrEqual
  | lessThan _ => .lessThan
  | atMost _ => .lessThanOrEqual
  | isTrue => .isTrue
  | isFalse => .isFalse
  | isMissing => .isMissing
  | startsWith _ => .startsWith
  | endsWith _ => .endsWith
  | containing _ => .containing
  | like _ => .like
  | near _ _ _ => .near
  | nearest _ _ _ => .vectorSimilarity

/-! ## Criteria -/

/-- The encoded operand of a predicate. -/
inductive Criterion where
  /-- any document -/
  | unconstrained
  | term (literal : Literal)
  | anyOf (literals : List Literal)
  | allOf (literals : List Literal)
  | noneOf (literals : List Literal)
  | nearest (clause : KnnClause)
deriving DecidableEq

/-- A question about a field that fits the field. -/
structure Predicate where
  field : Field
  operator : Operator
  /-- the encoded operand -/
  criterion : Criterion
deriving DecidableEq

namespace Predicate

open Encoding

/-! ## Encoding -/

/-- The rule for empty operands: for some operators they ask for nothing, for the others they are
an error. -/
def unlessEmpty (f : Field) (op : Operator) (v : Operand)
    (encoded : Except QueryError Criterion) : Except QueryError Criterion :=
  if v.isEmpty then
    if op.unconstrainedWhenEmpty then .ok .unconstrained else .error (missing f op)
  else encoded

/-- The literals of the members of an operand. -/
def memberLiterals (f : Field) (op : Operator) (v : Operand) :
    Except QueryError (List Literal) :=
  v.members.mapM (equalityLiteral f op)

/-- The end of a range; an empty operand is an error. -/
def boundOf (f : Field) (op : Operator) (v : Operand) : Except QueryError Double :=
  if v.isEmpty then .error (missing f op) else numericOperand f v

/-- A criterion on one end of a range. -/
def comparison (f : Field) (op : Operator) (v : Operand) (range : Double → NumericRange) :
    Except QueryError Criterion :=
  (boundOf f op v).map fun x => .term (.numeric (range x))

def pattern (f : Field) (op : Operator) (v : Operand) (mode : TextMode) :
    Except QueryError Criterion :=
  unlessEmpty f op v ((patternLiteral f op v mode).map .term)

/-- The encoded operand of a condition whose operator fits the field. -/
def criterionOf (f : Field) (c : Condition) : Except QueryError Criterion :=
  let op := c.operator
  match c with
  | .equal v => unlessEmpty f op v ((equalityLiteral f op v).map .term)
  | .notEqual v => unlessEmpty f op v ((equalityLiteral f op v).map fun l => .noneOf [l])
  | .isIn v => unlessEmpty f op v ((memberLiterals f op v).map .anyOf)
  | .notIn v => unlessEmpty f op v ((memberLiterals f op v).map .noneOf)
  | .containsAll v => unlessEmpty f op v ((memberLiterals f op v).map .allOf)
  | .between lower upper => do
    let low ← boundOf f op lower
    let high ← boundOf f op upper
    .ok (.term (.numeric (.between low high)))
  | .greaterThan v => comparison f op v .greaterThan
  | .atLeast v => comparison f op v .atLeast
  | .lessThan v => comparison f op v .lessThan
  | .atMost v => comparison f op v .atMost
  | .isTrue => .ok (.term (.boolean true))
  | .isFalse => .ok (.term (.boolean false))
  | .isMissing => .ok (.term .missing)
  | .startsWith v => pattern f op v .starts
  | .endsWith v => pattern f op v .ends
  | .containing v => pattern f op v .contains
  | .like v => pattern f op v .fuzzy
  | .near center radius unit =>
    (geoCircle f center radius unit).map fun circle => .term (.geo circle)
  | .nearest v k threshold =>
    if v.isEmpty then .error (missing f op) else (knnClause f op v k threshold).map .nearest

/-- The predicate of a condition on a field. -/
def of (f : Field) (c : Condition) : Except QueryError Predicate :=
  if c.operator.supports f.type then
    (criterionOf f c).map fun criterion => ⟨f, c.operator, criterion⟩
  else .error (unsupported f c.operator)

/-! ## Effect on a tree -/

/-- Whether the predicate asks for nothing. -/
def isUnconstrained (p : Predicate) : Bool := p.criterion matches .unconstrained

/-- The tree with one more predicate. Even a single value is excluded by a negated union, because
the query language negates groups only. -/
def apply (p : Predicate) (tree : Tree) : Tree :=
  match p.criterion with
  | .unconstrained => tree
  | .term literal => tree.and (.term p.field.key literal)
  | .anyOf literals => tree.and (.union p.field.key literals)
  | .allOf literals => literals.foldl (fun t literal => t.and (.term p.field.key literal)) tree
  | .noneOf literals => tree.and (.negatedUnion p.field.key literals)
  | .nearest clause => tree.withClause clause

/-- The tree of all predicates of a list, in order. -/
def compile (ps : List Predicate) : Tree := ps.foldl (fun tree p => p.apply tree) .root

end Predicate

end IndexQuery
