import IndexQuery.Field
import IndexQuery.Literal
set_option autoImplicit false

/-! # From operands to literals

The functions below turn operands into what a query compares a field with, as the type of the field
demands, and refuse operands that do not fit. Whatever they let through needs no further check: a
number is a number, a circle lies on the globe, a vector has the dimension of its field.

Some conversions lose precision, always in the same way: decimals become doubles, and dates and
instants become milliseconds since the start of 1970, a day counting from its start in universal
time. -/

namespace IndexQuery

namespace Encoding

/-! ## Refusals -/

/-- The operand does not fit the type of the field. -/
def mismatch (f : Field) (v : Operand) : QueryError := .typeMismatch f.name f.type v.kindName

/-- The operator is not defined for the type of the field. -/
def unsupported (f : Field) (op : Operator) : QueryError :=
  .unsupportedOperator f.name op f.type

/-- The operator needs an operand. -/
def missing (f : Field) (op : Operator) : QueryError := .missingOperand f.name op

/-! ## Single values -/

/-- The number an operand stands for, if it stands for one. -/
def number? : Operand → Option Double
  | .int n => some (Double.ofInt n)
  | .float x => some x
  | .decimal d => some d.toDouble
  | .date d => some (Double.ofInt d.millis)
  | .instant t => some (Double.ofInt t.millis)
  | .localTime t => some (Double.ofInt t.millis)
  | _ => none

/-- The end of a range. -/
def numericOperand (f : Field) (v : Operand) : Except QueryError Double :=
  match number? v with
  | none => .error (mismatch f v)
  | some x => if x.isNaN then .error (.typeMismatch f.name f.type "NaN") else .ok x

/-- The text of a text or tag literal. A tag may also be a whole number. -/
def stringOperand (f : Field) (v : Operand) : Except QueryError String :=
  match v with
  | .text s => .ok s
  | .int n => if f.type = .tag then .ok (toString n) else .error (mismatch f v)
  | _ => .error (mismatch f v)

def booleanOperand (f : Field) (v : Operand) : Except QueryError Bool :=
  match v with
  | .bool b => .ok b
  | _ => .error (mismatch f v)

/-! ## Literals -/

def equalityLiteral (f : Field) (op : Operator) (v : Operand) : Except QueryError Literal :=
  match f.type with
  | .text => (stringOperand f v).map (.text .exact)
  | .tag => (stringOperand f v).map (.tag .exact)
  | .numeric | .date => (numericOperand f v).map fun x => .numeric (.exact x)
  | .boolean => (booleanOperand f v).map .boolean
  | .geo | .vector => .error (unsupported f op)

/-- The tag mode that corresponds to a text mode; there is no fuzzy one. -/
def tagMode? : TextMode → Option TagMode
  | .exact => some .exact
  | .starts => some .starts
  | .ends => some .ends
  | .contains => some .contains
  | .fuzzy => none

def patternLiteral (f : Field) (op : Operator) (v : Operand) (mode : TextMode) :
    Except QueryError Literal :=
  match f.type with
  | .text => (stringOperand f v).map (.text mode)
  | .tag =>
    match tagMode? mode with
    | none => .error (unsupported f op)
    | some mode => (stringOperand f v).map (.tag mode)
  | _ => .error (unsupported f op)

/-! ## Circles and neighbours -/

/-- The largest latitude the index can hold, in either direction. -/
def maxLatitude : Double := Double.ofDecimal false 8505112878 (-8)

def maxLongitude : Double := Double.ofDecimal false 180 0

/-- A circle, checked: the radius first, then the longitude, then the latitude. -/
def geoCircle (f : Field) (center : GeoPoint) (radius : Double) (unit : GeoUnit) :
    Except QueryError GeoCircle :=
  if !radius.isFinite || radius.le (Double.zero false) then
    .error (.invalidGeoParameter f.name (.radius radius))
  else if !center.lon.isFinite || maxLongitude.lt center.lon.abs then
    .error (.invalidGeoParameter f.name (.longitude center.lon))
  else if !center.lat.isFinite || maxLatitude.lt center.lat.abs then
    .error (.invalidGeoParameter f.name (.latitude center.lat maxLatitude))
  else .ok ⟨center, radius, unit⟩

/-- Whether a number can bound a distance. -/
def isThreshold (x : Double) : Bool := x.isFinite && !x.lt (Double.zero false)

/-- A search for neighbours, checked: the field, the kind of the operand, its dimension, the number
of neighbours, the components, and the bound on the distance, in this order. -/
def knnClause (f : Field) (op : Operator) (v : Operand) (k : Nat) (threshold : Option Double) :
    Except QueryError KnnClause :=
  match f.vectorParams with
  | none => .error (unsupported f op)
  | some params =>
    match v with
    | .vector vector =>
      if vector.length ≠ params.dimension then
        .error (.dimensionMismatch f.name params.dimension vector.length)
      else if k = 0 then .error (.invalidVectorParameter f.name .noNeighbours)
      else if vector.any (!·.isFinite) then
        .error (.invalidVectorParameter f.name .notFinite)
      else match threshold.filter (!isThreshold ·) with
        | some bound => .error (.invalidVectorParameter f.name (.threshold bound))
        | none => .ok ⟨f.key, k, vector, params.elementType, params.metric, threshold⟩
    | _ => .error (mismatch f v)

end Encoding

end IndexQuery
