import IndexQuery.FieldType
import IndexQuery.Operand
import IndexQuery.Text.Blank
set_option autoImplicit false

/-! # Literals

Literals are what a query compares a field with: a text or a tag in one of several modes, a range
of numbers, a circle on the globe, or the absence of a value. A search for nearest neighbours has
its own clause. -/

namespace IndexQuery

/-! ## Modes -/

/-- How a text literal meets the words of a text. -/
inductive TextMode where
  /-- as a phrase -/
  | exact
  /-- its last word as the start of a word -/
  | starts
  /-- its first word as the end of a word -/
  | ends
  /-- each word as a part of a word -/
  | contains
  /-- each word up to one edit -/
  | fuzzy
deriving DecidableEq, Repr

/-- How a tag literal meets a tag. -/
inductive TagMode where
  | exact
  | starts
  | ends
  | contains
deriving DecidableEq, Repr

/-! ## Ranges -/

/-- One end of a range. -/
inductive Bound where
  | unbounded
  | inclusive (value : Double)
  | exclusive (value : Double)
deriving DecidableEq, Repr

namespace Bound

/-- Whether a number lies above the bound, taken as a lower one. -/
def admitsAbove (bound : Bound) (x : Double) : Bool :=
  match bound with
  | unbounded => true
  | inclusive b => b.le x
  | exclusive b => b.lt x

/-- Whether a number lies below the bound, taken as an upper one. -/
def admitsBelow (bound : Bound) (x : Double) : Bool :=
  match bound with
  | unbounded => true
  | inclusive b => x.le b
  | exclusive b => x.lt b

/-- Equality of bounds, numbers compared as numbers. -/
def same : Bound → Bound → Bool
  | unbounded, unbounded => true
  | inclusive a, inclusive b => a.eq b
  | exclusive a, exclusive b => a.eq b
  | _, _ => false

end Bound

structure NumericRange where
  lower : Bound
  upper : Bound
deriving DecidableEq, Repr

namespace NumericRange

def exact (x : Double) : NumericRange := ⟨.inclusive x, .inclusive x⟩

def between (lower upper : Double) : NumericRange := ⟨.inclusive lower, .inclusive upper⟩

def greaterThan (x : Double) : NumericRange := ⟨.exclusive x, .unbounded⟩

def atLeast (x : Double) : NumericRange := ⟨.inclusive x, .unbounded⟩

def lessThan (x : Double) : NumericRange := ⟨.unbounded, .exclusive x⟩

def atMost (x : Double) : NumericRange := ⟨.unbounded, .inclusive x⟩

def contains (r : NumericRange) (x : Double) : Bool :=
  r.lower.admitsAbove x && r.upper.admitsBelow x

def same (a b : NumericRange) : Bool := a.lower.same b.lower && a.upper.same b.upper

end NumericRange

/-! ## Circles -/

inductive GeoUnit where
  | m
  | km
  | mi
  | ft
deriving DecidableEq, Repr

namespace GeoUnit

def word : GeoUnit → String
  | m => "m"
  | km => "km"
  | mi => "mi"
  | ft => "ft"

/-- The length of a unit in metres. -/
def meters : GeoUnit → Double
  | m => Double.ofDecimal false 1 0
  | km => Double.ofDecimal false 1000 0
  | mi => Double.ofDecimal false 1609344 (-3)
  | ft => Double.ofDecimal false 3048 (-4)

/-- The unit a word names, blanks around it and its case left aside. -/
def ofText? (raw : String) : Option GeoUnit :=
  let word := String.ofList (Text.lowerLatin (Text.trim raw.toList))
  [m, km, mi, ft].find? (·.word = word)

end GeoUnit

/-- A circle on the globe. -/
structure GeoCircle where
  center : GeoPoint
  /-- its radius, in the unit -/
  radius : Double
  unit : GeoUnit
deriving DecidableEq, Repr

namespace GeoCircle

def radiusMeters (c : GeoCircle) : Double := c.radius.mul c.unit.meters

def same (a b : GeoCircle) : Bool :=
  a.center.lon.eq b.center.lon && a.center.lat.eq b.center.lat && a.radius.eq b.radius &&
    a.unit == b.unit

end GeoCircle

/-! ## Literals -/

/-- What a field is compared with. -/
inductive Literal where
  | text (mode : TextMode) (value : String)
  | tag (mode : TagMode) (value : String)
  | numeric (range : NumericRange)
  | geo (circle : GeoCircle)
  /-- the document has no value for the field -/
  | missing
deriving DecidableEq, Repr

namespace Literal

/-- Truth values are indexed as the tags `true` and `false`. -/
def boolean (flag : Bool) : Literal := .tag .exact (if flag then "true" else "false")

/-- Equality of literals, numbers compared as numbers. -/
def same : Literal → Literal → Bool
  | text m v, text m' v' => m == m' && v == v'
  | tag m v, tag m' v' => m == m' && v == v'
  | numeric r, numeric r' => r.same r'
  | geo c, geo c' => c.same c'
  | missing, missing => true
  | _, _ => false

end Literal

/-! ## Nearest neighbours -/

/-- Octets in increasing order of weight. -/
def littleEndian : Nat → Nat → List UInt8
  | 0, _ => []
  | width + 1, n => UInt8.ofNat n :: littleEndian width (n / 256)

/-- The octets of a vector as the index stores it. -/
def vectorBlob (vector : List Single) (elementType : VectorElementType) : List UInt8 :=
  vector.flatMap fun x =>
    match elementType with
    | .float32 => littleEndian 4 x.bits.toNat
    | .float64 => littleEndian 8 x.toDouble.bits.toNat

/-- A search for the nearest neighbours of a vector among the documents of a filter. -/
structure KnnClause where
  /-- the key of the vector field -/
  key : String
  /-- how many neighbours are wanted -/
  k : Nat
  vector : List Single
  elementType : VectorElementType
  metric : DistanceMetric
  /-- how far away a neighbour may be, if that is bounded -/
  threshold : Option Double
deriving DecidableEq, Repr

namespace KnnClause

def blob (c : KnnClause) : List UInt8 := vectorBlob c.vector c.elementType

def sameThreshold : Option Double → Option Double → Bool
  | none, none => true
  | some a, some b => a.eq b
  | _, _ => false

def sameVector : List Single → List Single → Bool
  | [], [] => true
  | a :: as, b :: bs => a.eq b && sameVector as bs
  | _, _ => false

def same (a b : KnnClause) : Bool :=
  a.key == b.key && a.k == b.k && sameVector a.vector b.vector &&
    a.elementType == b.elementType && a.metric == b.metric &&
    sameThreshold a.threshold b.threshold

end KnnClause

end IndexQuery
