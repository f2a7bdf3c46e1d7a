import IndexQuery.Data.Datum
import IndexQuery.Literal
import IndexQuery.Number.Reading
set_option autoImplicit false

/-! # Distances

The distance between points on the globe is the haversine distance on a sphere; the distance
between vectors is the one of their metric. Everything is computed in double precision, step by
step in the order written here; the trigonometric functions are those of the machine. -/

namespace IndexQuery

namespace Double

def sin (x : Double) : Double := ofFloat x.toFloat.sin

def cos (x : Double) : Double := ofFloat x.toFloat.cos

def asin (x : Double) : Double := ofFloat x.toFloat.asin

def square (x : Double) : Double := x.mul x

end Double

namespace Matching

open Double (ofDecimal)

/-! ## On the globe -/

/-- The radius of the sphere in metres. -/
def earthRadius : Double := ofDecimal false 6372797560856 (-6)

/-- A right angle has ninety of these. -/
def radiansPerDegree : Double :=
  (ofDecimal false 3141592653589793 (-15)).div (ofDecimal false 180 0)

def radians (degrees : Double) : Double := degrees.mul radiansPerDegree

/-- The haversine distance of two points in metres. -/
def haversine (a b : GeoPoint) : Double :=
  let two := ofDecimal false 2 0
  let dLat := radians (b.lat.sub a.lat)
  let dLon := radians (b.lon.sub a.lon)
  let chord := ((dLat.div two).sin.square).add
    (((radians a.lat).cos.mul (radians b.lat).cos).mul (dLon.div two).sin.square)
  (two.mul earthRadius).mul chord.sqrt.asin

def inCircle (circle : GeoCircle) (p : GeoPoint) : Bool :=
  (haversine circle.center p).le circle.radiusMeters

/-! ## Between vectors -/

def dot (a b : List Double) : Double := Double.sum (List.zipWith Double.mul a b)

/-- The distance of two vectors of the same dimension. There is no angle to a vector of length
zero. -/
def vectorDistance (metric : DistanceMetric) (a b : List Double) : Option Double :=
  let one := ofDecimal false 1 0
  match metric with
  | .l2 => some (Double.sum (List.zipWith (fun x y => (x.sub y).square) a b))
  | .ip => some (one.sub (dot a b))
  | .cosine =>
    let length := (dot a a).sqrt.mul (dot b b).sqrt
    if length.isZero then none else some (one.sub ((dot a b).div length))

/-- The distance of a document from the vector of a clause, if the document has a vector of the
right dimension. -/
def distance (clause : KnnClause) (doc : Datum) : Option Double := do
  let stored ← (← doc.get? clause.key).listOf? Datum.double?
  if stored.length ≠ clause.vector.length then none
  else vectorDistance clause.metric (clause.vector.map Single.toDouble) stored

end Matching

end IndexQuery
