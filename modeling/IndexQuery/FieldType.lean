import IndexQuery.Data.Datum
set_option autoImplicit false

/-! # What a field can hold

Every indexed field has one of seven types. A vector field also carries the parameters of its
vectors; `FieldKind` is a type together with what it carries. Each enumeration has a word, by which
settings name it. -/

namespace IndexQuery

/-! ## Types -/

/-- The declared type of an indexed field. -/
inductive FieldType where
  | text
  | tag
  | numeric
  | boolean
  | date
  | geo
  | vector
deriving DecidableEq, Repr

namespace FieldType

def all : List FieldType := [text, tag, numeric, boolean, date, geo, vector]

/-- The name in error messages. -/
def label : FieldType → String
  | text => "Text"
  | tag => "Tag"
  | numeric => "Numeric"
  | boolean => "Boolean"
  | date => "Date"
  | geo => "Geo"
  | vector => "Vector"

/-- The name in the index. -/
def indexName : FieldType → String
  | text => "TEXT"
  | tag => "TAG"
  | numeric => "NUMERIC"
  | boolean => "BOOLEAN"
  | date => "DATE"
  | geo => "GEO"
  | vector => "VECTOR"

/-- The word in settings. -/
def word : FieldType → String
  | text => "text"
  | tag => "tag"
  | numeric => "numeric"
  | boolean => "boolean"
  | date => "date"
  | geo => "geo"
  | vector => "vector"

def ofWord? (w : String) : Option FieldType := all.find? (·.word = w)

end FieldType

/-! ## Vectors -/

/-- How the index searches for neighbours. -/
inductive VectorAlgorithm where
  | flat
  | hnsw
deriving DecidableEq, Repr

namespace VectorAlgorithm

def word : VectorAlgorithm → String
  | flat => "flat"
  | hnsw => "hnsw"

def ofWord? (w : String) : Option VectorAlgorithm := [flat, hnsw].find? (·.word = w)

end VectorAlgorithm

/-- The format of the stored components. -/
inductive VectorElementType where
  | float32
  | float64
deriving DecidableEq, Repr

namespace VectorElementType

def byteWidth : VectorElementType → Nat
  | float32 => 4
  | float64 => 8

def word : VectorElementType → String
  | float32 => "float32"
  | float64 => "float64"

def ofWord? (w : String) : Option VectorElementType := [float32, float64].find? (·.word = w)

end VectorElementType

/-- How far apart two vectors are. -/
inductive DistanceMetric where
  /-- the square of the Euclidean distance -/
  | l2
  /-- one minus the inner product -/
  | ip
  /-- one minus the cosine of the angle -/
  | cosine
deriving DecidableEq, Repr

namespace DistanceMetric

def indexName : DistanceMetric → String
  | l2 => "L2"
  | ip => "IP"
  | cosine => "COSINE"

def word : DistanceMetric → String
  | l2 => "l2"
  | ip => "ip"
  | cosine => "cosine"

def ofWord? (w : String) : Option DistanceMetric := [l2, ip, cosine].find? (·.word = w)

end DistanceMetric

/-- The parameters of a vector field. Queries depend on the dimension, the element type and the
metric; the others are kept for whoever creates the index. -/
structure VectorParams where
  dimension : Nat
  algorithm : VectorAlgorithm := .flat
  elementType : VectorElementType := .float32
  metric : DistanceMetric := .l2
  /-- the number of vectors to make room for -/
  initialCapacity : Option Nat := none
  /-- the number of links of a node in an HNSW graph -/
  links : Option Nat := none
deriving DecidableEq, Repr

namespace VectorParams

/-- Parameters with every setting at its default but the dimension and the metric. -/
def new (dimension : Nat) (metric : DistanceMetric) : VectorParams :=
  { dimension := dimension, metric := metric }

/-- The same parameters, searched through an HNSW graph with the given number of links. -/
def hnsw (p : VectorParams) (links : Nat) : VectorParams :=
  { p with algorithm := .hnsw, links := some links }

def withElementType (p : VectorParams) (elementType : VectorElementType) : VectorParams :=
  { p with elementType := elementType }

def withInitialCapacity (p : VectorParams) (capacity : Nat) : VectorParams :=
  { p with initialCapacity := some capacity }

/-- Vectors have components, and a number of links goes with the HNSW algorithm only. -/
def isValid (p : VectorParams) : Bool :=
  p.dimension != 0 && (p.links.isNone || p.algorithm == .hnsw)

end VectorParams

/-! ## Kinds -/

/-- A type together with what it carries. -/
inductive FieldKind where
  | text
  | tag
  | numeric
  | boolean
  | date
  | geo
  | vector (params : VectorParams)
deriving DecidableEq, Repr

namespace FieldKind

def type : FieldKind → FieldType
  | text => .text
  | tag => .tag
  | numeric => .numeric
  | boolean => .boolean
  | date => .date
  | geo => .geo
  | vector _ => .vector

def vectorParams : FieldKind → Option VectorParams
  | vector params => some params
  | _ => none

/-- Whether the vector parameters, if any, are valid. -/
def isValid : FieldKind → Bool
  | vector params => params.isValid
  | _ => true

end FieldKind

end IndexQuery
