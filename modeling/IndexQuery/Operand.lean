import IndexQuery.Calendar.Date
import IndexQuery.Number.Decimal
import IndexQuery.Number.Single
set_option autoImplicit false

/-! # Operands

An `Operand` is a value an application asks about. It is independent of the field it is compared
with; whether it fits is decided when a condition is encoded. -/

namespace IndexQuery

/-- A point on the globe, in degrees. -/
structure GeoPoint where
  /-- degrees east -/
  lon : Double
  /-- degrees north -/
  lat : Double
deriving DecidableEq, Repr

/-- A value an application asks about. -/
inductive Operand where
  | null
  | text (value : String)
  | int (value : Int)
  | float (value : Double)
  | decimal (value : Decimal)
  | bool (value : Bool)
  | date (value : Date)
  /-- an instant given with an offset -/
  | instant (value : Instant)
  /-- a date and a time of day, read as universal time -/
  | localTime (value : Instant)
  | point (value : GeoPoint)
  | vector (components : List Single)
  | list (items : List Operand)

namespace Operand

/-- The name of the kind of a value in error messages. -/
def kindName : Operand → String
  | null => "null"
  | text _ => "text"
  | int _ => "integer"
  | float _ => "float"
  | decimal _ => "decimal"
  | bool _ => "boolean"
  | date _ => "date"
  | instant _ => "datetime"
  | localTime _ => "local datetime"
  | point _ => "geo point"
  | vector _ => "vector"
  | list _ => "list"

/-- The absent value, the empty text, and the empty list or vector. A text of blanks is not
empty. -/
def isEmpty : Operand → Bool
  | null => true
  | text value => value.isEmpty
  | vector components => components.isEmpty
  | list items => items.isEmpty
  | _ => false

/-- The members of a list; any other value is the only member of itself, and the absent value has
none. -/
def members : Operand → List Operand
  | list items => items
  | null => []
  | value => [value]

end Operand

end IndexQuery
