import IndexQuery.Number.Double
set_option autoImplicit false

/-! # Plain data

A `Datum` is what a JSON or a TOML text denotes: a tree of lists and records over texts, numbers
and truth values. Whole numbers and floating-point numbers are kept apart. The readers below look
a settings record up by its keys; a record may also be given as the list of its values in the
order of the keys. -/

namespace IndexQuery

/-- The format a datum was read from. The formats differ in how a word without content may be
written, and in whether a list may have more values than a settings record has keys. -/
inductive DataFormat where
  | json
  | toml
deriving DecidableEq, Repr

/-- A tree of plain data. -/
inductive Datum where
  | null
  | bool (value : Bool)
  | int (value : Int)
  | float (value : Double)
  | text (value : String)
  | list (items : List Datum)
  | record (entries : List (String × Datum))

namespace Datum

instance : Inhabited Datum := ⟨.null⟩

/-! ## Making data -/

def texts (items : List String) : Datum := .list (items.map .text)

def nat (n : Nat) : Datum := .int n

/-- A value that may be absent. -/
def orNull {α : Type} (f : α → Datum) : Option α → Datum
  | none => .null
  | some a => f a

/-- A floating-point number; data has no place for one that is not finite. -/
def number (x : Double) : Datum := if x.isFinite then .float x else .null

/-! ## Looking into data -/

def isNull : Datum → Bool
  | .null => true
  | _ => false

/-- The entry of a record under a key; nothing else has entries. -/
def get? (key : String) : Datum → Option Datum
  | .record entries => entries.lookup key
  | _ => none

def text? : Datum → Option String
  | .text s => some s
  | _ => none

def bool? : Datum → Option Bool
  | .bool b => some b
  | _ => none

def list? : Datum → Option (List Datum)
  | .list items => some items
  | _ => none

def int? : Datum → Option Int
  | .int n => some n
  | _ => none

/-- A natural number below a bound. -/
def natBelow? (bound : Nat) : Datum → Option Nat
  | .int n => if 0 ≤ n && n < bound then some n.toNat else none
  | _ => none

/-- A natural number of the unsigned 64-bit range. -/
def nat64? (d : Datum) : Option Nat := d.natBelow? (2 ^ 64)

/-- A number of either kind, in double precision. -/
def double? : Datum → Option Double
  | .int n => some (Double.ofInt n)
  | .float x => some x
  | _ => none

/-- A list of which every item can be read. -/
def listOf? {α : Type} (item? : Datum → Option α) (d : Datum) : Option (List α) :=
  d.list?.bind (·.mapM item?)

/-- An absent value, or a value that can be read. -/
def nullable? {α : Type} (value? : Datum → Option α) : Datum → Option (Option α)
  | .null => some none
  | d => (value? d).map some

/-! ## Settings records -/

/-- Whether a datum says that nothing follows a word. -/
def isNothing (d : Datum) (format : DataFormat) : Bool :=
  match format, d with
  | .json, .null => true
  | .toml, .record [] => true
  | .toml, .list [] => true
  | _, _ => false

/-- The word of an enumeration: a text, or the key of a record whose only entry says that nothing
follows. -/
def word? (format : DataFormat) : Datum → Option String
  | .text s => some s
  | .record [(key, content)] => if content.isNothing format then some key else none
  | _ => none

/-- The entries of a settings record with the given keys. A list gives the values of the first
keys, in their order. -/
def keyed? (keys : List String) : Datum → Option (List (String × Datum))
  | .record entries => some entries
  | .list items => some (keys.zip items)
  | _ => none

/-- Whether a list has more values than there are keys, in a format where this is an error. -/
def hasSurplus (format : DataFormat) (keys : List String) : Datum → Bool
  | .list items => format = .json && keys.length < items.length
  | _ => false

/-- The entries of a settings record without a surplus of values. -/
def entries? (format : DataFormat) (keys : List String) (d : Datum) :
    Option (List (String × Datum)) :=
  if d.hasSurplus format keys then none else d.keyed? keys

def required? {α : Type} (entries : List (String × Datum)) (key : String)
    (value? : Datum → Option α) : Option α :=
  (entries.lookup key).bind value?

def withDefault? {α : Type} (entries : List (String × Datum)) (key : String)
    (value? : Datum → Option α) (default : α) : Option α :=
  match entries.lookup key with
  | none => some default
  | some d => value? d

end Datum

end IndexQuery
