import IndexQuery.QueryError
import IndexQuery.Text.Blank
set_option autoImplicit false

/-! # Fields

A `Field` describes one indexed field of an entity: its name, its key in the index and in documents
(settings and messages call it the alias), its kind, and whether results can be sorted by it. A
field carries the proof that its name is not blank, that its key is an index identifier, and that
its vector parameters are valid; `build` is the way to make one, and reports the first thing that
is wrong. -/

namespace IndexQuery

/-! ## Index identifiers -/

def isIdentifierStart (c : Char) : Bool := c.isAlpha || c == '_' || c == '$'

def isIdentifierPart (c : Char) : Bool := c.isAlphanum || c == '_' || c == '.' || c == '$'

/-- An index identifier: basic Latin letters, digits, underscores, points and dollar signs, of
which a digit and a point do not come first. -/
def isIdentifier : List Char → Bool
  | [] => false
  | c :: rest => isIdentifierStart c && rest.all isIdentifierPart

/-! ## Fields -/

/-- One indexed field of an entity. -/
structure Field where
  /-- the name in the application -/
  name : String
  /-- the key in the index and in documents -/
  key : String
  kind : FieldKind
  sortable : Bool
  name_visible : Text.isBlankText name.toList = false
  key_identifier : isIdentifier key.toList = true
  kind_valid : kind.isValid = true
deriving DecidableEq

namespace Field

def type (f : Field) : FieldType := f.kind.type

def vectorParams (f : Field) : Option VectorParams := f.kind.vectorParams

/-- The kind of a declared type with the vector parameters given for it. -/
def kindOf (type : FieldType) (vector : Option VectorParams) : Except DescriptorFault FieldKind :=
  match type, vector with
  | .vector, none => .error .noVectorParams
  | .vector, some params => .ok (.vector params)
  | other, some _ => .error (.vectorParamsOn other)
  | .text, none => .ok .text
  | .tag, none => .ok .tag
  | .numeric, none => .ok .numeric
  | .boolean, none => .ok .boolean
  | .date, none => .ok .date
  | .geo, none => .ok .geo

/-- What is wrong with a kind that is not valid. -/
def kindFault : FieldKind → DescriptorFault
  | .vector params => if params.dimension = 0 then .zeroDimension else .linksWithoutHnsw
  | _ => .linksWithoutHnsw

/-- The field with the given parts, or the first thing that is wrong with them: the name, the
key, then the type with its vector parameters. -/
def build (name key : String) (type : FieldType) (vector : Option VectorParams)
    (sortable : Bool) : Except QueryError Field :=
  if name_visible : Text.isBlankText name.toList = false then
    if key_identifier : isIdentifier key.toList = true then
      match kindOf type vector with
      | .error fault => .error (.invalidDescriptor name fault)
      | .ok kind =>
        if kind_valid : kind.isValid = true then
          .ok ⟨name, key, kind, sortable, name_visible, key_identifier, kind_valid⟩
        else .error (.invalidDescriptor name (kindFault kind))
    else .error (.invalidDescriptor name (.badKey key))
  else .error (.invalidDescriptor name .blankName)

/-- A field of a type without parameters. -/
def new (name key : String) (type : FieldType) : Except QueryError Field :=
  build name key type none false

/-- A field of a type without parameters, known to the index by its own name. -/
def named (name : String) (type : FieldType) : Except QueryError Field := new name name type

def vector (name key : String) (params : VectorParams) : Except QueryError Field :=
  build name key .vector (some params) false

/-- The same field, open to sorting. -/
def makeSortable (f : Field) : Field := { f with sortable := true }

end Field

end IndexQuery
