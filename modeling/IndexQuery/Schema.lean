import IndexQuery.Field
set_option autoImplicit false

/-! # Schemas

A `Schema` is the list of the indexed fields of one entity, with the index they live in. No two
fields share a name or a key, so a name finds at most one field. -/

namespace IndexQuery

/-- The indexed fields of one entity. -/
structure Schema where
  /-- the name of the index -/
  index : String
  /-- the key under which documents carry their identity -/
  idField : String
  fields : List Field
deriving DecidableEq

namespace Schema

/-- The first field that repeats the name or the key of a field before it; the name is looked at
first. -/
def firstRepeated (index : String) : List Field → List Field → Option QueryError
  | _, [] => none
  | earlier, f :: rest =>
    if earlier.any (·.name = f.name) then
      some (.invalidDescriptor f.name (.duplicateName index))
    else if earlier.any (·.key = f.key) then
      some (.invalidDescriptor f.name (.duplicateKey f.key index))
    else firstRepeated index (earlier ++ [f]) rest

def build (index idField : String) (fields : List Field) : Except QueryError Schema :=
  if Text.isBlankText index.toList then .error (.invalidDescriptor "" .blankIndex)
  else match firstRepeated index [] fields with
    | some error => .error error
    | none => .ok ⟨index, idField, fields⟩

def field (s : Schema) (name : String) : Except QueryError Field :=
  match s.fields.find? (·.name = name) with
  | some f => .ok f
  | none => .error (.unknownField s.index name)

end Schema

end IndexQuery
