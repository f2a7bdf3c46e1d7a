import IndexQuery.Data.TomlReading
import IndexQuery.Schema
set_option autoImplicit false

/-! # Fields and schemas as data

Schemas are kept in settings files, and fields are shown in reports. `Field.toDatum` writes a field
as a record, leaving out a key that equals the name and absent vector parameters; `Field.ofDatum`
reads it back. Data that is not a field at all is told apart from a field that is not valid. -/

namespace IndexQuery

/-! ## Vector parameters -/

namespace VectorParams

def keys : List String :=
  ["dimension", "algorithm", "element_type", "distance_metric", "initial_capacity", "m"]

def toDatum (p : VectorParams) : Datum :=
  .record [("dimension", .nat p.dimension), ("algorithm", .text p.algorithm.word),
    ("element_type", .text p.elementType.word), ("distance_metric", .text p.metric.word),
    ("initial_capacity", .orNull .nat p.initialCapacity), ("m", .orNull .nat p.links)]

/-- The parameters in a record, not validated. -/
def ofDatum? (format : DataFormat) (d : Datum) : Option VectorParams := do
  let entries ← d.entries? format keys
  let dimension ← Datum.required? entries "dimension" Datum.nat64?
  let algorithm ← Datum.withDefault? entries "algorithm"
    (fun d => (d.word? format).bind VectorAlgorithm.ofWord?) .flat
  let elementType ← Datum.withDefault? entries "element_type"
    (fun d => (d.word? format).bind VectorElementType.ofWord?) .float32
  let metric ← Datum.withDefault? entries "distance_metric"
    (fun d => (d.word? format).bind DistanceMetric.ofWord?) .l2
  let capacity ← Datum.withDefault? entries "initial_capacity" (Datum.nullable? Datum.nat64?) none
  let links ← Datum.withDefault? entries "m" (Datum.nullable? Datum.nat64?) none
  some ⟨dimension, algorithm, elementType, metric, capacity, links⟩

end VectorParams

/-! ## Fields -/

namespace Field

def keys : List String := ["name", "alias", "type", "vector", "sortable"]

def toDatum (f : Field) : Datum :=
  .record (
    [("name", .text f.name)] ++
    (if f.key = f.name then [] else [("alias", .text f.key)]) ++
    [("type", .text f.type.word)] ++
    (match f.vectorParams with
      | none => []
      | some params => [("vector", params.toDatum)]) ++
    [("sortable", .bool f.sortable)])

/-- The parts of a field in a record: name, key, type, vector parameters and sortability. -/
def partsOf? (format : DataFormat) (d : Datum) :
    Option (String × String × FieldType × Option VectorParams × Bool) := do
  let entries ← d.entries? format keys
  let name ← Datum.required? entries "name" Datum.text?
  let key ← Datum.withDefault? entries "alias" (Datum.nullable? Datum.text?) none
  let type ← Datum.required? entries "type" fun d => (d.word? format).bind FieldType.ofWord?
  let vector ← Datum.withDefault? entries "vector"
    (Datum.nullable? (VectorParams.ofDatum? format)) none
  let sortable ← Datum.withDefault? entries "sortable" Datum.bool? false
  some (name, key.getD name, type, vector, sortable)

def ofDatum (format : DataFormat) (d : Datum) : Except SettingsError Field :=
  match partsOf? format d with
  | none => .error .malformed
  | some (name, key, type, vector, sortable) =>
    (build name key type vector sortable).mapError .rejected

def listOfDatum (format : DataFormat) (d : Datum) : Except SettingsError (List Field) :=
  match d.list? with
  | none => .error .malformed
  | some items => items.mapM (ofDatum format)

end Field

/-! ## Schemas -/

namespace Schema

def keys : List String := ["index", "id_field", "fields"]

def checkEntry (format : DataFormat) (entry : String × Datum) : Except SettingsError Unit :=
  match entry with
  | ("index", d) => if d.text?.isSome then .ok () else .error .malformed
  | ("id_field", d) => if d.text?.isSome then .ok () else .error .malformed
  | ("fields", d) => (Field.listOfDatum format d).map fun _ => ()
  | _ => .ok ()

/-- The schema in a record. The entries are judged in their order, then the whole. -/
def ofDatum (format : DataFormat) (d : Datum) : Except SettingsError Schema :=
  match d.keyed? keys with
  | none => .error .malformed
  | some entries => do
    entries.forM (checkEntry format)
    match entries.lookup "index", d.hasSurplus format keys with
    | some (.text index), false =>
      let idField := ((entries.lookup "id_field").bind Datum.text?).getD "id"
      let fields ← ((entries.lookup "fields").map (Field.listOfDatum format)).getD (.ok [])
      (build index idField fields).mapError .rejected
    | _, _ => .error .malformed

/-- The schema of a TOML document. -/
def ofToml (source : String) : Except SettingsError Schema :=
  match Datum.ofToml? source.toList with
  | none => .error .malformed
  | some d => ofDatum .toml d

end Schema

end IndexQuery
