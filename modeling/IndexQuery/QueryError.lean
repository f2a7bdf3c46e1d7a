import IndexQuery.Operator
import IndexQuery.Number.Layout
set_option autoImplicit false

/-! # Errors

Everything that can be wrong with fields, conditions, requests and settings, by cause. The wording
is in the `message` functions and nowhere else. All errors arise while fields, predicates and
streams are made; what has been made can be compiled, rendered and matched without failure. -/

namespace IndexQuery

/-! ## Causes -/

/-- What is wrong with a field or a schema. -/
inductive DescriptorFault where
  | blankName
  | badKey (key : String)
  | noVectorParams
  | zeroDimension
  | linksWithoutHnsw
  | vectorParamsOn (type : FieldType)
  | blankIndex
  | duplicateName (index : String)
  | duplicateKey (key index : String)
deriving DecidableEq

inductive GeoFault where
  | radius (value : Double)
  | longitude (value : Double)
  | latitude (value bound : Double)
deriving DecidableEq

inductive VectorFault where
  | noNeighbours
  | notFinite
  | threshold (value : Double)
deriving DecidableEq

inductive RequestFault where
  | malformedFilter (raw : String)
  | unknownOperator (word : String)
  | noBound (field : String)
  | nearParts (field : String)
  | unknownUnit (unit : String)
  | notScalar (field : String)
  | badNumber (raw : String)
  | badBoolean (raw : String)
  | badDate (raw : String)
  | unknownSortField (name : String)
deriving DecidableEq

inductive ConfigFault where
  | dialect (least value : Nat)
  | zeroPageSize
  | defaultAboveMaximum (default maximum : Nat)
  | notIdentifier (key value : String)
deriving DecidableEq

/-- An error of the library. -/
inductive QueryError where
  | typeMismatch (field : String) (declared : FieldType) (found : String)
  | dimensionMismatch (field : String) (expected actual : Nat)
  | invalidGeoParameter (field : String) (fault : GeoFault)
  | unsupportedOperator (field : String) (operator : Operator) (declared : FieldType)
  | missingOperand (field : String) (operator : Operator)
  | invalidVectorParameter (field : String) (fault : VectorFault)
  | invalidDescriptor (field : String) (fault : DescriptorFault)
  | unknownField (index field : String)
  | notSortable (field : String)
  | invalidRequest (fault : RequestFault)
  | config (fault : ConfigFault)
deriving DecidableEq

/-- Settings that could not be used. -/
inductive SettingsError where
  /-- not a text of the format, or a key that is missing or of the wrong type -/
  | malformed
  /-- well-formed settings that describe something invalid -/
  | rejected (error : QueryError)
deriving DecidableEq

/-! ## Wording -/

namespace DescriptorFault

/-- The wording of a cause. -/
def message : DescriptorFault → String
  | blankName => "field name must not be empty"
  | badKey key => s!"alias '{key}' is not a valid index identifier"
  | noVectorParams => "vector fields require vector parameters"
  | zeroDimension => "vector dimension must be greater than zero"
  | linksWithoutHnsw => "`m` only applies to the HNSW algorithm"
  | vectorParamsOn type => s!"vector parameters are not allowed on {type.indexName} fields"
  | blankIndex => "index name must not be empty"
  | duplicateName index => s!"duplicate field name on index '{index}'"
  | duplicateKey key index => s!"alias '{key}' is already used on index '{index}'"

end DescriptorFault

namespace GeoFault

def message : GeoFault → String
  | radius value => s!"radius must be a positive number, got {value}"
  | longitude value => s!"longitude {value} is outside [-180, 180]"
  | latitude value bound => s!"latitude {value} is outside [-{bound}, {bound}]"

end GeoFault

namespace VectorFault

def message : VectorFault → String
  | noNeighbours => "k must be greater than zero"
  | notFinite => "vector components must be finite"
  | threshold value => s!"distance threshold must be a non-negative number, got {value}"

end VectorFault

namespace RequestFault

def message : RequestFault → String
  | malformedFilter raw => s!"Invalid filter syntax: {raw}"
  | unknownOperator word => s!"Unsupported filter operator: {word}"
  | noBound field => s!"Range filter on {field} needs at least one bound"
  | nearParts field => s!"Near filter on {field} expects lon,lat,radius,unit"
  | unknownUnit unit => s!"Unsupported distance unit: {unit}"
  | notScalar field => s!"Field {field} cannot be filtered by a scalar value"
  | badNumber raw => s!"Invalid numeric value: {raw}"
  | badBoolean raw => s!"Invalid boolean value: {raw}"
  | badDate raw => s!"Invalid date value: {raw}"
  | unknownSortField name => s!"Unsupported sort field: {name}"

end RequestFault

namespace ConfigFault

def message : ConfigFault → String
  | dialect least value => s!"dialect must be at least {least}, got {value}"
  | zeroPageSize => "page sizes must be greater than zero"
  | defaultAboveMaximum default maximum =>
    s!"default_page_size {default} exceeds max_page_size {maximum}"
  | notIdentifier key value => s!"{key} must be a non-empty identifier, got '{value}'"

end ConfigFault

namespace QueryError

def message : QueryError → String
  | typeMismatch field declared found =>
    s!"type mismatch on field '{field}': {declared.label} field cannot take a {found} operand"
  | dimensionMismatch field expected actual =>
    s!"dimension mismatch on field '{field}': expected {expected}, got {actual}"
  | invalidGeoParameter field fault =>
    s!"invalid geo parameter on field '{field}': {fault.message}"
  | unsupportedOperator field operator declared =>
    s!"operator {operator.label} is not supported for {declared.label} field '{field}'"
  | missingOperand field operator =>
    s!"operator {operator.label} on field '{field}' requires a value"
  | invalidVectorParameter field fault =>
    s!"invalid vector parameter on field '{field}': {fault.message}"
  | invalidDescriptor field fault => s!"invalid field descriptor '{field}': {fault.message}"
  | unknownField index field => s!"unknown field '{field}' on index '{index}'"
  | notSortable field => s!"field '{field}' is not sortable"
  | invalidRequest fault => s!"invalid request: {fault.message}"
  | config fault => s!"config error: {fault.message}"

end QueryError

end IndexQuery
