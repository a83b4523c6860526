import CiPipeline.Value.Json
import CiPipeline.Value.Limit

/-!
Issues of a document: each names a place and what is wrong there. A document is refused with all of its
issues at once.
-/

namespace CiPipeline

/-- One step of the way from a document to a place in it. -/
inductive Place
  | field (name : String)
  | index (n : Int)
  deriving DecidableEq, Repr

namespace Issue

/-- A rule of matrices that does not hold. -/
inductive MatrixFault
  | excludeNotMappings
  | axisEmpty (axis : String)
  | axisNotScalar (axis : String)
  deriving DecidableEq, Repr

/-- The wording of a fault of a matrix. -/
def MatrixFault.message : MatrixFault → String
  | excludeNotMappings => "matrix.exclude entries must be mappings"
  | axisEmpty axis => "matrix axis " ++ Text.quoted axis ++ " has no values"
  | axisNotScalar axis => "matrix axis " ++ Text.quoted axis ++ " values must be scalars"

/-- What is wrong at a place. -/
inductive Kind
  | missing
  | extraForbidden
  | invalidKey
  | stringType
  /-- Bytes that are no text, or a text that no bytes hold. -/
  | stringUnicode
  | listType
  | dictType
  | modelType
  | tooShort
  | boolType
  | boolParsing
  | floatType
  | floatParsing
  | greaterThan
  | matrix (fault : MatrixFault)
  /-- A variable or its value has no text. -/
  | valueTooLong
  deriving DecidableEq, Repr

/-- The name of a kind of issue. -/
def Kind.name : Kind → String
  | missing => "missing"
  | extraForbidden => "extra_forbidden"
  | invalidKey => "invalid_key"
  | stringType => "string_type"
  | stringUnicode => "string_unicode"
  | listType => "list_type"
  | dictType => "dict_type"
  | modelType => "model_type"
  | tooShort => "too_short"
  | boolType => "bool_type"
  | boolParsing => "bool_parsing"
  | floatType => "float_type"
  | floatParsing => "float_parsing"
  | greaterThan => "greater_than"
  | matrix _ | valueTooLong => "value_error"

/-- The text that an issue of its own wording carries beside its kind. -/
def Kind.detail? : Kind → Option String
  | matrix fault => some ("Value error, " ++ fault.message)
  | valueTooLong => some ("Value error, " ++ Value.tooLongText)
  | _ => none

end Issue

/-- Something wrong at a place of a document. -/
structure Issue where
  place : List Place
  kind : Issue.Kind
  deriving DecidableEq, Repr

/-- The same issue seen from one step further out. -/
def Issue.inside (step : Place) (issue : Issue) : Issue :=
  { issue with place := step :: issue.place }

/-- A step of the way as a value. -/
def Place.toValue : Place → Value
  | field name => .text name
  | index n => .int n

namespace Issue

/-- An issue as a value. -/
def toValue (issue : Issue) : Value :=
  .ofFields ([("loc", .list (issue.place.map Place.toValue))] ++
    (issue.kind.detail?.toList.map fun detail => ("msg", .text detail)) ++
    [("type", .text issue.kind.name)])

/-- Issues in the order of their JSON text. -/
def sorted (issues : List Issue) : List Issue :=
  let text := fun (issue : Issue) => issue.toValue.json .line
  issues.mergeSort fun a b => decide (text a ≤ text b)

end Issue
end CiPipeline
