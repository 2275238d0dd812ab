import TableService.Table
import TableService.Problem

/-!
# Fields and their faults

A field of a schema has a kind, may or may not be null, and may or may not be required. What can
be wrong with a value is one of a fixed list of faults, each with the name it is reported under.
-/

namespace TableService

/-- The kinds of fields. `object` and `anything` take every value. -/
inductive FieldKind where
  | int
  | str
  | bool
  | float
  | date
  | dateTime
  | decimal
  | list
  | object
  | anything
  deriving DecidableEq, Repr, Inhabited

/-- The name of a kind. -/
def FieldKind.name : FieldKind → String
  | .int => "int"
  | .str => "str"
  | .bool => "bool"
  | .float => "float"
  | .date => "date"
  | .dateTime => "datetime"
  | .decimal => "Decimal"
  | .list => "list"
  | .object => "object"
  | .anything => "any"

/-- The kind of value a column type holds. -/
def ColumnType.fieldKind : ColumnType → FieldKind
  | .integer | .bigInteger => .int
  | .string | .text => .str
  | .float => .float
  | .boolean => .bool
  | .date => .date
  | .dateTime => .dateTime
  | .numeric => .decimal
  | .strings | .integers => .list
  | .json | .untyped => .object
  | .custom => .anything

/-- A field of a schema. -/
structure Field where
  name : Text
  kind : FieldKind
  nullable : Bool
  required : Bool
  deriving DecidableEq, Repr, Inhabited

/-- The type of a field as it is shown. -/
def Field.typeName (f : Field) : String :=
  if f.nullable then f.kind.name ++ "|null" else f.kind.name

/-- What is wrong with a value. -/
inductive FieldFault where
  | missing
  | missingPathParameter
  | extraForbidden
  | invalidJson (reason : Text)
  | modelType
  | modelAttributesType
  | stringUnicode
  | typed (kind : FieldKind)
  | parsing (kind : FieldKind)
  | intParsingSize
  | intFromFloat
  | finiteNumber
  | dateFromDateTimeParsing
  | dateFromDateTimeInexact
  | dateTimeFromDateParsing
  | enumeration
  | greaterThanEqual
  deriving DecidableEq, Repr

/-- The name a kind has in the names of faults. -/
def FieldKind.faultName : FieldKind → String
  | .int => "int"
  | .str => "string"
  | .bool => "bool"
  | .float => "float"
  | .date => "date"
  | .dateTime => "datetime"
  | .decimal => "decimal"
  | .list => "list"
  | .object => "object"
  | .anything => "any"

/-- The name a fault is reported under. -/
def FieldFault.name : FieldFault → String
  | .missing | .missingPathParameter => "missing"
  | .extraForbidden => "extra_forbidden"
  | .invalidJson _ => "json_invalid"
  | .modelType => "model_type"
  | .modelAttributesType => "model_attributes_type"
  | .stringUnicode => "string_unicode"
  | .typed k => k.faultName ++ "_type"
  | .parsing k => k.faultName ++ "_parsing"
  | .intParsingSize => "int_parsing_size"
  | .intFromFloat => "int_from_float"
  | .finiteNumber => "finite_number"
  | .dateFromDateTimeParsing => "date_from_datetime_parsing"
  | .dateFromDateTimeInexact => "date_from_datetime_inexact"
  | .dateTimeFromDateParsing => "datetime_from_date_parsing"
  | .enumeration => "enum"
  | .greaterThanEqual => "greater_than_equal"

/-- The explanation that comes with a fault, for those that have one. -/
def FieldFault.explanation : FieldFault → Option Text
  | .missing => some (Text.ofString "Field required")
  | .missingPathParameter => some (Text.ofString "Missing path parameter")
  | .extraForbidden => some (Text.ofString "Extra inputs are not permitted")
  | .invalidJson reason => some (Text.ofString "Invalid JSON: " ++ reason)
  | _ => none

/-- A fault of one field. -/
structure FieldError where
  field : Text
  fault : FieldFault
  deriving DecidableEq, Repr

/-- A fault of one field, as an entry of an error response. -/
def FieldError.toValue (e : FieldError) : Value :=
  let explanation := match e.fault.explanation with
    | none => []
    | some t => [(Text.ofString "message", Value.text t)]
  .object ([(Text.ofString "field", .text e.field),
    (Text.ofString "type", .string e.fault.name)] ++ explanation)

/-- Faults of fields, as a problem with a schema. -/
def Problem.ofFieldErrors (errors : List FieldError) (schema : Text) (resource : Option Text) :
    Problem :=
  .schema (errors.map FieldError.toValue) (some schema) resource

end TableService
