import TableService.Query.Page
import TableService.Shown

/-!
# Problems

What a caller of the service is told when a request fails. A `Problem` says **what went wrong and
with which resource**; its wording (`Problem.message`), its identifier (`Problem.id`), its status
(`Problem.status`) and its details (`Problem.details`) are functions of that. `Problem.report` puts
them together as the body of an error response.

Faults of a query become problems through `QueryFault.problem` and `PageFault.problem`, which add
no wording of their own.
-/

namespace TableService

/-- The families of query problems. -/
inductive QueryFamily where
  | parse | unknownField | operatorSyntax | typeMismatch | combination | orderSpec
  deriving DecidableEq, Repr

/-- The identifier of a family. -/
def QueryFamily.id : QueryFamily → String
  | .parse => "QueryParseError"
  | .unknownField => "UnknownFilterFieldError"
  | .operatorSyntax => "InvalidOperatorSyntaxError"
  | .typeMismatch => "TypeMismatchError"
  | .combination => "NotImplementedCombinationError"
  | .orderSpec => "InvalidOrderSpecError"

/-- What went wrong. The first six are problems of the service itself; the others come from
outside it and carry no resource. -/
inductive Problem where
  | service (wording : Text) (resource : Option Text)
  | query (family : QueryFamily) (wording : Text) (field : Option Text) (position : Option Int)
      (resource : Option Text)
  | schema (errors : List Value) (schema resource : Option Text)
  | notFound (resource field : Text) (value : Value) (custom : Option Text)
  | missingKey (resource : Text) (operations : List Text) (custom : Option Text)
  | notAllowed (resource operation : Text)
  | backend (wording : Text) (resource : Option Text) (cause : Option Text)
  | invalidValue (wording : Text)
  | unreadableJson (wording : Text)
  | oversizedInteger
  | settings (errors : List Value)
  | outside (id : Text) (wording : Text)
  deriving Repr, Inhabited

namespace Problem

/-- The identifier of a problem. -/
def id : Problem → Text
  | service .. => Text.ofString "ViewSetError"
  | query f .. => Text.ofString f.id
  | schema .. => Text.ofString "SchemaValidationError"
  | notFound .. => Text.ofString "NotFoundError"
  | missingKey .. => Text.ofString "MissingPrimaryKeyError"
  | notAllowed .. => Text.ofString "OperationNotAllowedError"
  | backend .. => Text.ofString "BackendError"
  | invalidValue _ | oversizedInteger => Text.ofString "ValueError"
  | unreadableJson _ => Text.ofString "JSONDecodeError"
  | settings _ => Text.ofString "ValidationError"
  | outside name _ => name

/-- An integer operand was too large for the store. -/
def overflow : Problem := outside (Text.ofString "OverflowError") []

/-- A value had a type that the operation cannot take. -/
def wrongType : Problem := outside (Text.ofString "TypeError") []

/-- A value lacked what the operation needs of it. -/
def wrongAttribute : Problem := outside (Text.ofString "AttributeError") []

/-- A text was nested deeper than it is read. -/
def nestedTooDeep : Problem := outside (Text.ofString "RecursionError") []

/-- The bytes of a text do not fit their encoding. -/
def undecodable : Problem := outside (Text.ofString "UnicodeDecodeError") []

/-- A declaration of a table or a column, or an operand of a comparison, cannot be taken. -/
def invalidArgument : Problem := outside (Text.ofString "ArgumentError") []

/-- A statement has a test that its dialect has no form for. -/
def unsupportedTest : Problem := outside (Text.ofString "UnsupportedCompilationError") []

/-- Nothing is known under a name. -/
def unknownName (name : Text) : Problem := outside (Text.ofString "KeyError") (Text.quoted name)

/-- The name an error entry gives to its field. -/
def entryField (entry : Value) : Text := (entry.member? ['f', 'i', 'e', 'l', 'd']).elim
  (Value.plainText .null) Value.plainText

/-- A given text, unless it is missing or empty. -/
def orElse (given : Option Text) (standard : Text) : Text :=
  match given with
  | none | some [] => standard
  | some t => t

/-- The wording of a problem. -/
def message : Problem → Text
  | service w _ => w
  | query _ w _ none _ => w
  | query _ w _ (some p) _ => w ++ Text.ofString " (at position " ++ intText p ++ [')']
  | schema errors name _ =>
    Text.ofString "Validation failed for " ++ orElse name (Text.ofString "schema") ++ [':', ' ']
      ++ orElse (some (commaList (errors.map entryField))) (Text.ofString "<root>")
  | notFound r f v custom =>
    orElse custom (r ++ Text.ofString " with " ++ f ++ '=' :: v.exactText
      ++ Text.ofString " not found")
  | missingKey r ops custom =>
    orElse custom (Text.ofString "Cannot resolve a lookup column for " ++ commaList ops
      ++ Text.ofString " on \"" ++ r
      ++ Text.ofString ("\": table has no single-column primary key and no lookup field "
        ++ "was configured"))
  | notAllowed r op =>
    Text.ofString "Operation " ++ op ++ Text.ofString " is not exposed by " ++ r
  | backend w _ _ => w
  | invalidValue w | unreadableJson w => w
  | oversizedInteger => Text.ofString "Integer with too many digits"
  | settings _ => Text.ofString "Invalid settings"
  | outside _ w => w

/-- The resource a problem belongs to. -/
def resource : Problem → Option Text
  | service _ r | query _ _ _ _ r | schema _ _ r | backend _ r _ => r
  | notFound r _ _ _ | missingKey r _ _ | notAllowed r _ => some r
  | _ => none

/-- Whether a problem is one of the service itself. -/
def isOwn : Problem → Bool
  | invalidValue _ | unreadableJson _ | oversizedInteger | settings _ | outside .. => false
  | _ => true

/-- The identifiers of the wider families a problem belongs to, the narrowest first. -/
def families : Problem → List String
  | service .. => ["Exception", "BaseException"]
  | query .parse .. => ["ViewSetError", "ValueError", "Exception", "BaseException"]
  | query .. => ["QueryParseError", "ViewSetError", "ValueError", "Exception", "BaseException"]
  | invalidValue _ | oversizedInteger => ["Exception", "BaseException"]
  | unreadableJson _ => ["ValueError", "Exception", "BaseException"]
  | outside name _ =>
    if name = Text.ofString "KeyError" then ["LookupError", "Exception", "BaseException"]
    else ["Exception", "BaseException"]
  | settings _ => ["ValueError", "Exception", "BaseException"]
  | _ => ["ViewSetError", "Exception", "BaseException"]

/-- The status of the response to a problem. -/
def status : Problem → Nat
  | query .. => 400
  | schema .. => 422
  | notFound .. => 404
  | notAllowed .. => 405
  | _ => 500

/-- The details of a problem, the resource first. -/
def details (p : Problem) : List (Text × Value) :=
  let resource := (Text.ofString "resource_name", Value.ofOption Value.text p.resource)
  match p with
  | query _ _ field position _ => [resource,
      (Text.ofString "field_name", .ofOption .text field),
      (Text.ofString "position", .ofOption .integer position)]
  | schema errors name _ => [resource,
      (Text.ofString "schema_name", .ofOption .text name),
      (Text.ofString "errors", .list errors)]
  | notFound _ field value _ => [resource,
      (Text.ofString "lookup_field", .text field),
      (Text.ofString "lookup_value", .text value.plainText)]
  | notAllowed _ op => [resource, (Text.ofString "operation", .text op)]
  | backend _ _ (some cause) => [resource, (Text.ofString "error_type", .text cause)]
  | service .. | missingKey .. | backend .. => [resource]
  | _ => [(Text.ofString "exception_type", .text p.id)]

/-- The body of an error response. With `debug` it also tells where the problem comes from. -/
structure Report where
  id : Text
  message : Text
  details : List (Text × Value)
  status : Nat
  deriving Repr, Inhabited

/-- The report of a problem. -/
def report (p : Problem) (debug : Bool) : Report :=
  let trace := if debug then [
      (Text.ofString "traceback", Value.text (p.id ++ ':' :: ' ' :: p.message ++ ['\n'])),
      (Text.ofString "debug_mode", Value.boolean true)] else []
  ⟨p.id, p.message, p.details ++ trace, p.status⟩

/-- A report as a response body. -/
def Report.body (r : Report) : Value := .object [
  (Text.ofString "id", .text r.id),
  (Text.ofString "message", .text r.message),
  (Text.ofString "details", .object r.details)]

end Problem

/-! ## Faults of a query as problems -/

/-- A fault of a query, as a problem. -/
def QueryFault.problem (f : QueryFault) : Problem :=
  let refusal (family : QueryFamily) : Problem :=
    .query family f.wording f.field (f.position.map Int.ofNat) none
  match f.family with
  | .parse => refusal .parse
  | .unknownField => refusal .unknownField
  | .operatorSyntax => refusal .operatorSyntax
  | .typeMismatch => refusal .typeMismatch
  | .combination => refusal .combination
  | .orderSpec => refusal .orderSpec
  | .oversizedInteger => .oversizedInteger
  | .notText =>
    match f with
    | .notText key =>
      if key = Params.pageKey ∨ key = Params.sizeKey then .wrongAttribute else .wrongType
    | _ => .wrongType
  | .incomparable => .invalidArgument

/-- A fault of a page, as a problem. -/
def PageFault.problem : PageFault → Problem
  | .query f => f.problem
  | .notPositive p s => .invalidValue (PageFault.message (.notPositive p s))
  | .unknownMode m => .invalidValue (PageFault.message (.unknownMode m))
  | .tooManyPages => .overflow

end TableService
