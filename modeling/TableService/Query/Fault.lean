import TableService.Filter.Tree
import TableService.Text.Quoted

/-!
# Why a query is refused

Every refusal of a query is one constructor here, with what its message shows. **A fault is a
cause, not a wording**: the wording is `Fault.message`, the key it is attributed to is
`Fault.field`, the place inside a grouped expression is `Fault.position`, and the family it
belongs to is `Fault.family`.

Three faults stand apart, since they are no refusals of the query language: an integer with too many
digits, a value that is no text where only a text can be read, and a null or a boolean where the
store has no comparison with one.
-/

namespace TableService

/-- What is wrong at a place inside a grouped expression. -/
inductive GroupFault where
  | expected (wanted : Char) (found : Option Char)
  | emptyGroup
  | missingName
  | unclosed
  | unexpected (found : Char)
  | trailing (rest : Text)
  deriving DecidableEq, Repr

/-- The wording of a group fault, without its place. -/
def GroupFault.message : GroupFault → Text
  | .expected wanted found =>
    Text.ofString "Expected \"" ++ wanted :: Text.ofString "\", found " ++ match found with
      | none => Text.ofString "end of input"
      | some c => Text.quoted [c]
  | .emptyGroup => Text.ofString "Empty group"
  | .missingName => Text.ofString "Missing field name"
  | .unclosed => Text.ofString "Unclosed group"
  | .unexpected c => Text.ofString "Unexpected " ++ Text.quoted [c]
  | .trailing rest => Text.ofString "Unexpected trailing input " ++ Text.quoted rest

/-- Why a query is refused. -/
inductive QueryFault where
  | unknownField (field : Text) (position : Option Nat)
  | unorderedOperand (operator : Operator) (field : Option Text) (token : Text)
  | rangeShape (field : Option Text) (token : Text)
  | rangeKinds (field : Option Text) (low high : Kind)
  | mixedKinds (field : Option Text) (found : List Kind)
  | nestedValue (field : Text) (shape : String)
  | noValue (field : Text)
  | group (kind : Connective) (fault : GroupFault) (position : Nat)
  | unsortable (names : List Text)
  | malformedSort (raw : Text)
  | notAnInteger (key : Text) (raw : Text)
  | repeatedKey (key : Text)
  | oversizedInteger
  | notText (key : Text)
  | incomparable
  deriving DecidableEq, Repr

/-- The families of refusals. -/
inductive QueryFault.Family where
  | parse
  | unknownField
  | operatorSyntax
  | typeMismatch
  | combination
  | orderSpec
  | oversizedInteger
  | notText
  | incomparable
  deriving DecidableEq, Repr

namespace QueryFault

/-- The family a fault belongs to. -/
def family : QueryFault → Family
  | unknownField .. => .unknownField
  | unorderedOperand .. | rangeShape .. | rangeKinds .. | noValue .. | group .. => .operatorSyntax
  | mixedKinds .. => .typeMismatch
  | nestedValue .. => .combination
  | unsortable .. | malformedSort .. => .orderSpec
  | notAnInteger .. | repeatedKey .. => .parse
  | oversizedInteger => .oversizedInteger
  | notText _ => .notText
  | incomparable => .incomparable

/-- The key a sort specification is sent under. -/
def sortKey : Text := ['s', 'o', 'r', 't']

/-- The key a fault is attributed to. -/
def field : QueryFault → Option Text
  | unknownField f _ => some f
  | unorderedOperand _ f _ | rangeShape f _ | rangeKinds f _ _ | mixedKinds f _ => f
  | nestedValue f _ | noValue f => some f
  | group k _ _ => some k.key
  | unsortable _ | malformedSort _ => some sortKey
  | notAnInteger k _ | repeatedKey k => some k
  | oversizedInteger | notText _ | incomparable => none

/-- The place inside a grouped expression. -/
def position : QueryFault → Option Nat
  | unknownField _ p => p
  | group _ _ p => some p
  | _ => none

/-- A field as messages show it. -/
def fieldText : Option Text → Text
  | none => Text.ofString "None"
  | some f => f

/-- The wording of a fault, without its place. -/
def wording : QueryFault → Text
  | unknownField f _ => Text.ofString "Unknown filter field: " ++ f
  | unorderedOperand o f t =>
    Text.ofString o.name ++ Text.ofString " on \"" ++ fieldText f
      ++ Text.ofString "\" needs a number or date, got " ++ Text.quoted t
  | rangeShape f t =>
    Text.ofString "Range on \"" ++ fieldText f
      ++ Text.ofString "\" must look like low..high, got " ++ Text.quoted t
  | rangeKinds f low high =>
    Text.ofString "Range bounds on \"" ++ fieldText f ++ Text.ofString "\" differ in type: "
      ++ Text.ofString low.name ++ Text.ofString " and " ++ Text.ofString high.name
  | mixedKinds f found =>
    Text.ofString "Mixed value types in list for \"" ++ fieldText f ++ Text.ofString "\": "
      ++ Text.join [',', ' '] (Text.sortTexts (found.map fun k => Text.ofString k.name))
  | nestedValue f shape =>
    Text.ofString "Nested value for \"" ++ f ++ Text.ofString "\" cannot be decoded: "
      ++ Text.ofString shape
  | noValue f => Text.ofString "No value given for \"" ++ f ++ ['"']
  | group _ fault _ => fault.message
  | unsortable names => Text.ofString "Cannot sort by: " ++ Text.join [',', ' '] names
  | malformedSort raw => Text.ofString "Malformed sort specification: " ++ Text.quoted raw
  | notAnInteger k raw =>
    '"' :: k ++ Text.ofString "\" must be an integer, got " ++ Text.quoted raw
  | repeatedKey k =>
    Text.ofString "Query parameter \"" ++ k ++ Text.ofString "\" may appear only once"
  | oversizedInteger => Text.ofString "Integer with too many digits"
  | notText key => '"' :: key ++ Text.ofString "\" is not a text"
  | incomparable => Text.ofString ("Only '=', '!=', 'is_()', 'is_not()', 'is_distinct_from()', "
      ++ "'is_not_distinct_from()' operators can be used with None/True/False")

/-- The message of a fault: its wording, and its place where it has one. -/
def message (f : QueryFault) : Text :=
  f.wording ++ match f.position with
    | none => []
    | some p => Text.ofString " (at position " ++ natText p ++ [')']

/-- Whether a fault is a refusal of the query language, with a family of its own. -/
def isRefusal (f : QueryFault) : Bool :=
  match f.family with
  | .oversizedInteger | .notText | .incomparable => false
  | _ => true

end QueryFault
end TableService
