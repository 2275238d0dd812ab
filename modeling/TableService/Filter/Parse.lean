import TableService.Filter.Group
import TableService.Query.Params

/-!
# The filter of a request

Every parameter that is not reserved is a predicate on a field of the allow-list, and the keys
`and`, `or`, `not` carry groups. **All of it has to hold**: the filter is the conjunction of the
fields, in the order of the keys, and then of the groups. A request is refused at its first
fault, so there is no partial filter.
-/

namespace TableService
namespace Filter

/-- The name of the shape of a value that should have been a text. -/
def shapeName : Value → String
  | .literal .null => "NoneType"
  | .literal (.boolean _) => "bool"
  | .literal (.integer _) => "int"
  | .literal (.real _) => "float"
  | .literal (.text _) | .unpaired _ => "str"
  | .literal (.date _) => "date"
  | .literal (.moment _) => "datetime"
  | .decimal _ => "Decimal"
  | .list _ => "list"
  | .object _ | .unpairedNames .. => "dict"

/-- Read the occurrences of one field, each a predicate of its own. -/
def readOccurrences (field : Text) : List Occurrence → Except QueryFault (List Filter)
  | [] => .ok []
  | .other v :: _ => .error (.nestedValue field (shapeName v))
  | .text raw :: xs =>
    match Predicate.read (some field) raw with
    | .error e => .error e
    | .ok p =>
      match readOccurrences field xs with
      | .error e => .error e
      | .ok fs => .ok (.test field p :: fs)

/-- The filter of all occurrences of one field. -/
def ofOccurrences (field : Text) (xs : List Occurrence) : Except QueryFault Filter :=
  match readOccurrences field xs with
  | .error e => .error e
  | .ok [] => .error (.noValue field)
  | .ok fs => .ok (merge fs)

/-- The filters of the fields, in the order of the keys. -/
def ofFields (allowed : List Text) : Params → Except QueryFault (List Filter)
  | [] => .ok []
  | (key, p) :: ps =>
    if key ∈ Params.reserved then ofFields allowed ps
    else if key ∉ allowed then .error (.unknownField key none)
    else match ofOccurrences key p.occurrences with
      | .error e => .error e
      | .ok f =>
        match ofFields allowed ps with
        | .error e => .error e
        | .ok fs => .ok (f :: fs)

/-- The texts of the groups under one connective. A null stands for no group. -/
def groupTexts (kind : Connective) (ps : Params) : List Occurrence :=
  match ps.lookup kind.key with
  | none => []
  | some (.one (.other (.literal .null))) => []
  | some p => p.occurrences

/-- The filters of several groups under one connective. -/
def ofGroups (allowed : List Text) (kind : Connective) :
    List Occurrence → Except QueryFault (List Filter)
  | [] => .ok []
  | .other _ :: _ => .error (.notText kind.key)
  | .text t :: xs =>
    match Group.read allowed kind t with
    | .error e => .error e
    | .ok f =>
      match ofGroups allowed kind xs with
      | .error e => .error e
      | .ok fs => .ok (f :: fs)

/-- The filters of the groups under several connectives. -/
def ofConnectives (allowed : List Text) (ps : Params) :
    List Connective → Except QueryFault (List Filter)
  | [] => .ok []
  | k :: ks =>
    match ofGroups allowed k (groupTexts k ps) with
    | .error e => .error e
    | .ok fs =>
      match ofConnectives allowed ps ks with
      | .error e => .error e
      | .ok gs => .ok (fs ++ gs)

/-- The filter of a request; `none` if nothing in it filters. -/
def parse (allowed : List Text) (ps : Params) : Except QueryFault (Option Filter) :=
  match ofFields allowed ps with
  | .error e => .error e
  | .ok fs =>
    match ofConnectives allowed ps Connective.all with
    | .error e => .error e
    | .ok gs =>
      match fs ++ gs with
      | [] => .ok none
      | parts => .ok (some (.all parts))

end Filter
end TableService
