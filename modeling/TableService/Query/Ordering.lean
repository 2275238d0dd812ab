import TableService.Query.Params

/-!
# Sort specifications

A sort specification is a list of field names with commas between them, each with a `-` in front
if it sorts downwards. Acceptance and reading are separate: **a specification is accepted if it
can be cut, at some of its commas, into allowed names** with at most one `-` in front of each
(a name may itself hold commas or begin with `-`), and it is then read by cutting at every comma.
-/

namespace TableService

/-- One sort key. -/
structure OrderItem where
  field : Text
  descending : Bool
  deriving DecidableEq, Repr, Inhabited

/-- The token that spells a sort key. -/
def OrderItem.token (x : OrderItem) : Text := if x.descending then '-' :: x.field else x.field

/-- The sort key a token spells. -/
def OrderItem.ofToken : Text → OrderItem
  | '-' :: r => ⟨r, true⟩
  | t => ⟨t, false⟩

namespace Ordering

/-- The tokens a specification may be cut into. -/
def tokens (allowed : List Text) : List Text :=
  allowed ++ allowed.map fun name => '-' :: name

/-- Whether a text can be cut at commas into tokens. The first argument bounds the number of
pieces. -/
def isCut (tokens : List Text) : Nat → Text → Bool
  | 0, _ => false
  | n + 1, t =>
    tokens.any fun token =>
      match Text.dropFront? token t with
      | none => false
      | some [] => true
      | some (c :: r) => c == ',' && isCut tokens n r

/-- Whether a specification is accepted. A set of names with no character in it accepts none. -/
def accepts (allowed : List Text) (raw : Text) : Bool :=
  allowed.any (fun name => name ≠ []) && isCut (tokens allowed) (raw.length + 1) raw

/-- What a token names once every `-` in front of it is gone. -/
def bareName (token : Text) : Text := token.dropWhile (· == '-')

/-- The names in a specification that are not allowed. -/
def unknownNames (allowed : List Text) (raw : Text) : List Text :=
  ((Text.pieces ',' raw).map bareName).filter fun name => name ∉ allowed

/-- Why a specification is refused: it names unknown fields, or it is malformed. -/
def refusal (allowed : List Text) (raw : Text) : QueryFault :=
  let unknown := unknownNames allowed raw
  if unknown ≠ [] ∧ [] ∉ unknown then .unsortable unknown else .malformedSort raw

/-- Read a sort specification; an empty one asks for no order. -/
def parse (allowed : List Text) (raw : Text) : Except QueryFault (Option (List OrderItem)) :=
  if raw = [] then .ok none
  else if accepts allowed raw then .ok (some ((Text.pieces ',' raw).map OrderItem.ofToken))
  else .error (refusal allowed raw)

/-- Read the sort specification of a request. -/
def ofRequest (allowed : List Text) (ps : Params) : Except QueryFault (Option (List OrderItem)) :=
  match ps.single Params.sortKey with
  | .error e => .error e
  | .ok none => .ok none
  | .ok (some (.text raw)) => parse allowed raw
  | .ok (some (.other v)) =>
    if v.isEmptyish then .ok none else .error (.notText Params.sortKey)

end Ordering
end TableService
