import TableService.Number.Decimal
import TableService.Time.Calendar

/-!
# Values

What the service hands around: the data of a request body, the fields of a row, the operands of a
comparison. **A `Literal` is a value that a query can spell**; a `Value` is any value, so it also
has the decimals, lists and objects that bodies and columns hold. An object keeps its members in
the order they came.

A string of a JSON text may have a surrogate without its partner and is then no text. Such a string,
and an object with such a name, is kept as it is spelled in JSON.
-/

namespace TableService

/-- A value that a query token can spell. -/
inductive Literal where
  | null
  | boolean (b : Bool)
  | integer (n : Int)
  | real (x : Binary64)
  | text (t : Text)
  | date (d : Date)
  | moment (t : DateTime)
  deriving DecidableEq, Repr, Inhabited

/-- Any value. `unpaired` is a string with an unpaired surrogate, `unpairedNames` an object with
such names, of which `members` has the others. -/
inductive Value where
  | literal (l : Literal)
  | decimal (x : Decimal)
  | list (items : List Value)
  | object (members : List (Text × Value))
  | unpaired (spelling : Text)
  | unpairedNames (spelling : Text) (members : List (Text × Value))
  deriving Repr, Inhabited

/-- The members of an object, in order. -/
abbrev Members := List (Text × Value)

namespace Value

/-- The null value. -/
@[match_pattern] abbrev null : Value := .literal .null

/-- A boolean. -/
@[match_pattern] abbrev boolean (b : Bool) : Value := .literal (.boolean b)

/-- An integer. -/
@[match_pattern] abbrev integer (n : Int) : Value := .literal (.integer n)

/-- A binary64 number. -/
@[match_pattern] abbrev real (x : Binary64) : Value := .literal (.real x)

/-- A text. -/
@[match_pattern] abbrev text (t : Text) : Value := .literal (.text t)

/-- A date. -/
@[match_pattern] abbrev date (d : Date) : Value := .literal (.date d)

/-- A date-time. -/
@[match_pattern] abbrev moment (t : DateTime) : Value := .literal (.moment t)

/-- A natural number. -/
abbrev nat (n : Nat) : Value := .integer n

/-- The characters of a string, as a value. -/
abbrev string (s : String) : Value := .text s.toList

/-- A value or null. -/
def ofOption {α : Type} (f : α → Value) : Option α → Value
  | none => null
  | some a => f a

/-- The member of an object under a name. -/
def member? (name : Text) : Value → Option Value
  | .object members => members.lookup name
  | _ => none

mutual

/-- How deep lists and objects are nested in a value. -/
def depth : Value → Nat
  | .literal _ | .decimal _ | .unpaired _ => 0
  | .list vs => itemsDepth vs + 1
  | .object ms | .unpairedNames _ ms => membersDepth ms + 1

/-- The greatest depth of the items of a list. -/
def itemsDepth : List Value → Nat
  | [] => 0
  | v :: vs => max (depth v) (itemsDepth vs)

/-- The greatest depth of the members of an object. -/
def membersDepth : List (Text × Value) → Nat
  | [] => 0
  | (_, v) :: ms => max (depth v) (membersDepth ms)

end

mutual

/-- Whether every string in a value is a text. -/
def isPaired : Value → Bool
  | .literal _ | .decimal _ => true
  | .unpaired _ | .unpairedNames .. => false
  | .list vs => areItemsPaired vs
  | .object ms => areMembersPaired ms

/-- Whether every string in the items of a list is a text. -/
def areItemsPaired : List Value → Bool
  | [] => true
  | v :: vs => isPaired v && areItemsPaired vs

/-- Whether every string in the members of an object is a text. -/
def areMembersPaired : List (Text × Value) → Bool
  | [] => true
  | (_, v) :: ms => isPaired v && areMembersPaired ms

end

/-- Whether a value is null. -/
def isNull : Value → Bool
  | .literal .null => true
  | _ => false

/-- Whether a value counts as absent where a setting falls back to a default: null, false, zero,
and everything empty. -/
def isEmptyish : Value → Bool
  | null => true
  | boolean b => !b
  | integer n => n == 0
  | real (.finite _ m _) => m == 0
  | text t => t.isEmpty
  | .list items => items.isEmpty
  | .object members => members.isEmpty
  | _ => false

end Value
end TableService
