import TableService.Value
import TableService.Number.Literal
import TableService.Time.Iso

/-!
# Operands

An operand is a token of a query together with **what the token spells**. The reading is fixed:
the words `true`, `false` and `null` in any case, then number literals, then dates and
date-times, and everything else is a text. The token itself is kept, because a text column is
compared with the token as written (`007` stays `007`).

The only failure is an integer literal with more digits than an integer may have.
-/

namespace TableService

/-- The kinds of operands. Integers that binary64 cannot hold exactly are a kind of their own. -/
inductive Kind where
  | string
  | number
  | bigint
  | boolean
  | null
  | date
  deriving DecidableEq, Repr

/-- The name of a kind. -/
def Kind.name : Kind → String
  | .string => "string"
  | .number => "number"
  | .bigint => "bigint"
  | .boolean => "boolean"
  | .null => "null"
  | .date => "date"

/-- The greatest integer that binary64 holds together with all smaller ones. -/
def maxSafeInteger : Nat := 9007199254740991

/-- The kind of a literal. -/
def Literal.kind : Literal → Kind
  | .null => .null
  | .boolean _ => .boolean
  | .integer n => if n.natAbs > maxSafeInteger then .bigint else .number
  | .real _ => .number
  | .text _ => .string
  | .date _ => .date
  | .moment _ => .date

/-- A token and the literal it spells. -/
structure Operand where
  literal : Literal
  token : Text
  deriving DecidableEq, Repr, Inhabited

/-- An integer literal has more digits than an integer may have. -/
inductive Oversized where
  | oversizedInteger
  deriving DecidableEq, Repr

namespace Operand

/-- The kind of an operand. -/
def kind (x : Operand) : Kind := x.literal.kind

/-- An operand that is its token and nothing else. -/
def ofText (t : Text) : Operand := ⟨.text t, t⟩

/-- Whether an operand can stand in an order comparison. -/
def isOrdered (x : Operand) : Bool :=
  match x.kind with
  | .number | .bigint | .date => true
  | _ => false

/-- The words with a meaning of their own, in lower case. -/
def word? (token : Text) : Option Literal :=
  let t := Text.asciiLower token
  if t = ['t', 'r', 'u', 'e'] then some (.boolean true)
  else if t = ['f', 'a', 'l', 's', 'e'] then some (.boolean false)
  else if t = ['n', 'u', 'l', 'l'] then some .null
  else none

/-- The number a token spells. A literal beyond the range of binary64 spells none. -/
def number? (token : Text) : Except Oversized (Option Literal) :=
  match NumberLiteral.read? (Text.strip token) with
  | none => .ok none
  | some x =>
    if x.isInteger then
      if x.whole.length > maxIntegerDigits then .error .oversizedInteger
      else .ok (some (.integer x.toInt))
    else
      let v := x.toBinary64
      .ok (if v.isFinite then some (.real v) else none)

/-- The date or date-time a token spells. -/
def date? (token : Text) : Option Literal :=
  let t := Text.strip token
  if looksLikeDate t then
    if t.length = 10 then (Date.read? t).map .date else (DateTime.read? t).map .moment
  else none

/-- What a token spells. -/
def literalOf (token : Text) : Except Oversized Literal :=
  match word? token with
  | some l => .ok l
  | none =>
    match number? token with
    | .error e => .error e
    | .ok (some l) => .ok l
    | .ok none => .ok ((date? token).getD (.text token))

/-- Read a token. -/
def read (token : Text) : Except Oversized Operand :=
  match literalOf token with
  | .error e => .error e
  | .ok l => .ok ⟨l, token⟩

theorem token_of_read {token : Text} {x : Operand} (h : read token = .ok x) : x.token = token := by
  unfold read at h
  split at h
  · cases h
  · cases h; rfl

end Operand
end TableService
