import TableService.Sql.Condition
import TableService.Sql.Truth

/-!
# What conditions mean

The truth value of a condition on a row. How two values compare is left to the store: a `Reading`
says which cells are null, **how a cell that is not null stands to an operand that is not null**,
which cells match a pattern or an array, and what the operands of a list become beside each other.
All the rest is fixed here: a test of a null cell is unknown unless it asks about null, a null
operand makes a comparison unknown, a list test is the disjunction of equalities and a range the
conjunction of two comparisons.
-/

namespace TableService

/-- Whether a relation holds between things that stand in an order. -/
def Relation.holds : Relation → Ordering → Bool
  | .eq, o => o == .eq
  | .ne, o => o != .eq
  | .gt, o => o == .gt
  | .ge, o => o != .lt
  | .lt, o => o == .lt
  | .le, o => o != .gt

namespace Sql

/-- How a store reads its cells. -/
structure Reading (κ : Type) where
  isNull : κ → Bool
  compare : Column → κ → Literal → Ordering
  matchesPattern : Bool → Column → κ → Literal → Bool
  array : ArrayTest → Column → κ → List Literal → Bool
  beside : Column → List Literal → List Literal

namespace Reading

variable {κ : Type}

/-- A comparison of a cell that is not null with an operand. -/
def relate (R : Reading κ) (c : Column) (x : κ) (r : Relation) (l : Literal) : Truth :=
  if l = .null then .unknown else .ofBool (r.holds (R.compare c x l))

/-- A test of a cell that is not null. -/
def present (R : Reading κ) (c : Column) (x : κ) : Test → Truth
  | .isNull negated => .ofBool negated
  | .compare r l => R.relate c x r l
  | .equalsConstant negated b => R.relate c x (if negated then .ne else .eq) (.boolean b)
  | .among negated ls => .negateIf negated (.any ((R.beside c ls).map (R.relate c x .eq)))
  | .between negated low high =>
    .negateIf negated ((R.relate c x .ge low).and (R.relate c x .le high))
  | .like caseless negated l =>
    if l = .null then .unknown else .ofBool (R.matchesPattern caseless c x l != negated)
  | .array t ls => .ofBool (R.array t c x ls)

/-- A test of a cell. -/
def test (R : Reading κ) (c : Column) (x : κ) (t : Test) : Truth :=
  if R.isNull x then
    match t with
    | .isNull negated => .ofBool !negated
    | _ => .unknown
  else R.present c x t

end Reading

variable {κ : Type}

mutual

/-- The truth value of a condition on a row, which has a cell for each column. -/
def Condition.truth (R : Reading κ) (row : Column → κ) : Condition → Truth
  | .test c t => R.test c (row c) t
  | .all parts => Condition.truthAll R row parts
  | .any parts => Condition.truthAny R row parts
  | .not part => (Condition.truth R row part).not

/-- The conjunction of conditions on a row. -/
def Condition.truthAll (R : Reading κ) (row : Column → κ) : List Condition → Truth
  | [] => .yes
  | c :: cs => (Condition.truth R row c).and (Condition.truthAll R row cs)

/-- The disjunction of conditions on a row. -/
def Condition.truthAny (R : Reading κ) (row : Column → κ) : List Condition → Truth
  | [] => .no
  | c :: cs => (Condition.truth R row c).or (Condition.truthAny R row cs)

end

end Sql
end TableService
