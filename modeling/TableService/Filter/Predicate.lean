import TableService.Filter.Operand

/-!
# Predicates on a column

A predicate is what a filter asks of one column. Its **shape fixes its operands**: an order
comparison has one, a range has two, a list test has any number, a null test has none. There are
seventeen operators, each a shape with its choices filled in.

A `Draft` is the loose form in which a predicate may be put together by hand: an operator, a list
of operands, a flag. `Draft.predicate?` is the check that operator and operands fit.
-/

namespace TableService

/-- The operators, as they are named. -/
inductive Operator where
  | eq | ne | gt | ge | lt | le
  | inList | notInList
  | null
  | like | notLike | ilike | notIlike
  | between | notBetween
  | contains | contained
  deriving DecidableEq, Repr

/-- The name of an operator. -/
def Operator.name : Operator → String
  | .eq => "EQ"
  | .ne => "NEQ"
  | .gt => "GT"
  | .ge => "GTE"
  | .lt => "LT"
  | .le => "LTE"
  | .inList => "IN"
  | .notInList => "NOT_IN"
  | .null => "NULL"
  | .like => "LIKE"
  | .notLike => "NOT_LIKE"
  | .ilike => "ILIKE"
  | .notIlike => "NOT_ILIKE"
  | .between => "BETWEEN"
  | .notBetween => "NOT_BETWEEN"
  | .contains => "CONTAINS"
  | .contained => "CONTAINED"

/-- The key of an operator in the JSON form of a filter. -/
def Operator.key : Operator → Text
  | .eq => ['$', 'e', 'q']
  | .ne => ['$', 'n', 'e']
  | .gt => ['$', 'g', 't']
  | .ge => ['$', 'g', 't', 'e']
  | .lt => ['$', 'l', 't']
  | .le => ['$', 'l', 't', 'e']
  | .inList => ['$', 'i', 'n']
  | .notInList => ['$', 'n', 'i', 'n']
  | .null => ['$', 'n', 'u', 'l', 'l']
  | .like => ['$', 'l', 'i', 'k', 'e']
  | .notLike => ['$', 'n', 'l', 'i', 'k', 'e']
  | .ilike => ['$', 'i', 'l', 'i', 'k', 'e']
  | .notIlike => ['$', 'n', 'i', 'l', 'i', 'k', 'e']
  | .between => ['$', 'b', 'e', 't', 'w', 'e', 'e', 'n']
  | .notBetween => ['$', 'n', 'b', 'e', 't', 'w', 'e', 'e', 'n']
  | .contains => ['$', 'c', 'o', 'n', 't', 'a', 'i', 'n', 's']
  | .contained => ['$', 'c', 'o', 'n', 't', 'a', 'i', 'n', 'e', 'd']

/-- All operators. -/
def Operator.all : List Operator := [
  .eq, .ne, .gt, .ge, .lt, .le, .inList, .notInList, .null, .like, .notLike, .ilike, .notIlike,
  .between, .notBetween, .contains, .contained]

/-- The six order comparisons. -/
inductive Relation where
  | eq | ne | gt | ge | lt | le
  deriving DecidableEq, Repr

/-- The operator of an order comparison. -/
def Relation.operator : Relation → Operator
  | .eq => .eq
  | .ne => .ne
  | .gt => .gt
  | .ge => .ge
  | .lt => .lt
  | .le => .le

/-- The two tests on array columns: the column holds all the values, or nothing else. -/
inductive ArrayTest where
  | contains | contained
  deriving DecidableEq, Repr

/-- What is asked of one column. -/
inductive Predicate where
  | null (holds : Bool)
  | compare (relation : Relation) (x : Operand)
  | pattern (caseless negated : Bool) (x : Operand)
  | among (negated : Bool) (xs : List Operand)
  | between (negated : Bool) (low high : Operand)
  | array (test : ArrayTest) (xs : List Operand)
  deriving DecidableEq, Repr, Inhabited

namespace Predicate

/-- The operator of a predicate. -/
def operator : Predicate → Operator
  | .null _ => .null
  | .compare r _ => r.operator
  | .pattern false false _ => .like
  | .pattern false true _ => .notLike
  | .pattern true false _ => .ilike
  | .pattern true true _ => .notIlike
  | .among false _ => .inList
  | .among true _ => .notInList
  | .between false _ _ => .between
  | .between true _ _ => .notBetween
  | .array .contains _ => .contains
  | .array .contained _ => .contained

/-- The operands of a predicate, in order. -/
def operands : Predicate → List Operand
  | .null _ => []
  | .compare _ x => [x]
  | .pattern _ _ x => [x]
  | .among _ xs => xs
  | .between _ low high => [low, high]
  | .array _ xs => xs

/-- For a null test, whether the column has to be null. -/
def nullFlag : Predicate → Option Bool
  | .null holds => some holds
  | _ => none

/-- A literal in the JSON form of a filter, where dates are texts. -/
def jsonOf (x : Operand) : Value :=
  match x.literal with
  | .date d => .text d.text
  | .moment t => .text t.text
  | l => .literal l

/-- What stands under the operator's key in the JSON form. -/
def payload : Predicate → Value
  | .null holds => .boolean holds
  | .compare _ x => jsonOf x
  | .pattern _ _ x => jsonOf x
  | .among _ xs => .list (xs.map jsonOf)
  | .between _ low high => .list [jsonOf low, jsonOf high]
  | .array _ xs => .list (xs.map jsonOf)

/-- The JSON form: one member, named by the operator. -/
def toJson (p : Predicate) : Value := .object [(p.operator.key, p.payload)]

end Predicate

/-! ## Predicates put together by hand -/

/-- An operator with operands that may not fit it. -/
structure Draft where
  operator : Operator
  operands : List Operand
  nullFlag : Option Bool
  deriving DecidableEq, Repr

/-- How operands fail to fit an operator. -/
inductive ArityFault where
  | nullTest
  | atLeastOne (operator : Operator)
  | exactlyTwo (operator : Operator)
  | exactlyOne (operator : Operator)
  deriving DecidableEq, Repr

/-- The wording of an arity fault. -/
def ArityFault.message : ArityFault → String
  | .nullTest => "NULL operator takes no values and requires is_null"
  | .atLeastOne o => o.name ++ " requires at least one value"
  | .exactlyTwo o => o.name ++ " requires exactly two values"
  | .exactlyOne o => o.name ++ " requires exactly one value"

/-- Check that operands fit their operator. Only a null test looks at the flag. -/
def Draft.predicate? (d : Draft) : Except ArityFault Predicate :=
  let one (f : Operand → Predicate) : Except ArityFault Predicate :=
    match d.operands with
    | [x] => .ok (f x)
    | _ => .error (.exactlyOne d.operator)
  let some_ (f : List Operand → Predicate) : Except ArityFault Predicate :=
    match d.operands with
    | [] => .error (.atLeastOne d.operator)
    | xs => .ok (f xs)
  let two (f : Operand → Operand → Predicate) : Except ArityFault Predicate :=
    match d.operands with
    | [x, y] => .ok (f x y)
    | _ => .error (.exactlyTwo d.operator)
  match d.operator with
  | .null =>
    match d.operands, d.nullFlag with
    | [], some holds => .ok (.null holds)
    | _, _ => .error .nullTest
  | .eq => one (.compare .eq)
  | .ne => one (.compare .ne)
  | .gt => one (.compare .gt)
  | .ge => one (.compare .ge)
  | .lt => one (.compare .lt)
  | .le => one (.compare .le)
  | .like => one (.pattern false false)
  | .notLike => one (.pattern false true)
  | .ilike => one (.pattern true false)
  | .notIlike => one (.pattern true true)
  | .inList => some_ (.among false)
  | .notInList => some_ (.among true)
  | .contains => some_ (.array .contains)
  | .contained => some_ (.array .contained)
  | .between => two (.between false)
  | .notBetween => two (.between true)

/-- The loose form of a predicate. -/
def Predicate.draft (p : Predicate) : Draft := ⟨p.operator, p.operands, p.nullFlag⟩

end TableService
