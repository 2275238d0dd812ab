import TableService.Filter.Tree
import TableService.Table

/-!
# Conditions

A condition is what a filter becomes for the store: a tree over tests of columns against bound
literals. It is **kept in the form in which it is printed**. A conjunction of one part is that
part, a conjunction inside a conjunction is spliced in (likewise for disjunctions), and a negation
is pushed into a test by taking the opposite test; it stays visible only around a conjunction, a
disjunction, an array test, or another visible negation.

The smart constructors `Condition.conj`, `Condition.disj` and `Condition.negate` keep that form.
-/

namespace TableService
namespace Sql

/-- A test of one column. -/
inductive Test where
  | isNull (negated : Bool)
  | compare (relation : Relation) (x : Literal)
  | equalsConstant (negated : Bool) (b : Bool)
  | among (negated : Bool) (xs : List Literal)
  | between (negated : Bool) (low high : Literal)
  | like (caseless negated : Bool) (x : Literal)
  | array (test : ArrayTest) (xs : List Literal)
  deriving DecidableEq, Repr, Inhabited

/-- A condition on the rows of a table. -/
inductive Condition where
  | test (column : Column) (t : Test)
  | all (parts : List Condition)
  | any (parts : List Condition)
  | not (part : Condition)
  deriving Repr, Inhabited

/-- The relation that holds exactly where the given one does not. -/
def opposite : Relation → Relation
  | .eq => .ne
  | .ne => .eq
  | .gt => .le
  | .ge => .lt
  | .lt => .ge
  | .le => .gt

/-- The opposite of a test; array tests have none. -/
def Test.opposite? : Test → Option Test
  | .isNull n => some (.isNull !n)
  | .compare r x => some (.compare (opposite r) x)
  | .equalsConstant n b => some (.equalsConstant (!n) b)
  | .among n xs => some (.among (!n) xs)
  | .between n low high => some (.between (!n) low high)
  | .like c n x => some (.like c (!n) x)
  | .array _ _ => none

namespace Condition

/-- The parts a condition contributes to a conjunction. -/
def conjuncts : Condition → List Condition
  | .all parts => parts
  | c => [c]

/-- The parts a condition contributes to a disjunction. -/
def disjuncts : Condition → List Condition
  | .any parts => parts
  | c => [c]

/-- The conjunction of conditions. -/
def conj (cs : List Condition) : Condition :=
  match cs with
  | [c] => c
  | cs => .all (cs.flatMap conjuncts)

/-- The disjunction of conditions. -/
def disj (cs : List Condition) : Condition :=
  match cs with
  | [c] => c
  | cs => .any (cs.flatMap disjuncts)

/-- The negation of a condition. -/
def negate : Condition → Condition
  | .test column t =>
    match t.opposite? with
    | some u => .test column u
    | none => .not (.test column t)
  | c => .not c

mutual

/-- Whether a condition has a test of an array in it. -/
def hasArrayTest : Condition → Bool
  | .test _ (.array _ _) => true
  | .test _ _ => false
  | .all parts => anyHasArrayTest parts
  | .any parts => anyHasArrayTest parts
  | .not part => hasArrayTest part

/-- Whether one of several conditions has a test of an array in it. -/
def anyHasArrayTest : List Condition → Bool
  | [] => false
  | c :: cs => hasArrayTest c || anyHasArrayTest cs

end

mutual

/-- The columns that a condition tests. -/
def columns : Condition → List Column
  | .test c _ => [c]
  | .all parts => columnsOf parts
  | .any parts => columnsOf parts
  | .not part => columns part

/-- The columns that several conditions test. -/
def columnsOf : List Condition → List Column
  | [] => []
  | c :: cs => columns c ++ columnsOf cs

end

end Condition
end Sql
end TableService
