import TableService.Filter.Predicate

/-!
# Filter trees

A filter is a tree over predicates on columns, with `and`, `or` and `not` as its inner nodes. The
tree is what a query means; how it is spelled in a query and how it is compiled for the store are
told elsewhere.
-/

namespace TableService

/-- A filter. -/
inductive Filter where
  | test (field : Text) (p : Predicate)
  | all (parts : List Filter)
  | any (parts : List Filter)
  | not (part : Filter)
  deriving Repr, Inhabited

/-- What joins the parts of a group. -/
inductive Connective where
  | and | or | not
  deriving DecidableEq, Repr

namespace Connective

/-- The query key that opens a group. -/
def key : Connective → Text
  | .and => ['a', 'n', 'd']
  | .or => ['o', 'r']
  | .not => ['n', 'o', 't']

/-- The connective a key opens a group of. -/
def ofKey? (t : Text) : Option Connective :=
  if t = ['a', 'n', 'd'] then some .and
  else if t = ['o', 'r'] then some .or
  else if t = ['n', 'o', 't'] then some .not
  else none

/-- The name of a connective. -/
def name : Connective → String
  | .and => "AND"
  | .or => "OR"
  | .not => "NOT"

/-- The connectives, in the order in which their groups are taken from a query. -/
def all : List Connective := [.and, .or, .not]

theorem ofKey?_key (k : Connective) : ofKey? k.key = some k := by cases k <;> rfl

theorem key_of_ofKey? {t : Text} {k : Connective} (h : ofKey? t = some k) : t = k.key := by
  unfold ofKey? at h
  split at h
  · cases h; assumption
  · split at h
    · cases h; assumption
    · split at h
      · cases h; assumption
      · cases h

end Connective

/-- A group with a number of parts that its connective does not take. -/
inductive GroupArityFault where
  | notOne
  | empty (kind : Connective)
  deriving DecidableEq, Repr

/-- The wording of a group's arity fault. -/
def GroupArityFault.message : GroupArityFault → String
  | .notOne => "NOT takes exactly one child"
  | .empty k => k.name ++ " requires at least one child"

namespace Filter

/-- A group put together by hand: `not` takes one part, the others at least one. -/
def group (kind : Connective) (parts : List Filter) : Except GroupArityFault Filter :=
  match kind, parts with
  | .not, [f] => .ok (.not f)
  | .not, _ => .error .notOne
  | k, [] => .error (.empty k)
  | .and, fs => .ok (.all fs)
  | .or, fs => .ok (.any fs)

/-- A group as a query spells it: `not` over several parts is `not` of their conjunction. -/
def combine (kind : Connective) (parts : List Filter) : Filter :=
  match kind, parts with
  | .and, fs => .all fs
  | .or, fs => .any fs
  | .not, [f] => .not f
  | .not, fs => .not (.all fs)

mutual

/-- The predicates of a filter with their columns, from left to right. -/
def leaves : Filter → List (Text × Predicate)
  | .test field p => [(field, p)]
  | .all parts => leavesOf parts
  | .any parts => leavesOf parts
  | .not part => leaves part

/-- The predicates of several filters. -/
def leavesOf : List Filter → List (Text × Predicate)
  | [] => []
  | f :: fs => leaves f ++ leavesOf fs

end

mutual

/-- The JSON form of a filter. -/
def toJson : Filter → Value
  | .test field p => .object [(field, p.toJson)]
  | .all parts => .object [(['$', 'a', 'n', 'd'], .list (toJsonList parts))]
  | .any parts => .object [(['$', 'o', 'r'], .list (toJsonList parts))]
  | .not part => .object [(['$', 'n', 'o', 't'], toJson part)]

/-- The JSON forms of several filters. -/
def toJsonList : List Filter → List Value
  | [] => []
  | f :: fs => toJson f :: toJsonList fs

end

end Filter
end TableService
