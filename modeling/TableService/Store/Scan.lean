import TableService.Store.Key

/-!
# Ways through a table

A query says which rows it is about, and which of them comes before which. It does not say in what
order the store comes by them, and **rows that the query puts in no order are answered as the store
came by them**. That order is an affair of the store: it may take the rows by their numbers, or
along a key that brings it to the rows of the query sooner.

So a store has a `Scan`. All that is known of a scan is that it comes by every row, once.

`Scan.alongKeys` is the scan of a store that keeps its rows sorted by each key of their table. It
follows the key whose first column the query bounds most closely, unless it bounds the row numbers
as closely. If it bounds neither, it follows a key in which it finds all that the query names. It
follows one key at most, although a store may go along several of them for a disjunction.
-/

namespace TableService

namespace Sql.Test

/-- Whether a test leaves one value. -/
def fixes : Test → Bool
  | .isNull false | .compare .eq _ | .equalsConstant false _ => true
  | _ => false

/-- Whether a test leaves no value below some bound. -/
def boundsBelow : Test → Bool
  | .compare .gt _ | .compare .ge _ | .among false _ | .between false _ _ => true
  | _ => false

/-- Whether a test leaves no value above some bound. -/
def boundsAbove : Test → Bool
  | .compare .lt _ | .compare .le _ | .among false _ | .between false _ _ => true
  | _ => false

end Sql.Test

namespace Store

/-! ## 1. What is asked -/

/-- What a query asks of a row: a condition, or a pattern for one of several columns. -/
inductive Sought where
  | condition (c : Option Sql.Condition)
  | pattern (fields : List Column) (p : Text)
  deriving Repr, Inhabited

/-- The columns in which something is sought. -/
def Sought.columns : Sought → List Column
  | .condition none => []
  | .condition (some c) => c.columns
  | .pattern fields _ => fields

/-- A query, as far as the way to its rows may depend on it: the columns it reads, what it asks of a
row, and how it sorts. -/
structure Query where
  columns : List Column
  sought : Sought
  order : List Sql.SortKey
  deriving Repr, Inhabited

namespace Query

/-- The columns that a query names. -/
def named (q : Query) : List Column :=
  q.columns ++ q.sought.columns ++ q.order.map Sql.SortKey.column

/-- The tests of a column that every row of a query passes. -/
def testsOf (q : Query) (c : Column) : List Sql.Test :=
  match q.sought with
  | .condition (some d) => d.conjuncts.filterMap fun
    | .test column t => if column.name = c.name then some t else none
    | _ => none
  | _ => []

/-- How closely a query bounds a column: to one value, on both sides, on one, or not at all. -/
def closeness (q : Query) (c : Column) : Nat :=
  let tests := q.testsOf c
  if tests.any Sql.Test.fixes then 3
  else (tests.any Sql.Test.boundsBelow).toNat + (tests.any Sql.Test.boundsAbove).toNat

/-- How closely a query bounds a key: as closely as its first column. -/
def bound (q : Query) (key : List Column) : Nat := (key.head?.map q.closeness).getD 0

/-- Whether all that a query names is in some of the columns of a table, but not in all of them. -/
def isCovered (q : Query) (t : Table) (cs : List Column) : Bool :=
  let has (c : Column) := cs.any fun d => d.name == c.name
  q.named.all has && !t.columns.all has

end Query

/-! ## 2. Scans -/

/-- A way through the rows of a table. -/
structure Scan where
  arrange : Query → List Row → List Row
  perm : ∀ q rows, (arrange q rows).Perm rows

/-- The scan that takes the rows by their numbers. -/
def Scan.byNumber : Scan := ⟨fun _ rows => rows, fun _ _ => .refl _⟩

instance : Inhabited Scan := ⟨.byNumber⟩

/-- The key that a query is followed along; `none` if the rows are taken by their numbers. -/
def followed? (t : Table) (q : Query) : Option (List Column) :=
  let number := (numberColumn? t).toList
  let keys := (uniqueKeys t).filter fun key => key.map Column.name != number.map Column.name
  let closest := keys.find? fun key =>
    decide (q.bound number < q.bound key) && keys.all fun other => q.bound other ≤ q.bound key
  closest.or (if q.bound number = 0 then keys.find? fun key => q.isCovered t (key ++ number)
    else none)

/-- The scan of a store that keeps its rows sorted by each key of their table. -/
def Scan.alongKeys (t : Table) : Scan where
  arrange q rows :=
    match followed? t q with
    | none => rows
    | some key => sortRows (key.map fun c => ⟨c, false⟩) rows
  perm q rows := by
    split
    · exact .refl rows
    · exact sortRows_perm _ rows

end Store
end TableService
