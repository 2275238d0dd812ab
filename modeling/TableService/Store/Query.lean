import TableService.Store.Basic
import TableService.Store.Like
import TableService.Sql.Statement

/-!
# Queries on the store

A query takes the rows for which its condition holds, puts them in the order of its sort keys, and
cuts a window out of them. **Rows with equal keys stay as the store came by them**, and the number
of rows before the window was cut comes along. A lookup takes the first row only. A search is a
query whose test is a pattern on several columns.
-/

namespace TableService
namespace Store

/-- Whether a condition takes a row. -/
def takes (condition : Option Sql.Condition) (r : Row) : Bool :=
  match condition with
  | none => true
  | some c => (c.truth reading r.cell).holds

/-- The part of a list that a limit and an offset leave. A negative limit is none. -/
def cutWindow {α : Type} (window : Option (Int × Int)) (xs : List α) : List α :=
  match window with
  | none => xs
  | some (limit, offset) =>
    let ys := xs.drop offset.toNat
    if limit < 0 then ys else ys.take limit.toNat

/-- Check that a query asks nothing that the store has no operation for. -/
def requireSupported (q : Sql.Select) : Except StoreFault Unit :=
  if q.isSupported .sqlite then .ok () else .error .unsupported

/-- The literals of a limit and an offset. -/
def windowLiterals : Option (Int × Int) → List Literal
  | none => []
  | some (limit, offset) => [.integer limit, .integer offset]

/-- What a query found: the rows of its window, and how many rows there were before it was cut. -/
structure Found where
  rows : List Row
  total : Nat
  deriving Repr, Inhabited

/-- The rows that pass a test, sorted and cut to a window. -/
def find (s : Store) (keep : Row → Bool) (order : List Sql.SortKey)
    (window : Option (Int × Int)) : Found :=
  let rows := sortRows order (s.rows.filter keep)
  ⟨cutWindow window rows, rows.length⟩

/-- Carry out a query. The way to its rows does not depend on its window. -/
def select (s : Store) (q : Sql.Select) : Except StoreFault Found := do
  requireSupported q
  s.requireTable
  requireBindable (Sql.parametersOf (q.pieces .sqlite))
  let met := s.scanned ⟨q.columns, .condition q.condition, q.order⟩
  return met.find (takes q.condition) q.order q.window

/-- The literals in a condition. -/
def operandsOf (s : Store) (condition : Sql.Condition) : List Literal :=
  Sql.parametersOf (Sql.conditionPieces .sqlite s.table condition)

/-- The first row that a condition takes. The condition, or why there is none, is looked at after
the table. -/
def first? (s : Store) (condition : Except StoreFault Sql.Condition) :
    Except StoreFault (Option Row) := do
  s.requireTable
  let condition ← condition
  requireBindable (s.operandsOf condition)
  return s.rows.find? (takes (some condition))

/-- The row that a lookup comes by first, of which columns are to be read. -/
def lookUp? (s : Store) (columns : List Column) :
    Except StoreFault Sql.Condition → Except StoreFault (Option Row)
  | .error f => s.first? (.error f)
  | .ok c => (s.scanned ⟨columns, .condition (some c), []⟩).first? (.ok c)

/-- Whether one of several columns has a text that matches a pattern, in which a backslash takes
away the meaning of the next character. -/
def anyMatches (fields : List Column) (pattern : Text) (r : Row) : Bool :=
  fields.any fun c => Cell.like (some '\\') (.text pattern) (r.cell c)

/-- The rows in which one of several columns matches a pattern, at most a number of them, of which
columns are to be read. -/
def search (s : Store) (columns fields : List Column) (pattern : Text) (order : List Sql.SortKey)
    (limit : Option Int) : Except StoreFault Found := do
  let window := limit.map fun n => (n, 0)
  s.requireTable
  requireBindable (windowLiterals window)
  let met := s.scanned ⟨columns, .pattern fields pattern, order⟩
  return met.find (anyMatches fields pattern) order window

end Store
end TableService
