import TableService.Table
import TableService.Problem

/-!
# Declaring a table

A table is declared column by column. **Every column has a name, and no two have the same one**; the
first column that breaks this is the reason why there is no table.
-/

namespace TableService

/-- The problem of a column whose name another one has. -/
def Problem.repeatedColumn : Problem := .outside (Text.ofString "DuplicateColumnError") []

namespace Table

/-- Check columns that follow others with some names. -/
def checkColumns (taken : List Text) : List Column → Except Problem Unit
  | [] => .ok ()
  | c :: cs =>
    if c.name = [] then .error .invalidArgument
    else if c.name ∈ taken then .error .repeatedColumn
    else checkColumns (c.name :: taken) cs

/-- A table with a name and columns. -/
def declare (name : Text) (columns : List Column) : Except Problem Table :=
  match checkColumns [] columns with
  | .error e => .error e
  | .ok _ => .ok ⟨name, columns⟩

end Table
end TableService
