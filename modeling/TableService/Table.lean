import TableService.Value

/-!
# Tables

A table is a name and a list of columns. What the service needs to know of a column is its type,
whether it may be null, and **what fills it when nothing is given**: a default of the column, a
default of the store, or a generated key.
-/

namespace TableService

/-- The types of columns. `untyped` has no type, `custom` is a type without a known value type. -/
inductive ColumnType where
  | integer
  | bigInteger
  | string
  | text
  | float
  | boolean
  | date
  | dateTime
  | numeric
  | json
  | strings
  | integers
  | untyped
  | custom
  deriving DecidableEq, Repr, Inhabited

/-- A column of a table. -/
structure Column where
  name : Text
  type : ColumnType
  primaryKey : Bool
  nullable : Bool
  fallback : Option Value
  serverDefault : Option Text
  autoincrement : Option Bool
  unique : Bool
  deriving Repr, Inhabited

/-- A table. -/
structure Table where
  name : Text
  columns : List Column
  deriving Repr, Inhabited

/-- Whether a column, or the elements of an array column, hold text. -/
def ColumnType.bindsText : ColumnType → Bool
  | .string | .text | .strings => true
  | _ => false

/-- Whether a column type is one of the integer types. -/
def ColumnType.isInteger : ColumnType → Bool
  | .integer | .bigInteger => true
  | _ => false

namespace Table

/-- The column with a name. -/
def column? (t : Table) (name : Text) : Option Column := t.columns.find? fun c => c.name == name

/-- The names of the columns, in order. -/
def columnNames (t : Table) : List Text := t.columns.map Column.name

/-- The columns of the primary key. -/
def primaryKey (t : Table) : List Column := t.columns.filter Column.primaryKey

/-- The only column of the primary key; `none` if it has several columns or none. -/
def singleKey? (t : Table) : Option Column :=
  match t.primaryKey with
  | [c] => some c
  | _ => none

theorem name_of_column? {t : Table} {name : Text} {c : Column} (h : t.column? name = some c) :
    c.name = name := by
  have := List.find?_some h
  simpa using this

theorem mem_of_column? {t : Table} {name : Text} {c : Column} (h : t.column? name = some c) :
    c ∈ t.columns := List.mem_of_find?_eq_some h

theorem mem_of_singleKey? {t : Table} {c : Column} (h : t.singleKey? = some c) :
    c ∈ t.columns := by
  unfold singleKey? at h
  split at h
  · next d hkey =>
    obtain rfl : d = c := by simpa using h
    have hmem : d ∈ t.primaryKey := by simp [hkey]
    exact (List.mem_filter.mp hmem).1
  · exact absurd h (by simp)

end Table
end TableService
