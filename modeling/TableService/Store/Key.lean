import TableService.Store.Row

/-!
# Keys and rules of a table

What the rows of a table have to fulfil. **No two rows agree on a key**: on the primary key, or on a
unique column, where null agrees with nothing. A column that may not be null has a cell in every
row. A primary key that is one column of type integer is the number of its row.
-/

namespace TableService
namespace Store

/-- The column whose cells are the row numbers. -/
def numberColumn? (t : Table) : Option Column :=
  match t.singleKey? with
  | some c => if c.type = .integer then some c else none
  | none => none

/-- The lists of columns on which no two rows may agree. -/
def uniqueKeys (t : Table) : List (List Column) :=
  (match t.primaryKey with
    | [] => []
    | cs => [cs]) ++ (t.columns.filter Column.unique).map ([·])

/-- Whether two rows agree on columns. Null agrees with nothing. -/
def agree (cs : List Column) (a b : Row) : Bool :=
  cs.all fun c => !(a.cell c).isNull && (a.cell c).compare (b.cell c) == .eq

/-- Whether two rows agree on a key of the table. -/
def clash (t : Table) (a b : Row) : Bool := (uniqueKeys t).any fun cs => agree cs a b

/-- Whether no two rows clash. -/
def noClash (t : Table) : List Row → Bool
  | [] => true
  | r :: rs => rs.all (fun s => !clash t r s) && noClash t rs

/-- The first column that may not be null and has no cell in a row. -/
def unfilled? (t : Table) (r : Row) : Option Column :=
  t.columns.find? fun c => !c.nullable && (r.cell c).isNull

/-- Check that a row has a cell wherever its table asks for one. -/
def requireFilled (t : Table) (r : Row) : Except StoreFault Unit :=
  match unfilled? t r with
  | some c => .error (.unfilled c.name)
  | none => .ok ()

/-- The row with its number taken from, or put into, its number column; `none` if the cell there
is no integer. A null there stands for the given number. -/
def numbered? (t : Table) (number : Int) (r : Row) : Option Row :=
  match numberColumn? t with
  | none => some { r with id := number }
  | some c =>
    match r.cell c with
    | .null => some ⟨number, (c.name, .integer number) :: r.cells.filter fun x => x.1 != c.name⟩
    | .integer n => some { r with id := n }
    | _ => none

end Store
end TableService
