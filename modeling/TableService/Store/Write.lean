import TableService.Store.Key
import TableService.Store.Query

/-!
# Writes to the store

An insertion, an update and a deletion either fail, and then there is no new store, or give the
store after them. **They fail rather than break a rule of the table.** A value becomes a parameter
first, which may be refused, and a cell of its column when it is stored. A column for which nothing
is given takes its own default, else the default of the store, else null. The number of the row is
its own default, whatever else the number column says.
-/

namespace TableService
namespace Store

/-- The number of the next row. -/
def nextNumber (s : Store) : Int :=
  match s.rows.getLast? with
  | none => 1
  | some r => r.id + 1

/-- Put a row at its place among others. -/
def place (r : Row) : List Row → List Row
  | [] => [r]
  | x :: xs => if r.id < x.id then r :: x :: xs else x :: place r xs

/-- The given values as parameters, in the order of the columns. -/
def bindAll (given : Members) : List Column → Except StoreFault (List (Column × Parameter))
  | [] => .ok []
  | c :: cs =>
    match given.lookup c.name with
    | none => bindAll given cs
    | some v =>
      match Codec.parameter c.type v with
      | .error e => .error e
      | .ok x => (bindAll given cs).map ((c, x) :: ·)

/-- Parameters as cells. -/
def cellsOf : List (Column × Parameter) → Except StoreFault (List (Column × Cell))
  | [] => .ok []
  | (c, p) :: ps =>
    match p.cell? with
    | .error e => .error e
    | .ok x => (cellsOf ps).map ((c, x) :: ·)

/-- Cells as their columns store them. -/
def storedAll (cells : List (Column × Cell)) : List (Text × Cell) :=
  cells.map fun (c, x) => (c.name, Codec.stored c x)

/-- The value that fills a column when none is given. -/
def fallbackOf (given : Members) (c : Column) : Option (Text × Value) :=
  if (given.lookup c.name).isSome then none else c.fallback.map fun v => (c.name, v)

/-- The cell of a column that neither a value nor a default of the column fills. -/
def serverCell (t : Table) (c : Column) : Cell :=
  match c.serverDefault with
  | none => .null
  | some d =>
    if (numberColumn? t).any fun n => n.name == c.name then .null else Codec.stored c (.text d)

/-- A cell for every column: the given one, else what the store fills in. -/
def fill (t : Table) (cells : List (Text × Cell)) : List (Text × Cell) :=
  t.columns.map fun c => (c.name, (cells.lookup c.name).getD (serverCell t c))

/-- Insert a row. The result is the new row with the store that has it. -/
def insert (s : Store) (values : Members) : Except StoreFault (Row × Store) := do
  let given := values ++ s.table.columns.filterMap (fallbackOf values)
  let parameters ← bindAll given s.table.columns
  s.requireTable
  let cells ← cellsOf parameters
  match numbered? s.table s.nextNumber ⟨0, fill s.table (storedAll cells)⟩ with
  | none => .error .misnumbered
  | some r =>
    requireFilled s.table r
    if s.rows.any (clash s.table r) then .error .duplicate
    else return (r, { s with rows := place r s.rows })

/-- A row with some of its cells replaced. -/
def Row.set (r : Row) (cells : List (Text × Cell)) : Row :=
  { r with cells := r.cells.map fun (name, x) => (name, (cells.lookup name).getD x) }

/-- A row after an update; `none` if its number column would hold no number. -/
def Row.updated? (t : Table) (cells : List (Text × Cell)) (r : Row) : Option Row :=
  let r' := r.set cells
  match numberColumn? t with
  | none => some r'
  | some c =>
    match r'.cell c with
    | .integer n => some { r' with id := n }
    | _ => none

/-- The rows after an update of those that a condition takes, each with whether it was taken. -/
def updatedRows? (s : Store) (condition : Sql.Condition) (cells : List (Text × Cell)) :
    Option (List (Bool × Row)) :=
  s.rows.mapM fun r =>
    if takes (some condition) r then (r.updated? s.table cells).map fun r' => (true, r')
    else some (false, r)

/-- Rows in ascending order of their numbers. -/
def inOrder (rows : List (Bool × Row)) : List (Bool × Row) :=
  rows.mergeSort fun a b => decide (a.2.id ≤ b.2.id)

/-- Check that several rows have a cell wherever their table asks for one. -/
def requireAllFilled (t : Table) : List (Bool × Row) → Except StoreFault Unit
  | [] => .ok ()
  | m :: ms =>
    match requireFilled t m.2 with
    | .error e => .error e
    | .ok _ => requireAllFilled t ms

/-- Update the rows that a condition takes. The result has the first of them, if there is one. The
condition, or why there is none, is looked at after the values. -/
def update (s : Store) (condition : Except StoreFault Sql.Condition) (values : Members) :
    Except StoreFault (Option Row × Store) := do
  let parameters ← bindAll values s.table.columns
  s.requireTable
  let cells ← cellsOf parameters
  let condition ← condition
  requireBindable (s.operandsOf condition)
  match s.updatedRows? condition (storedAll cells) with
  | none => .error .misnumbered
  | some marked =>
    let rows := inOrder marked
    requireAllFilled s.table (rows.filter (·.1))
    if noClash s.table (rows.map (·.2)) then
      return ((rows.find? (·.1)).map (·.2), { s with rows := rows.map (·.2) })
    else .error .duplicate

/-- Delete the rows that a condition takes. The result has the first of them, if there is one. -/
def delete (s : Store) (condition : Except StoreFault Sql.Condition) :
    Except StoreFault (Option Row × Store) := do
  s.requireTable
  let condition ← condition
  requireBindable (s.operandsOf condition)
  return (s.rows.find? (takes (some condition)),
    { s with rows := s.rows.filter fun r => !takes (some condition) r })

end Store
end TableService
