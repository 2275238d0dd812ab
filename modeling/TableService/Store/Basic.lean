import TableService.Store.Scan

/-!
# The store

One table with its rows, and the way in which queries go through them. Every row has a number, and
**the rows are listed in ascending order of their numbers**; a new row is numbered one higher than
the last. Statements are functions of the store: queries are in `Store.Query`, writes in
`Store.Write`.
-/

namespace TableService

/-- A table with its rows. A dropped table accepts no statement. -/
structure Store where
  table : Table
  rows : List Store.Row
  isDropped : Bool
  scan : Store.Scan := .alongKeys table
  deriving Inhabited

namespace Store

/-- A table with rows. -/
def ofRows (t : Table) (rows : List Row) : Store := { table := t, rows := rows, isDropped := false }

/-- A table without rows. -/
def empty (t : Table) : Store := ofRows t []

/-- A store with its rows in the order in which a query comes by them. -/
def scanned (s : Store) (q : Query) : Store := { s with rows := s.scan.arrange q s.rows }

theorem scanned_perm (s : Store) (q : Query) : (s.scanned q).rows.Perm s.rows :=
  s.scan.perm q s.rows

theorem mem_scanned {s : Store} {q : Query} {r : Row} : r ∈ (s.scanned q).rows ↔ r ∈ s.rows :=
  (s.scanned_perm q).mem_iff

/-- Whether the store has columns of a type: it has no arrays, and every column has a type. -/
def hasType : ColumnType → Bool
  | .strings | .integers | .untyped => false
  | _ => true

/-- Create a table without rows. -/
def create (t : Table) : Except Problem Store :=
  if t.columns.all fun c => hasType c.type then .ok (empty t)
  else .error (.outside (Text.ofString "CompileError") [])

/-! ## Checks that come before every statement -/

/-- Check that there is a table. -/
def requireTable (s : Store) : Except StoreFault Unit :=
  if s.isDropped then .error .missingTable else .ok ()

theorem requireTable_eq_ok {s : Store} : s.requireTable = .ok () ↔ s.isDropped = false := by
  unfold requireTable
  cases s.isDropped <;> simp

@[simp]
theorem requireTable_scanned (s : Store) (q : Query) :
    (s.scanned q).requireTable = s.requireTable := rfl

/-- Whether a literal can be bound. -/
def bindable : Literal → Bool
  | .integer n => fitsWord n
  | _ => true

/-- Check that literals can be bound. -/
def requireBindable (ls : List Literal) : Except StoreFault Unit :=
  if ls.all bindable then .ok () else .error .oversized

end Store
end TableService
