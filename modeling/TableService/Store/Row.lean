import TableService.Sql.Compile
import TableService.Store.Codec

/-!
# Rows

A row has a number and cells, by the names of their columns. **What a row shows is read through the
types of its columns**; how rows stand to each other under sort keys is read off their cells alone.
-/

namespace TableService
namespace Store

/-- A row: its number and its cells, by column name. -/
structure Row where
  id : Int
  cells : List (Text × Cell)
  deriving Repr, Inhabited

namespace Row

/-- The cell of a column. -/
def cell (r : Row) (c : Column) : Cell := (r.cells.lookup c.name).getD .null

/-- The values of columns, by name. -/
def values (r : Row) : List Column → Except Problem Members
  | [] => .ok []
  | c :: cs =>
    match Codec.decode c.type (r.cell c) with
    | .error e => .error e
    | .ok v => (values r cs).map ((c.name, v) :: ·)

/-- The values of columns in several rows. -/
def valuesOfAll (cs : List Column) : List Row → Except Problem (List Members)
  | [] => .ok []
  | r :: rs =>
    match r.values cs with
    | .error e => .error e
    | .ok v => (valuesOfAll cs rs).map (v :: ·)

end Row

/-- Whether one row may stand before another under sort keys. -/
def mayPrecede : List Sql.SortKey → Row → Row → Bool
  | [], _, _ => true
  | k :: ks, a, b =>
    let o := (a.cell k.column).compare (b.cell k.column)
    match if k.descending then o.swap else o with
    | .lt => true
    | .gt => false
    | .eq => mayPrecede ks a b

/-- Rows in the order of sort keys. -/
def sortRows (ks : List Sql.SortKey) (rows : List Row) : List Row :=
  match ks with
  | [] => rows
  | ks => rows.mergeSort (mayPrecede ks)

theorem sortRows_perm (ks : List Sql.SortKey) (rows : List Row) : (sortRows ks rows).Perm rows := by
  unfold sortRows
  split
  · exact .refl rows
  · exact List.mergeSort_perm rows _

end Store
end TableService
