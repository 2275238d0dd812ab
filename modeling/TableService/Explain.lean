import TableService.Resource.Plan
import TableService.Table.Declared
import TableService.Json.Printer

/-!
# Explaining a query

What a query string would do as a listing, without any table: **its filter, its order and its page,
and the statement it becomes**. The table is made up for the purpose. Its columns are the fields
that may be filtered or sorted by, and they have no type, so that an operand keeps the type it was
read with.
-/

namespace TableService
namespace Explain

/-- What is to be explained, and under which allow-lists and defaults. -/
structure Subject where
  query : Text
  fields : List Text
  sortFields : List Text
  table : Text
  pageSize : Int
  pagination : PaginationMode
  deriving DecidableEq, Repr, Inhabited

namespace Subject

/-- The fields to sort by; all fields if none are named. -/
def orderable (x : Subject) : List Text :=
  match x.sortFields with
  | [] => x.fields
  | fs => fs

/-- A column without a type. -/
def column (name : Text) : Column := ⟨name, .untyped, false, true, none, none, none, false⟩

/-- The table with a column for each field. -/
def madeUpTable (x : Subject) : Except Problem Table :=
  Table.declare x.table (((x.fields ++ x.orderable).eraseDups).map column)

/-- The plan of the query. -/
def plan (x : Subject) : Except Problem Plan :=
  let ps := Params.ofQuery x.query
  match x.madeUpTable with
  | .error e => .error e
  | .ok table =>
    match Filter.parse x.fields ps with
    | .error e => .error e.problem
    | .ok filter =>
      match Ordering.ofRequest x.orderable ps with
      | .error e => .error e.problem
      | .ok order =>
        match Plan.pageOf x.pagination x.pageSize none ps with
        | .error e => .error e.problem
        | .ok page => .ok ⟨table, table.columns, filter, order, page⟩

end Subject

/-- A plan as it is shown. -/
def describe (p : Plan) : Value := .object [
  (Text.ofString "filter", .ofOption Filter.toJson p.filter),
  (Text.ofString "sort", .ofOption (fun xs => .list (xs.map fun x => .text x.token)) p.order),
  (Text.ofString "pagination", .object [
    (Text.ofString "enabled", .boolean p.page.enabled),
    (Text.ofString "page", p.page.pageShown),
    (Text.ofString "size", p.page.sizeShown),
    (Text.ofString "limit", p.limitShown),
    (Text.ofString "offset", .ofOption .integer p.offset)])]

/-- Whether the numbers of a plan can be written. Of those that are sent none has too many digits,
but the offset is a product. -/
def isWritable (p : Plan) : Bool :=
  match p.offset with
  | none => true
  | some n => decide ((natText n.natAbs).length ≤ maxIntegerDigits)

/-- The statement of a plan, with its literals written out. -/
def statement (d : Sql.Dialect) (p : Plan) : Except Problem Text :=
  match p.select with
  | .error e => .error e.problem
  | .ok q =>
    if q.isSupported d then .ok (Sql.inlined d (q.pieces d)) else .error .unsupportedTest

end Explain
end TableService
