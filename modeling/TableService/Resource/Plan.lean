import TableService.Resource.Binding
import TableService.Filter.Parse
import TableService.Sql.Statement

/-!
# Plans

A plan is all a listing needs before it touches the store: the filter, the order, the page and
the columns. It is made afresh for every request from the binding and the request's parameters,
in a fixed order, so **of several faults in a request the filter's comes first**, then the sort
specification's, then the page's.
-/

namespace TableService

/-- What a listing will read. -/
structure Plan where
  table : Table
  columns : List Column
  filter : Option Filter
  order : Option (List OrderItem)
  page : PageSpec
  deriving Repr, Inhabited

namespace Plan

/-- The number of rows to read at most; `none` if the listing is not paged. -/
def limit (p : Plan) : Option Int := if p.page.enabled then some p.page.limit else none

/-- The number of rows to skip; `none` if the listing is not paged. -/
def offset (p : Plan) : Option Int := if p.page.enabled then some p.page.offset else none

/-- The number of rows to read at most, as it was sent. -/
def limitShown (p : Plan) : Value := if p.page.enabled then p.page.sizeShown else .null

/-- The condition of the plan's filter. -/
def condition (p : Plan) : Except QueryFault (Option Sql.Condition) :=
  match p.filter with
  | none => .ok none
  | some f =>
    match Sql.compile p.table f with
    | .error e => .error e
    | .ok c => .ok (some c)

/-- The query that carries out the plan. -/
def select (p : Plan) : Except QueryFault Sql.Select :=
  match p.condition with
  | .error e => .error e
  | .ok c =>
    match Sql.compileOrder p.table (p.order.getD []) with
    | .error e => .error e
    | .ok ks =>
      .ok ⟨p.table, p.columns, c, ks,
        if p.page.enabled then some (p.page.limit, p.page.offset) else none⟩

/-- The plan as an object: the filter's JSON form, the sort tokens, limit and offset. -/
def describe (p : Plan) : List (Text × Value) := [
  (Text.ofString "table", .text p.table.name),
  (Text.ofString "columns", .list (p.columns.map fun c => .text c.name)),
  (Text.ofString "filter", .ofOption Filter.toJson p.filter),
  (Text.ofString "sort", .ofOption (fun xs => .list (xs.map fun x => .text x.token)) p.order),
  (Text.ofString "limit", p.limitShown),
  (Text.ofString "offset", .ofOption .integer p.offset)]

/-- The number sent under a key that may appear only once. -/
def rawNumber (ps : Params) (key : Text) : Except PageFault RawNumber :=
  match ps.single key with
  | .error e => .error (.query e)
  | .ok x => .ok (.ofOccurrence x)

/-- The page a request asks for. -/
def pageOf (mode : PaginationMode) (size : Int) (bound : Option Int) (ps : Params) :
    Except PageFault PageSpec :=
  match rawNumber ps Params.pageKey with
  | .error e => .error e
  | .ok page =>
    match rawNumber ps Params.sizeKey with
    | .error e => .error e
    | .ok requested => PageSpec.resolve mode size page requested bound

/-- The filter of a request; without filterable fields no parameter filters. -/
def filterOf (fields : List Text) (ps : Params) : Except QueryFault (Option Filter) :=
  match fields with
  | [] => .ok none
  | fields => Filter.parse fields ps

/-- The plan of a listing. -/
def build (b : Binding) (ps : Params) : Except Problem Plan :=
  match filterOf b.filterable ps with
  | .error e => .error e.problem
  | .ok filter =>
    match Ordering.ofRequest b.orderable ps with
    | .error e => .error e.problem
    | .ok order =>
      match pageOf b.pagination b.pageSize (some b.maxPageSize) ps with
      | .error e => .error e.problem
      | .ok page => .ok ⟨b.table, b.listColumns, filter, order.or b.defaultOrdering, page⟩

end Plan
end TableService
