import TableService.Resource.Keys
import TableService.Schema.Model
import TableService.Settings
import TableService.Query.Ordering

/-!
# Bindings

A binding fixes everything about a resource that no request can change: its table, its lookup
columns, its schemas, **which fields a request may filter by, sort by and search in**, and how it
is paged. It is checked once, when it is made; every field list names columns of the table only.
-/

namespace TableService

/-- A resource, bound to a table. -/
structure Binding where
  name : Text
  table : Table
  keys : Keys
  schemas : SchemaSet
  filterable : List Text
  orderable : List Text
  searchable : List Text
  defaultOrdering : Option (List OrderItem)
  pageSize : Int
  maxPageSize : Int
  pagination : PaginationMode
  deriving Repr, Inhabited

/-- What a binding is made from. Whatever is missing has a default. -/
structure BindingOptions where
  name : Option Text := none
  keyPolicy : KeyPolicy := .none
  schemas : SchemaChoice := .none
  filterable : Option (List Text) := none
  orderable : Option (List Text) := none
  searchable : Option (List Text) := none
  defaultOrdering : Option Text := none
  pageSize : Option Int := none
  pagination : Option Text := none
  deriving Repr, Inhabited

namespace Binding

/-- Check that every name in a list is a column of the table. -/
def checkFields (table : Table) (fields : List Text) (kind : String) (resource : Text) :
    Except Problem Unit :=
  match fields.filter fun f => (table.column? f).isNone with
  | [] => .ok ()
  | unknown =>
    .error (.service (Text.ofString "Unknown " ++ Text.ofString kind
      ++ Text.ofString " field(s) on \"" ++ table.name ++ Text.ofString "\": "
      ++ commaList unknown) (some resource))

/-- The page size of a binding: zero counts as none. -/
def choosePageSize (given : Option Int) (settings : Settings) : Int :=
  match given with
  | none => settings.pageSize
  | some n => if n = 0 then settings.pageSize else n

/-- The pagination mode of a binding: an empty name counts as none. -/
def chooseMode (given : Option Text) (settings : Settings) : Except Problem PaginationMode :=
  match nonempty? given with
  | none => .ok settings.pagination
  | some name => PaginationMode.named name

/-- The default order of a binding; it may name any column of the table. -/
def chooseOrdering (table : Table) (given : Option Text) :
    Except Problem (Option (List OrderItem)) :=
  (Ordering.parse table.columnNames (given.getD [])).mapError QueryFault.problem

/-- Bind a resource to a table. -/
def create (table : Table) (settings : Settings) (o : BindingOptions) : Except Problem Binding := do
  let name := (nonempty? o.name).getD table.name
  let filterable := o.filterable.getD []
  let orderable := o.orderable.getD table.columnNames
  let searchable := o.searchable.getD []
  checkFields table filterable "filterable" name
  checkFields table orderable "orderable" name
  checkFields table searchable "searchable" name
  let keys ← Keys.resolve table o.keyPolicy
  let schemas ← SchemaSet.forTable table o.schemas
  let ordering ← chooseOrdering table o.defaultOrdering
  let mode ← chooseMode o.pagination settings
  return {
    name := name, table := table, keys := keys, schemas := schemas, filterable := filterable,
    orderable := orderable, searchable := searchable, defaultOrdering := ordering,
    pageSize := choosePageSize o.pageSize settings, maxPageSize := settings.maxPageSize,
    pagination := mode }

/-- The columns of the table among a schema's fields, in the schema's order; all columns of the
table if there is none among them. -/
def columnsOf (b : Binding) (s : Schema) : List Column :=
  match s.fieldNames.filterMap b.table.column? with
  | [] => b.table.columns
  | cs => cs

/-- The columns a listing reads. -/
def listColumns (b : Binding) : List Column := b.columnsOf b.schemas.list

/-- The columns that are read of a single row. -/
def retrieveColumns (b : Binding) : List Column := b.columnsOf b.schemas.retrieve

end Binding
end TableService
