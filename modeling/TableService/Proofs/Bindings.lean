import TableService.Resource.Binding
import TableService.Proofs.Outcomes

/-!
# Bindings that were made

A binding is made in one chain of checks and choices. If it was made, every step of the chain
succeeded, and **what each step gave is a part of the binding**.
-/

namespace TableService
namespace Binding

/-- The binding of a table under the standard settings, if it can be made. -/
def ofOptions (table : Table) (o : BindingOptions) : Binding :=
  (create table .standard o).toOption.getD default

/-- What is known of a binding that was made for a table. -/
structure Made (table : Table) (settings : Settings) (o : BindingOptions) (b : Binding) : Prop where
  table_eq : b.table = table
  filterable : checkFields table b.filterable "filterable" b.name = .ok ()
  orderable : checkFields table b.orderable "orderable" b.name = .ok ()
  searchable : checkFields table b.searchable "searchable" b.name = .ok ()
  keys : Keys.resolve table o.keyPolicy = .ok b.keys
  schemas : SchemaSet.forTable table o.schemas = .ok b.schemas
  ordering : chooseOrdering table o.defaultOrdering = .ok b.defaultOrdering
  mode : chooseMode o.pagination settings = .ok b.pagination
  bound : b.maxPageSize = settings.maxPageSize
  filterable_eq : b.filterable = o.filterable.getD []
  orderable_eq : b.orderable = o.orderable.getD table.columnNames
  pageSize_eq : b.pageSize = choosePageSize o.pageSize settings

theorem made_of_create {table : Table} {settings : Settings} {o : BindingOptions} {b : Binding}
    (h : create table settings o = .ok b) : Made table settings o b := by
  obtain ⟨_, hfilterable, h⟩ := Outcome.bind_eq_ok.mp h
  obtain ⟨_, horderable, h⟩ := Outcome.bind_eq_ok.mp h
  obtain ⟨_, hsearchable, h⟩ := Outcome.bind_eq_ok.mp h
  obtain ⟨keys, hkeys, h⟩ := Outcome.bind_eq_ok.mp h
  obtain ⟨schemas, hschemas, h⟩ := Outcome.bind_eq_ok.mp h
  obtain ⟨ordering, hordering, h⟩ := Outcome.bind_eq_ok.mp h
  obtain ⟨mode, hmode, h⟩ := Outcome.bind_eq_ok.mp h
  cases h
  exact ⟨rfl, hfilterable, horderable, hsearchable, hkeys, hschemas, hordering, hmode, rfl, rfl,
    rfl, rfl⟩

/-- The fields of a checked list are columns of the table. -/
theorem column_of_checkFields {table : Table} {fields : List Text} {kind : String}
    {resource : Text} (h : checkFields table fields kind resource = .ok ()) :
    ∀ name ∈ fields, (table.column? name).isSome := by
  intro name hname
  unfold checkFields at h
  split at h
  · next hnil =>
    have hnone := List.filter_eq_nil_iff.mp hnil name hname
    exact Option.isSome_iff_ne_none.mpr (by simpa using hnone)
  · cases h

end Binding
end TableService
