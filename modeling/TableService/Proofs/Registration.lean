import TableService.Proofs.HiddenColumn
import TableService.Proofs.Listings

/-!
# Registration is enough

A resource is checked once, when it is bound to its table, and requests are checked against what
the binding keeps. Nothing is checked a second time when a plan is compiled, so the checks at
registration have to carry three lookups that come later: of the column that a row is found by, of
the columns that a filter asks about, and of the columns that rows are sorted by. They do:

> a binding has a lookup column for every operation on one row, and **every plan that a request is
> given compiles**, whatever was sent.

The names that reach a lookup come from the allow-lists of the binding, which name columns, or from
its default ordering, which is read against all columns of the table. The second is why the names
of the columns have to be plain: a name with a comma would be cut into names that are no columns.
What else could keep a filter from compiling, a predicate that has no test on its column, is never
read from a request (`Filter.isTestable_of_parse`).
-/

namespace TableService

/-! ## 1. Lookup columns -/

namespace Keys

variable {table : Table} {policy : KeyPolicy}

theorem mem_of_resolveOne {op : Operation} {c : Column}
    (h : resolveOne table policy op = .ok (some c)) : c ∈ table.columns := by
  unfold resolveOne at h
  split at h
  · split at h
    · next d hd =>
      obtain rfl : d = c := by simpa using h
      exact Table.mem_of_column? hd
    · exact absurd h (by simp)
  · exact Table.mem_of_singleKey? (by simpa using h)

/-- What resolves, resolves operation by operation. -/
theorem of_resolve {k : Keys} (h : resolve table policy = .ok k) :
    resolveOne table policy .retrieve = .ok (some k.retrieve) ∧
      resolveOne table policy .update = .ok (some k.update) ∧
      resolveOne table policy .destroy = .ok (some k.destroy) := by
  unfold resolve at h
  split at h
  · exact absurd h (by simp)
  · next r hr =>
    split at h
    · exact absurd h (by simp)
    · next u hu =>
      split at h
      · exact absurd h (by simp)
      · next d hd =>
        split at h
        · obtain rfl := Except.ok.inj h
          exact ⟨hr, hu, hd⟩
        · exact absurd h (by simp)

/-- **Every operation on one row has a lookup column, and it is one of the table.** -/
theorem exists_column?_of_resolve {k : Keys} (h : resolve table policy = .ok k) :
    ∀ op ∈ Operation.details, ∃ c ∈ table.columns, k.column? op = some c := by
  obtain ⟨hretrieve, hupdate, hdestroy⟩ := of_resolve h
  intro op hop
  simp only [Operation.details, List.mem_cons, List.not_mem_nil, or_false] at hop
  rcases hop with rfl | rfl | rfl
  · exact ⟨k.retrieve, mem_of_resolveOne hretrieve, rfl⟩
  · exact ⟨k.update, mem_of_resolveOne hupdate, rfl⟩
  · exact ⟨k.destroy, mem_of_resolveOne hdestroy, rfl⟩

end Keys

/-! ## 2. Names that are columns -/

theorem Sql.compileOrder_of_columns {table : Table} :
    ∀ {xs : List OrderItem}, (∀ x ∈ xs, (table.column? x.field).isSome) →
      ∃ ks, Sql.compileOrder table xs = .ok ks := by
  intro xs
  induction xs with
  | nil => intro _; exact ⟨[], rfl⟩
  | cons x xs ih =>
    intro h
    obtain ⟨hx, hxs⟩ := List.forall_mem_cons.mp h
    obtain ⟨c, hc⟩ := Option.isSome_iff_exists.mp hx
    obtain ⟨ks, hks⟩ := ih hxs
    exact ⟨⟨c, x.descending⟩ :: ks, by simp [Sql.compileOrder, hc, hks]⟩

theorem Table.isSome_column?_of_mem_columnNames {table : Table} {name : Text}
    (h : name ∈ table.columnNames) : (table.column? name).isSome := by
  obtain ⟨c, hc, rfl⟩ := List.mem_map.mp h
  rw [Table.column?, List.find?_isSome]
  exact ⟨c, hc, by simp⟩

namespace Binding

variable {table : Table} {b : Binding}

theorem mem_of_mem_columnsOf {s : Schema} {c : Column} (h : c ∈ b.columnsOf s) :
    c ∈ b.table.columns := by
  unfold columnsOf at h
  split at h
  -- A schema that names no column of the table leaves the choice to the table.
  · exact h
  · obtain ⟨name, _, hcolumn⟩ := List.mem_filterMap.mp h
    exact Table.mem_of_column? hcolumn

/-- A default ordering names columns of the table. -/
theorem column_of_chooseOrdering {given : Option Text} {order : Option (List OrderItem)}
    (hplain : ∀ c ∈ table.columns, Text.IsPlainName c.name)
    (h : chooseOrdering table given = .ok order) :
    ∀ x ∈ order.getD [], (table.column? x.field).isSome := by
  have hnames : ∀ name ∈ table.columnNames, Text.IsPlainName name := by
    intro name hname
    obtain ⟨c, hc, rfl⟩ := List.mem_map.mp hname
    exact hplain c hc
  have hparsed := Outcome.mapError_eq_ok.mp h
  intro x hx
  cases order with
  | none => exact absurd hx (by simp)
  | some xs =>
    apply Table.isSome_column?_of_mem_columnNames
    exact Ordering.field_mem_of_parse hnames hparsed x hx

end Binding

/-! ## 3. Plans -/

namespace Plan

/-- Whether a plan names nothing but columns of a table, and only what its binding allows: it reads
columns, filters by filterable ones, sorts by orderable ones or as the binding does by default, and
compiles. -/
structure IsGrounded (p : Plan) (table : Table) (b : Binding) : Prop where
  columns : ∀ c ∈ p.columns, c ∈ table.columns
  filterable : ∀ f, p.filter = some f → ∀ leaf ∈ f.leaves,
    leaf.1 ∈ b.filterable ∧ (table.column? leaf.1).isSome
  orderable : ∀ x ∈ p.order.getD [],
    (x.field ∈ b.orderable ∨ x ∈ b.defaultOrdering.getD []) ∧ (table.column? x.field).isSome
  selects : ∃ q, p.select = .ok q

variable {table : Table} {b : Binding} {p : Plan}

/-- A plan whose fields are columns, and whose predicates have tests on them, compiles. -/
theorem exists_select (hfilter : ∀ f, p.filter = some f → f.Fits p.table)
    (htestable : ∀ f, p.filter = some f → f.IsTestable p.table)
    (horder : ∀ x ∈ p.order.getD [], (p.table.column? x.field).isSome) :
    ∃ q, p.select = .ok q := by
  obtain ⟨ks, hks⟩ := Sql.compileOrder_of_columns horder
  have hcondition : ∃ c, p.condition = .ok c := by
    cases hf : p.filter with
    | none => exact ⟨none, by simp [condition, hf]⟩
    | some f =>
      obtain ⟨c, hc⟩ := (Filter.compile_testable f (hfilter f hf)).1 (htestable f hf)
      exact ⟨some c, by simp [condition, hf, hc]⟩
  obtain ⟨c, hc⟩ := hcondition
  exact ⟨_, select_eq_ok.mpr ⟨c, ks, hc, hks, rfl⟩⟩

theorem isGrounded_of_build {settings : Settings} {o : BindingOptions} {ps : Params}
    (hb : Binding.create table settings o = .ok b)
    (hplain : ∀ c ∈ table.columns, Text.IsPlainName c.name) (h : build b ps = .ok p) :
    p.IsGrounded table b := by
  have hmade := Binding.made_of_create hb
  obtain ⟨htable, hcolumns, hwithin, hallowed⟩ := of_build h (Binding.plain_of_create hb hplain)
  rw [hmade.table_eq] at htable
  have hfilterable := Binding.column_of_checkFields hmade.filterable
  have horderable := Binding.column_of_checkFields hmade.orderable
  have hdefault := Binding.column_of_chooseOrdering hplain hmade.ordering
  have hfilter : ∀ f, p.filter = some f → ∀ leaf ∈ f.leaves,
      leaf.1 ∈ b.filterable ∧ (table.column? leaf.1).isSome := by
    intro f hf leaf hleaf
    have hmem := hwithin f hf leaf hleaf
    exact ⟨hmem, hfilterable _ hmem⟩
  have horder : ∀ x ∈ p.order.getD [],
      (x.field ∈ b.orderable ∨ x ∈ b.defaultOrdering.getD []) ∧
        (table.column? x.field).isSome := by
    intro x hx
    refine ⟨hallowed x hx, ?_⟩
    rcases hallowed x hx with hmem | hmem
    · exact horderable _ hmem
    · exact hdefault x hmem
  constructor
  · intro c hc
    rw [hcolumns] at hc
    exact hmade.table_eq ▸ Binding.mem_of_mem_columnsOf hc
  · exact hfilter
  · exact horder
  · apply exists_select
    · intro f hf leaf hleaf
      rw [htable]
      exact (hfilter f hf leaf hleaf).2
    · exact isTestable_of_build h
    · intro x hx
      rw [htable]
      exact (horder x hx).2

end Plan

namespace Binding

/-- **The checks at registration are enough.** Take a table whose columns have plain names, and any
binding that is made for it. Every operation on one row has a lookup column of the table, and every
plan that is built for a request, whatever the request has sent, names columns of the table only,
keeps to what the binding allows, and compiles. -/
theorem checks_suffice {table : Table} {settings : Settings} {o : BindingOptions} {b : Binding}
    (hb : create table settings o = .ok b)
    (hplain : ∀ c ∈ table.columns, Text.IsPlainName c.name) :
    (∀ op ∈ Operation.details, ∃ c ∈ table.columns, b.keys.column? op = some c) ∧
      ∀ (ps : Params) (p : Plan), Plan.build b ps = .ok p → p.IsGrounded table b := by
  constructor
  · exact Keys.exists_column?_of_resolve (made_of_create hb).keys
  · intro ps p h
    exact Plan.isGrounded_of_build hb hplain h

/-- A table of stock: which shop has how much of which article. -/
def stock : Table where
  name := ['s']
  columns := [
    ⟨['s', 'h', 'o', 'p'], .integer, true, false, none, none, none, false⟩,
    ⟨['i', 't', 'e', 'm'], .string, true, false, none, none, none, false⟩,
    ⟨['n'], .integer, false, true, none, none, none, false⟩]

/-- A binding without a key of its own: rows are updated by their shop and else found by their
article. Rows may be sorted by the shop, and are sorted by their number if nothing is asked for. -/
def stockOptions : BindingOptions where
  keyPolicy := ⟨none, some ['s', 'h', 'o', 'p'], none, some ['i', 't', 'e', 'm']⟩
  filterable := some [['i', 't', 'e', 'm'], ['n']]
  orderable := some [['s', 'h', 'o', 'p']]
  defaultOrdering := some ['-', 'n', ',', 'i', 't', 'e', 'm']

def stockBinding : Binding := ofOptions stock stockOptions

/-- A request for some articles and numbers, on the second page. -/
def stockRequest : Params := [
  (['i', 't', 'e', 'm'], .many [.text ['~', 'a', '%'], .text ['!', 'a', 'b']]),
  (['n', 'o', 't'], .one (.text ['(', 'n', '=', '1', '.', '.', '3', '|', 'n', ')'])),
  (['p', 'a', 'g', 'e'], .one (.text ['2']))]

theorem checks_suffice_stock :
    (create stock .standard stockOptions = .ok stockBinding ∧
        (∀ c ∈ stock.columns, Text.IsPlainName c.name) ∧
        ∃ p, Plan.build stockBinding stockRequest = .ok p ∧ p.IsGrounded stock stockBinding) ∧
      ∀ op ∈ Operation.details, ∃ c ∈ stock.columns, stockBinding.keys.column? op = some c := by
  have hb : create stock .standard stockOptions = .ok stockBinding := rfl
  have hplain : ∀ c ∈ stock.columns, Text.IsPlainName c.name := by decide
  have hsuffice := checks_suffice hb hplain
  exact ⟨⟨hb, hplain, _, rfl, hsuffice.2 stockRequest _ rfl⟩, hsuffice.1⟩

end Binding
end TableService
