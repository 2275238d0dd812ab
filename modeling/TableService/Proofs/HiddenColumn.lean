import Mathlib.Data.List.Forall2
import TableService.Resource.Perform
import TableService.Proofs.AllowedFields
import TableService.Proofs.Bindings
import TableService.Proofs.FilterMeaning
import TableService.Proofs.SortSpecifications

/-!
# Hidden columns

A column is hidden by a binding if no list of the binding has its name: it is no field of the list
schema, and nothing may be filtered, sorted or searched by it. Main statement:

> **two stores that differ in a hidden column only answer every listing and every search alike.**

Two rows that agree except in one column go through everything a query does side by side: a filter
takes both or neither, a sort puts both at the same place, a window keeps both or neither, and
what is read of them is the same. Each of these is a lemma about columns that are not hidden; that
a request can bring no other columns is what `Proofs.AllowedFields` and `Proofs.SortSpecifications`
say.

The store is taken to come by its rows in an order that depends on the columns a query names and on
the order of the row numbers (`Scan.Overlooks`). Of a store that goes along a key this is not known
where the hidden column is a part of a key: such a key might be followed for the sake of another
column.
-/

namespace TableService

/-! ## 1. The columns of conditions and orders -/

namespace Sql.Condition

variable {κ : Type} {row row' : Column → κ}

mutual

/-- A condition looks at the columns that it tests, and at no others. -/
theorem truth_congr (R : Reading κ) : ∀ c : Condition,
    (∀ column ∈ c.columns, row column = row' column) → c.truth R row = c.truth R row'
  | .test column t, h => by
    rw [truth, truth, h column (List.mem_singleton_self column)]
  | .all parts, h => by rw [truth, truth, truthAll_congr R parts h]
  | .any parts, h => by rw [truth, truth, truthAny_congr R parts h]
  | .not part, h => by rw [truth, truth, truth_congr R part h]

theorem truthAll_congr (R : Reading κ) : ∀ cs : List Condition,
    (∀ column ∈ columnsOf cs, row column = row' column) → truthAll R row cs = truthAll R row' cs
  | [], _ => rfl
  | c :: cs, h => by
    obtain ⟨hc, hcs⟩ := List.forall_mem_append.mp h
    rw [truthAll, truthAll, truth_congr R c hc, truthAll_congr R cs hcs]

theorem truthAny_congr (R : Reading κ) : ∀ cs : List Condition,
    (∀ column ∈ columnsOf cs, row column = row' column) → truthAny R row cs = truthAny R row' cs
  | [], _ => rfl
  | c :: cs, h => by
    obtain ⟨hc, hcs⟩ := List.forall_mem_append.mp h
    rw [truthAny, truthAny, truth_congr R c hc, truthAny_congr R cs hcs]

end

/-- The columns of a list of conditions are those of its members. -/
theorem columnsOf_eq_flatMap (cs : List Condition) : columnsOf cs = cs.flatMap columns := by
  induction cs with
  | nil => rfl
  | cons c cs ih => rw [columnsOf, List.flatMap_cons, ih]

theorem columns_flatMap_conjuncts (c : Condition) : c.conjuncts.flatMap columns = c.columns := by
  cases c with
  | all cs => rw [conjuncts, columns, columnsOf_eq_flatMap]
  | _ => exact List.append_nil _

theorem columns_flatMap_disjuncts (c : Condition) : c.disjuncts.flatMap columns = c.columns := by
  cases c with
  | any cs => rw [disjuncts, columns, columnsOf_eq_flatMap]
  | _ => exact List.append_nil _

theorem columns_conj (cs : List Condition) : (conj cs).columns = cs.flatMap columns := by
  unfold conj
  split
  · exact (List.append_nil _).symm
  · rw [columns, columnsOf_eq_flatMap, List.flatMap_assoc]
    exact List.flatMap_congr fun c _ => columns_flatMap_conjuncts c

theorem columns_disj (cs : List Condition) : (disj cs).columns = cs.flatMap columns := by
  unfold disj
  split
  · exact (List.append_nil _).symm
  · rw [columns, columnsOf_eq_flatMap, List.flatMap_assoc]
    exact List.flatMap_congr fun c _ => columns_flatMap_disjuncts c

theorem columns_negate (c : Condition) : c.negate.columns = c.columns := by
  cases c with
  | test column t =>
    rw [negate]
    split <;> rfl
  | _ => rfl

end Sql.Condition

/-- The columns of the condition that a filter becomes are those its leaves name. -/
theorem Filter.columns_of_compile {table : Table} {f : Filter} {c : Sql.Condition}
    (h : Sql.compile table f = .ok c) :
    c.columns.map Column.name = f.leaves.map Prod.fst := by
  have hparts {fs : List Filter} {cs : List Sql.Condition}
      (h : List.Forall₂ (fun f c => c.columns.map Column.name = f.leaves.map Prod.fst) fs cs) :
      (cs.flatMap Sql.Condition.columns).map Column.name = (leavesOf fs).map Prod.fst := by
    induction h with
    | nil => rfl
    | cons hf _ ih => rw [List.flatMap_cons, List.map_append, hf, ih, leavesOf, List.map_append]
  have hP : IsInductive table fun f c => c.columns.map Column.name = f.leaves.map Prod.fst := {
    test := fun hc _ => congrArg (fun name => [name]) (Table.name_of_column? hc)
    all := fun h => by rw [Sql.Condition.columns_conj, hparts h, leaves]
    any := fun h => by rw [Sql.Condition.columns_disj, hparts h, leaves]
    not := fun h => by rw [Sql.Condition.columns_negate, h, leaves] }
  exact hP.of_compile f h

/-- The columns of compiled sort keys are those that the order names. -/
theorem Sql.mem_fields_of_compileOrder {table : Table} : ∀ {xs : List OrderItem}
    {ks : List Sql.SortKey}, Sql.compileOrder table xs = .ok ks →
      ∀ k ∈ ks, k.column.name ∈ xs.map OrderItem.field
  | [], ks, h => by
    cases h
    exact fun _ hk => absurd hk List.not_mem_nil
  | x :: xs, ks, h => by
    rw [Sql.compileOrder] at h
    split at h
    · cases h
    · next c hc =>
      split at h
      · cases h
      · next rest hrest =>
        cases h
        intro k hk
        rcases List.mem_cons.mp hk with rfl | hk
        · exact List.mem_cons.mpr (.inl (Table.name_of_column? hc))
        · exact List.mem_cons_of_mem _ (mem_fields_of_compileOrder hrest k hk)

/-! ## 2. Rows side by side -/

namespace Store

namespace Row

/-- Whether two rows have the same cells, except in columns of one name. -/
def AgreeExcept (hidden : Text) (r r' : Row) : Prop :=
  ∀ c : Column, c.name ≠ hidden → r.cell c = r'.cell c

variable {hidden : Text}

/-- Two rows that were made from the same cells but one. -/
theorem agreeExcept_of_cells (n n' : Int) (before after : List (Text × Cell)) (x y : Cell) :
    AgreeExcept hidden ⟨n, before ++ (hidden, x) :: after⟩
      ⟨n', before ++ (hidden, y) :: after⟩ := by
  intro c hc
  have hname : (c.name == hidden) = false := beq_false_of_ne hc
  simp only [cell, List.lookup_append, List.lookup_cons, hname]

theorem AgreeExcept.values {r r' : Row} (h : AgreeExcept hidden r r') {cs : List Column}
    (hcs : ∀ c ∈ cs, c.name ≠ hidden) : r.values cs = r'.values cs := by
  induction cs with
  | nil => rfl
  | cons c cs ih =>
    obtain ⟨hc, hcs⟩ := List.forall_mem_cons.mp hcs
    rw [Row.values, Row.values, h c hc, ih hcs]

theorem valuesOfAll_congr {rows rows' : List Row}
    (h : List.Forall₂ (AgreeExcept hidden) rows rows') {cs : List Column}
    (hcs : ∀ c ∈ cs, c.name ≠ hidden) : valuesOfAll cs rows = valuesOfAll cs rows' := by
  induction h with
  | nil => rfl
  | cons hr _ ih => rw [valuesOfAll, valuesOfAll, hr.values hcs, ih]

end Row

open Row

variable {hidden : Text}

theorem mayPrecede_congr {ks : List Sql.SortKey} (hks : ∀ k ∈ ks, k.column.name ≠ hidden)
    {a a' b b' : Row} (ha : AgreeExcept hidden a a') (hb : AgreeExcept hidden b b') :
    mayPrecede ks a b = mayPrecede ks a' b' := by
  induction ks with
  | nil => rfl
  | cons k ks ih =>
    obtain ⟨hk, hks⟩ := List.forall_mem_cons.mp hks
    rw [mayPrecede, mayPrecede, ha k.column hk, hb k.column hk, ih hks]

/-- Rows that are sorted side by side stay side by side: both sorts are the sort of the pairs. -/
theorem forall₂_mergeSort {ks : List Sql.SortKey} (hks : ∀ k ∈ ks, k.column.name ≠ hidden)
    {rows rows' : List Row} (h : List.Forall₂ (AgreeExcept hidden) rows rows') :
    List.Forall₂ (AgreeExcept hidden) (rows.mergeSort (mayPrecede ks))
      (rows'.mergeSort (mayPrecede ks)) := by
  obtain ⟨hlength, hpairs⟩ := List.forall₂_iff_zip.mp h
  let pairs := rows.zip rows'
  let le : Row × Row → Row × Row → Bool := fun p q => mayPrecede ks p.1 q.1
  have hleft : (pairs.mergeSort le).map Prod.fst = rows.mergeSort (mayPrecede ks) := by
    rw [List.map_mergeSort (s := mayPrecede ks) (fun _ _ _ _ => rfl),
      List.map_fst_zip (Nat.le_of_eq hlength)]
  have hright : (pairs.mergeSort le).map Prod.snd = rows'.mergeSort (mayPrecede ks) := by
    rw [List.map_mergeSort (s := mayPrecede ks)
        (fun p hp q hq => mayPrecede_congr hks (hpairs hp) (hpairs hq)),
      List.map_snd_zip (Nat.le_of_eq hlength.symm)]
  rw [← hleft, ← hright, List.forall₂_map_left_iff, List.forall₂_map_right_iff, List.forall₂_same]
  intro p hp
  exact hpairs (List.mem_mergeSort.mp hp)

theorem forall₂_sortRows {ks : List Sql.SortKey} (hks : ∀ k ∈ ks, k.column.name ≠ hidden)
    {rows rows' : List Row} (h : List.Forall₂ (AgreeExcept hidden) rows rows') :
    List.Forall₂ (AgreeExcept hidden) (sortRows ks rows) (sortRows ks rows') := by
  unfold sortRows
  split
  · exact h
  · exact forall₂_mergeSort hks h

theorem forall₂_cutWindow {α : Type} {R : α → α → Prop} (window : Option (Int × Int))
    {xs ys : List α} (h : List.Forall₂ R xs ys) :
    List.Forall₂ R (cutWindow window xs) (cutWindow window ys) := by
  unfold cutWindow
  split
  · exact h
  · next limit offset =>
    have hrest := List.forall₂_drop offset.toNat h
    by_cases hlimit : limit < 0
    · simpa only [hlimit, if_true] using hrest
    · simpa only [hlimit, if_false] using List.forall₂_take limit.toNat hrest

/-- Whether two stores are alike, row by row in their order, except in columns of one name. -/
structure AgreeExcept (hidden : Text) (s s' : Store) : Prop where
  isDropped : s.isDropped = s'.isDropped
  scan : s.scan = s'.scan
  rows : List.Forall₂ (Row.AgreeExcept hidden) s.rows s'.rows

/-- Whether a query names no column of a name. -/
def Query.Avoids (hidden : Text) (q : Query) : Prop := ∀ c ∈ q.named, c.name ≠ hidden

/-- Whether a scan comes by rows in an order in which columns of one name have no part, as long as
the query does not name them: rows that are alike but there are come by at the same places. -/
def Scan.Overlooks (hidden : Text) (m : Scan) : Prop :=
  ∀ q : Query, q.Avoids hidden → ∀ rows rows' : List Row,
    List.Forall₂ (Row.AgreeExcept hidden) rows rows' →
      List.Forall₂ (Row.AgreeExcept hidden) (m.arrange q rows) (m.arrange q rows')

theorem Query.avoids {columns : List Column} {sought : Sought} {order : List Sql.SortKey}
    (hcolumns : ∀ c ∈ columns, c.name ≠ hidden) (hsought : ∀ c ∈ sought.columns, c.name ≠ hidden)
    (horder : ∀ k ∈ order, k.column.name ≠ hidden) : Avoids hidden ⟨columns, sought, order⟩ :=
  List.forall_mem_append.mpr ⟨List.forall_mem_append.mpr ⟨hcolumns, hsought⟩,
    List.forall_mem_map.mpr horder⟩

theorem mem_uniqueKeys_of_followed? {t : Table} {q : Query} {key : List Column}
    (h : followed? t q = some key) : key ∈ uniqueKeys t := by
  have hmem (p : List Column → Bool) {key : List Column} {keep : List Column → Bool}
      (h : ((uniqueKeys t).filter keep).find? p = some key) : key ∈ uniqueKeys t :=
    List.mem_of_mem_filter (List.mem_of_find?_eq_some h)
  unfold followed? at h
  rcases Option.or_eq_some_iff.mp h with h | ⟨-, h⟩
  · exact hmem _ h
  · split at h
    · exact hmem _ h
    · cases h

/-- A store that goes along its keys overlooks every column that is in none of them. -/
theorem Scan.overlooks_alongKeys {t : Table}
    (h : ∀ key ∈ uniqueKeys t, ∀ c ∈ key, c.name ≠ hidden) :
    (Scan.alongKeys t).Overlooks hidden := by
  intro q _ rows rows' hrows
  unfold alongKeys
  dsimp only
  cases hkey : followed? t q with
  | none => exact hrows
  | some key =>
    refine forall₂_sortRows (fun k hk => ?_) hrows
    obtain ⟨c, hc, rfl⟩ := List.mem_map.mp hk
    exact h key (mem_uniqueKeys_of_followed? hkey) c hc

theorem AgreeExcept.scanned {s s' : Store} (h : s.AgreeExcept hidden s')
    (hscan : s.scan.Overlooks hidden) {q : Query} (hq : q.Avoids hidden) :
    (s.scanned q).AgreeExcept hidden (s'.scanned q) where
  isDropped := h.isDropped
  scan := h.scan
  rows := by
    show List.Forall₂ _ (s.scan.arrange q s.rows) (s'.scan.arrange q s'.rows)
    rw [← h.scan]
    exact hscan q hq _ _ h.rows

theorem AgreeExcept.requireTable {s s' : Store} (h : s.AgreeExcept hidden s') :
    s.requireTable = s'.requireTable := by
  rw [Store.requireTable, Store.requireTable, h.isDropped]

/-- What a statement gives on two stores that are alike: the same fault, or rows side by side. -/
inductive FoundAlike (hidden : Text) :
    Except StoreFault Found → Except StoreFault Found → Prop where
  | error (e : StoreFault) : FoundAlike hidden (.error e) (.error e)
  | ok {found found' : Found} (rows : List.Forall₂ (Row.AgreeExcept hidden) found.rows found'.rows)
      (total : found.total = found'.total) : FoundAlike hidden (.ok found) (.ok found')

theorem AgreeExcept.find {s s' : Store} (h : s.AgreeExcept hidden s') {keep : Row → Bool}
    (hkeep : ∀ r r', Row.AgreeExcept hidden r r' → keep r = keep r') {ks : List Sql.SortKey}
    (hks : ∀ k ∈ ks, k.column.name ≠ hidden) (window : Option (Int × Int)) :
    FoundAlike hidden (.ok (s.find keep ks window)) (.ok (s'.find keep ks window)) := by
  have hkept : List.Forall₂ (Row.AgreeExcept hidden) (s.rows.filter keep) (s'.rows.filter keep) :=
    List.rel_filter (fun r r' hr => Iff.of_eq (congrArg (· = true) (hkeep r r' hr))) h.rows
  have hsorted := forall₂_sortRows hks hkept
  exact .ok (forall₂_cutWindow window hsorted) hsorted.length_eq

theorem takes_congr {c : Option Sql.Condition}
    (hc : ∀ column ∈ (Sought.condition c).columns, column.name ≠ hidden) {r r' : Row}
    (h : Row.AgreeExcept hidden r r') : takes c r = takes c r' := by
  cases c with
  | none => rfl
  | some c =>
    simp only [takes]
    rw [Sql.Condition.truth_congr reading c fun column hcolumn => h column (hc column hcolumn)]

theorem AgreeExcept.select {s s' : Store} (h : s.AgreeExcept hidden s')
    (hscan : s.scan.Overlooks hidden) {q : Sql.Select}
    (hq : Query.Avoids hidden ⟨q.columns, .condition q.condition, q.order⟩) :
    FoundAlike hidden (s.select q) (s'.select q) := by
  obtain ⟨hrest, horder⟩ := List.forall_mem_append.mp hq
  obtain ⟨-, hcondition⟩ := List.forall_mem_append.mp hrest
  unfold Store.select
  rw [h.requireTable]
  cases requireSupported q with
  | error e => exact .error e
  | ok _ =>
    cases s'.requireTable with
    | error e => exact .error e
    | ok _ =>
      cases requireBindable (Sql.parametersOf (q.pieces .sqlite)) with
      | error e => exact .error e
      | ok _ =>
        exact (h.scanned hscan hq).find (fun _ _ hr => takes_congr hcondition hr)
          (fun k hk => horder _ (List.mem_map_of_mem hk)) q.window

theorem anyMatches_congr {fields : List Column} (hfields : ∀ c ∈ fields, c.name ≠ hidden)
    (pattern : Text) {r r' : Row} (h : Row.AgreeExcept hidden r r') :
    anyMatches fields pattern r = anyMatches fields pattern r' := by
  induction fields with
  | nil => rfl
  | cons c fields ih =>
    obtain ⟨hc, hfields⟩ := List.forall_mem_cons.mp hfields
    have hrest : anyMatches fields pattern r = anyMatches fields pattern r' := ih hfields
    simp only [anyMatches, List.any_cons] at hrest ⊢
    rw [h c hc, hrest]

theorem AgreeExcept.search {s s' : Store} (h : s.AgreeExcept hidden s')
    (hscan : s.scan.Overlooks hidden) {columns fields : List Column} {pattern : Text}
    {order : List Sql.SortKey}
    (hq : Query.Avoids hidden ⟨columns, .pattern fields pattern, order⟩) (limit : Option Int) :
    FoundAlike hidden (s.search columns fields pattern order limit)
      (s'.search columns fields pattern order limit) := by
  obtain ⟨hrest, horder⟩ := List.forall_mem_append.mp hq
  obtain ⟨-, hfields⟩ := List.forall_mem_append.mp hrest
  unfold Store.search
  rw [h.requireTable]
  cases s'.requireTable with
  | error e => exact .error e
  | ok _ =>
    cases hbound : requireBindable (windowLiterals (limit.map fun n => (n, 0))) with
    | error e =>
      simp only [hbound]
      exact .error e
    | ok _ =>
      simp only [hbound]
      exact (h.scanned hscan hq).find (fun _ _ hr => anyMatches_congr hfields pattern hr)
        (fun k hk => horder _ (List.mem_map_of_mem hk)) _

end Store

/-! ## 3. What a binding hides -/

namespace Binding

/-- Whether a name is in no list of a binding. -/
structure Hides (b : Binding) (name : Text) : Prop where
  unlisted : name ∉ b.schemas.list.fieldNames
  unfiltered : name ∉ b.filterable
  unordered : name ∉ b.orderable
  unsearched : name ∉ b.searchable
  unsorted : ∀ x ∈ b.defaultOrdering.getD [], x.field ≠ name

variable {b : Binding} {hidden : Text}

theorem name_ne_of_mem_filterMap {table : Table} {names : List Text} (h : hidden ∉ names) :
    ∀ c ∈ names.filterMap table.column?, c.name ≠ hidden := by
  rintro c hc rfl
  obtain ⟨name, hname, hcolumn⟩ := List.mem_filterMap.mp hc
  exact h (Table.name_of_column? hcolumn ▸ hname)

/-- A listing reads no hidden column, if it reads any column that its schema names. -/
theorem name_ne_of_mem_listColumns (h : hidden ∉ b.schemas.list.fieldNames)
    (hlisted : ∃ name ∈ b.schemas.list.fieldNames, (b.table.column? name).isSome) :
    ∀ c ∈ b.listColumns, c.name ≠ hidden := by
  obtain ⟨name, hname, hsome⟩ := hlisted
  obtain ⟨column, hcolumn⟩ := Option.isSome_iff_exists.mp hsome
  have hmem : column ∈ b.schemas.list.fieldNames.filterMap b.table.column? :=
    List.mem_filterMap.mpr ⟨name, hname, hcolumn⟩
  unfold listColumns columnsOf
  split
  · next hnil =>
    rw [hnil] at hmem
    cases hmem
  · exact name_ne_of_mem_filterMap h

theorem plain_of_create {table : Table} {settings : Settings} {o : BindingOptions}
    (h : create table settings o = .ok b) (hplain : ∀ c ∈ table.columns, Text.IsPlainName c.name) :
    ∀ name ∈ b.orderable, Text.IsPlainName name := by
  intro name hname
  obtain ⟨c, hc⟩ := Option.isSome_iff_exists.mp
    (column_of_checkFields (made_of_create h).orderable name hname)
  exact Table.name_of_column? hc ▸ hplain c (Table.mem_of_column? hc)

end Binding

/-! ## 4. Listing and searching -/

namespace Plan

variable {b : Binding} {hidden : Text} {ps : Params} {p : Plan}

/-- What a plan takes from its binding, and what a request can bring into it. -/
theorem of_build (h : build b ps = .ok p) (hplain : ∀ name ∈ b.orderable, Text.IsPlainName name) :
    p.table = b.table ∧ p.columns = b.listColumns ∧
      (∀ f, p.filter = some f → f.Within b.filterable) ∧
      ∀ x ∈ p.order.getD [], x.field ∈ b.orderable ∨ x ∈ b.defaultOrdering.getD [] := by
  unfold build at h
  split at h
  · cases h
  · next filter hfilter =>
    split at h
    · cases h
    · next order horder =>
      split at h
      · cases h
      · cases h
        refine ⟨rfl, rfl, fun f hf => ?_, fun x hx => ?_⟩
        · obtain rfl : filter = some f := hf
          unfold filterOf at hfilter
          split at hfilter
          · cases hfilter
          · exact Filter.within_of_parse hfilter
        · cases order with
          | none => exact .inr hx
          | some xs => exact .inl (Ordering.field_mem_of_ofRequest hplain horder x hx)

theorem of_select {q : Sql.Select} (h : p.select = .ok q) :
    p.condition = .ok q.condition ∧
      Sql.compileOrder p.table (p.order.getD []) = .ok q.order ∧ q.columns = p.columns := by
  unfold select at h
  split at h
  · cases h
  · next hc =>
    split at h
    · cases h
    · next hks =>
      cases h
      exact ⟨hc, hks, rfl⟩

/-- The condition of a plan tests no column that its binding hides. -/
theorem name_ne_of_condition {c : Option Sql.Condition} (hcondition : p.condition = .ok c)
    (hfilter : ∀ f, p.filter = some f → f.Within b.filterable) (hhidden : hidden ∉ b.filterable) :
    ∀ column ∈ (Store.Sought.condition c).columns, column.name ≠ hidden := by
  unfold condition at hcondition
  split at hcondition
  · cases hcondition
    exact fun _ h => absurd h List.not_mem_nil
  · next f hf =>
    split at hcondition
    · cases hcondition
    · next c hc =>
      cases hcondition
      rintro column hcolumn rfl
      have hname : column.name ∈ f.leaves.map Prod.fst :=
        Filter.columns_of_compile hc ▸ List.mem_map_of_mem hcolumn
      obtain ⟨leaf, hleaf, heq⟩ := List.mem_map.mp hname
      exact hhidden (heq ▸ hfilter f hf leaf hleaf)

end Plan

namespace Service

open Store

variable {v : Service} {hidden : Text} {s s' : Store}

theorem fetch_congr {ps : Params} {p : Plan} (hp : Plan.build v.binding ps = .ok p)
    (hplain : ∀ name ∈ v.binding.orderable, Text.IsPlainName name)
    (hlisted : ∃ name ∈ v.binding.schemas.list.fieldNames,
      (v.binding.table.column? name).isSome)
    (hhidden : v.binding.Hides hidden) (hscan : s.scan.Overlooks hidden)
    (h : s.AgreeExcept hidden s') : v.fetch s p = v.fetch s' p := by
  obtain ⟨-, hcolumns, hfilter, horder⟩ := Plan.of_build hp hplain
  unfold fetch
  cases hq : p.select with
  | error e => rfl
  | ok q =>
    obtain ⟨hcondition, hkeys, hread⟩ := Plan.of_select hq
    have hsorted : ∀ k ∈ q.order, k.column.name ≠ hidden := by
      rintro k hk rfl
      obtain ⟨x, hx, hfield⟩ := List.mem_map.mp (Sql.mem_fields_of_compileOrder hkeys k hk)
      rcases horder x hx with hx | hx
      · exact hhidden.unordered (hfield ▸ hx)
      · exact hhidden.unsorted x hx hfield
    have hshown : ∀ c ∈ q.columns, c.name ≠ hidden := by
      rw [hread, hcolumns]
      exact Binding.name_ne_of_mem_listColumns hhidden.unlisted hlisted
    -- Neither what is read nor the choice of the rows nor their order meets the column.
    have hasked := Plan.name_ne_of_condition hcondition hfilter hhidden.unfiltered
    have hfound := h.select hscan (Query.avoids hshown hasked hsorted)
    simp only [Except.mapError, bind, Except.bind]
    generalize s.select q = x at hfound ⊢
    generalize s'.select q = x' at hfound ⊢
    cases hfound with
    | error e => rfl
    | ok hrows htotal => simp only [Row.valuesOfAll_congr hrows hshown, htotal]

theorem list_congr (hplain : ∀ name ∈ v.binding.orderable, Text.IsPlainName name)
    (hlisted : ∃ name ∈ v.binding.schemas.list.fieldNames,
      (v.binding.table.column? name).isSome)
    (hhidden : v.binding.Hides hidden) (hscan : s.scan.Overlooks hidden)
    (h : s.AgreeExcept hidden s') (r : Request) : v.list s r = v.list s' r := by
  unfold list
  cases hplan : v.plan r.query with
  | error e => rfl
  | ok p =>
    obtain ⟨_, -, hplan⟩ := Outcome.bind_eq_ok.mp hplan
    obtain ⟨p', hbuild, hplan⟩ := Outcome.bind_eq_ok.mp hplan
    obtain ⟨_, -, hplan⟩ := Outcome.bind_eq_ok.mp hplan
    obtain rfl : p' = p := Except.ok.inj hplan
    simp only [bind, Except.bind, fetch_congr hbuild hplain hlisted hhidden hscan h]

theorem findPattern_congr {b : Binding} (hlisted : ∃ name ∈ b.schemas.list.fieldNames,
      (b.table.column? name).isSome)
    (hhidden : b.Hides hidden) (hscan : s.scan.Overlooks hidden) (h : s.AgreeExcept hidden s')
    (limit : Option Int) {columns : Except Problem (List Column)}
    (hcolumns : ∀ cs, columns = .ok cs → cs = b.listColumns) (t : Text) :
    SearchBackend.findPattern b limit columns s t
      = SearchBackend.findPattern b limit columns s' t := by
  have hfields : ∀ c ∈ b.searchable.filterMap b.table.column?, c.name ≠ hidden :=
    Binding.name_ne_of_mem_filterMap hhidden.unsearched
  unfold SearchBackend.findPattern
  split
  · rfl
  · cases columns with
    | error e => rfl
    | ok cs =>
      obtain rfl := hcolumns cs rfl
      cases horder : Sql.compileOrder b.table (b.defaultOrdering.getD []) with
      | error e => rfl
      | ok ks =>
        have hsorted : ∀ k ∈ ks, k.column.name ≠ hidden := by
          rintro k hk rfl
          obtain ⟨x, hx, hfield⟩ := List.mem_map.mp (Sql.mem_fields_of_compileOrder horder k hk)
          exact hhidden.unsorted x hx hfield
        have hshown := Binding.name_ne_of_mem_listColumns hhidden.unlisted hlisted
        have havoids : Query.Avoids hidden ⟨b.listColumns,
            .pattern (b.searchable.filterMap b.table.column?) (SearchBackend.containing t), ks⟩ :=
          Query.avoids hshown hfields hsorted
        have hfound := h.search hscan havoids limit
        simp only [Except.mapError, bind, Except.bind]
        generalize s.search _ _ _ _ _ = x at hfound ⊢
        generalize s'.search _ _ _ _ _ = x' at hfound ⊢
        cases hfound with
        | error e => rfl
        | ok hrows _ => exact Row.valuesOfAll_congr hrows hshown

theorem searchRows_congr (hlisted : ∃ name ∈ v.binding.schemas.list.fieldNames,
      (v.binding.table.column? name).isSome)
    (hhidden : v.binding.Hides hidden) (hscan : s.scan.Overlooks hidden)
    (h : s.AgreeExcept hidden s') (r : Request) : v.searchRows s r = v.searchRows s' r := by
  have hcolumns : ∀ cs, v.listSelection = .ok cs → cs = v.binding.listColumns := by
    intro cs hcs
    obtain ⟨_, -, hcs⟩ := Outcome.bind_eq_ok.mp hcs
    obtain ⟨_, -, hcs⟩ := Outcome.bind_eq_ok.mp hcs
    exact (Except.ok.inj hcs).symm
  have hfind : ∀ sent, v.search.find v.binding v.listSelection s sent
      = v.search.find v.binding v.listSelection s' sent := by
    intro sent
    unfold SearchBackend.find
    split
    · rfl
    · rfl
    · rfl
    · exact findPattern_congr hlisted hhidden hscan h _ hcolumns _
    · rfl
  unfold searchRows
  simp only [hfind]

/-- **A hidden column is invisible.** Take a binding whose list schema names a column of the table,
and stores that are alike except in a column that the binding hides and that their scan overlooks.
Every listing gives the same answer on both, and so does every search. -/
theorem answers_without_hidden {table : Table} {settings : Settings} {o : BindingOptions}
    (hb : Binding.create table settings o = .ok v.binding)
    (hplain : ∀ c ∈ table.columns, Text.IsPlainName c.name)
    (hlisted : ∃ name ∈ v.binding.schemas.list.fieldNames, (table.column? name).isSome)
    (hhidden : v.binding.Hides hidden) (hscan : s.scan.Overlooks hidden)
    (h : s.AgreeExcept hidden s') (r : Request) :
    (v.perform s .list r).1 = (v.perform s' .list r).1 ∧
      (v.perform s .search r).1 = (v.perform s' .search r).1 := by
  have htable := (Binding.made_of_create hb).table_eq
  rw [← htable] at hlisted
  exact ⟨list_congr (Binding.plain_of_create hb hplain) hlisted hhidden hscan h r,
    searchRows_congr hlisted hhidden hscan h r⟩

/-- A table of people, each with a number that is nobody's business. -/
def people : Table where
  name := ['p']
  columns := [
    ⟨['i', 'd'], .integer, true, false, none, none, none, false⟩,
    ⟨['n', 'a', 'm', 'e'], .string, false, true, none, none, none, false⟩,
    ⟨['p', 'i', 'n'], .integer, false, true, none, none, none, false⟩]

/-- A binding in which only names are shown, filtered, sorted and searched. -/
def names : BindingOptions where
  schemas := { SchemaChoice.none with
    list := some ⟨['N'], [⟨['n', 'a', 'm', 'e'], .str, true, false⟩], false, true⟩ }
  filterable := some [['n', 'a', 'm', 'e']]
  orderable := some [['n', 'a', 'm', 'e']]
  searchable := some [['n', 'a', 'm', 'e']]
  defaultOrdering := some ['-', 'n', 'a', 'm', 'e']

/-- Two people, one of them with a number. -/
def peopleStore (pin : Int) : Store where
  table := people
  rows := [
    ⟨1, [(['i', 'd'], .integer 1), (['n', 'a', 'm', 'e'], .text ['B'])] ++
      (['p', 'i', 'n'], .integer pin) :: []⟩,
    ⟨2, [(['i', 'd'], .integer 2), (['n', 'a', 'm', 'e'], .text ['A'])] ++
      (['p', 'i', 'n'], .null) :: []⟩]
  isDropped := false

/-- A service of people by their names. -/
def peopleService : Service where
  binding := .ofOptions people names
  search := .pattern (some 1)

/-- A request for names that come after a letter, to be sorted. -/
def afterA : Request where
  query := [
    (['n', 'a', 'm', 'e'], .one (.text ['~', 'B'])),
    (['s', 'o', 'r', 't'], .one (.text ['n', 'a', 'm', 'e'])),
    (['q'], .one (.text ['b']))]
  path := []
  body := .null

theorem answers_without_hidden_people :
    (Binding.create people .standard names = .ok peopleService.binding ∧
        peopleService.binding.Hides ['p', 'i', 'n'] ∧
        (peopleStore 1).scan.Overlooks ['p', 'i', 'n'] ∧
        (peopleStore 1).AgreeExcept ['p', 'i', 'n'] (peopleStore 2)) ∧
      (peopleService.perform (peopleStore 1) .list afterA).1
          = (peopleService.perform (peopleStore 2) .list afterA).1 ∧
        (peopleService.perform (peopleStore 1) .search afterA).1
          = (peopleService.perform (peopleStore 2) .search afterA).1 := by
  have hb : Binding.create people .standard names = .ok peopleService.binding := rfl
  have hplain : ∀ c ∈ people.columns, Text.IsPlainName c.name := by decide
  have hlisted : ∃ name ∈ peopleService.binding.schemas.list.fieldNames,
      (people.column? name).isSome := ⟨['n', 'a', 'm', 'e'], by decide, by decide⟩
  have hhidden : peopleService.binding.Hides ['p', 'i', 'n'] :=
    ⟨by decide, by decide, by decide, by decide, by decide⟩
  have hstores : (peopleStore 1).AgreeExcept ['p', 'i', 'n'] (peopleStore 2) :=
    ⟨rfl, rfl, .cons (Row.agreeExcept_of_cells _ _ _ _ _ _) (.cons (fun _ _ => rfl) .nil)⟩
  have hscan : (peopleStore 1).scan.Overlooks ['p', 'i', 'n'] :=
    Scan.overlooks_alongKeys (by decide)
  exact ⟨⟨hb, hhidden, hscan, hstores⟩,
    answers_without_hidden hb hplain hlisted hhidden hscan hstores afterA⟩

end Service
end TableService
