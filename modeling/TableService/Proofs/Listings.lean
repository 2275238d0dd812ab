import Mathlib.Data.List.Perm.Basic
import TableService.Resource.Perform
import TableService.Proofs.FilterForm
import TableService.Proofs.Outcomes
import TableService.Proofs.StatementParameters

/-!
# Listings, step by step

A listing is a plan, a statement, what the store finds, and then an answer for each row that was
found. These lemmas say when each step succeeds and with what, so that nothing later opens a step:

* a plan is made of what its binding fixes and of the filter, the order and the page that a request
  asks for (`Plan.build_eq_ok`);
* **the store carries out a plan exactly if it can carry out the condition and the window**,
  whatever the rest of the plan is (`Service.found_eq_ok`), because a statement has no other
  parameters;
* rows are answered one by one (`Service.showRows_eq_ok`), so part of what can be answered can be
  answered.
-/

namespace TableService

/-! ## 1. Statements -/

namespace Sql

theorem parametersOf_columnPieces (d : Dialect) (t : Table) (c : Column) :
    parametersOf (columnPieces d t c) = [] := rfl

theorem parametersOf_sortPieces (d : Dialect) (t : Table) (k : SortKey) :
    parametersOf (sortPieces d t k) = [] := rfl

/-- A statement has the literals of its condition and then the numbers of its window. -/
theorem Select.parameters (d : Dialect) (q : Select) :
    parametersOf (q.pieces d)
      = q.condition.elim [] Condition.literals ++ Store.windowLiterals q.window := by
  have hcolumns : parametersOf (separated ", " (q.columns.map (columnPieces d q.table))) = [] := by
    rw [parametersOf_separated, List.flatMap_map]
    exact List.flatMap_eq_nil_iff.mpr fun c _ => parametersOf_columnPieces d q.table c
  have hkeys : ∀ ks : List SortKey,
      parametersOf (separated ", " (ks.map (sortPieces d q.table))) = [] := fun ks => by
    rw [parametersOf_separated, List.flatMap_map]
    exact List.flatMap_eq_nil_iff.mpr fun k _ => parametersOf_sortPieces d q.table k
  unfold Select.pieces
  simp only [parametersOf_append, hcolumns, parametersOf_w, List.nil_append]
  refine congrArg₂ (· ++ ·) (Eq.trans (congrArg₂ (· ++ ·) ?_ ?_) (List.append_nil _)) ?_
  · refine Eq.trans (List.nil_append _) ?_
    cases q.condition with
    | none => rfl
    | some c =>
      rw [parametersOf_append, parametersOf_w]
      exact Condition.parametersOf_barePieces d q.table c
  · cases q.order with
    | nil => rfl
    | cons k ks => rw [parametersOf_append, parametersOf_w, hkeys]; rfl
  · rcases q.window with _ | ⟨limit, offset⟩ <;> rfl

end Sql

namespace Store

/-- Whether the store can carry out a condition: it has no array test, and its literals can be
bound. -/
structure Carries (c : Sql.Condition) : Prop where
  supported : c.hasArrayTest = false
  bindable : ∀ l ∈ c.literals, bindable l = true

theorem requireBindable_eq_ok {ls : List Literal} :
    requireBindable ls = .ok () ↔ ∀ l ∈ ls, bindable l = true := by
  unfold requireBindable
  split <;> simp_all

theorem requireSupported_eq_ok {q : Sql.Select} :
    requireSupported q = .ok () ↔ ∀ c ∈ q.condition, c.hasArrayTest = false := by
  unfold requireSupported Sql.Select.isSupported
  cases q.condition with
  | none => simp
  | some c => cases hc : c.hasArrayTest <;> simp [Sql.Dialect.supports, hc]

/-- A query finds something exactly if the store can carry out its condition and its window. -/
theorem select_eq_ok {s : Store} {q : Sql.Select} {found : Found} :
    s.select q = .ok found ↔
      (∀ c ∈ q.condition, Carries c) ∧ (∀ l ∈ windowLiterals q.window, bindable l = true) ∧
        s.isDropped = false ∧
        (s.scanned ⟨q.columns, .condition q.condition, q.order⟩).find (takes q.condition) q.order
          q.window = found := by
  have hcarries : (∀ c ∈ q.condition, Carries c) ↔ (∀ c ∈ q.condition, c.hasArrayTest = false) ∧
      ∀ l ∈ q.condition.elim [] Sql.Condition.literals, bindable l = true := by
    cases q.condition with
    | none => simp
    | some c => simpa using ⟨fun h => ⟨h.supported, h.bindable⟩, fun h => ⟨h.1, h.2⟩⟩
  unfold Store.select
  constructor
  · intro h
    obtain ⟨_, hsupported, h⟩ := Outcome.bind_eq_ok.mp h
    obtain ⟨_, htable, h⟩ := Outcome.bind_eq_ok.mp h
    obtain ⟨_, hbindable, h⟩ := Outcome.bind_eq_ok.mp h
    cases h
    have hliterals := requireBindable_eq_ok.mp hbindable
    rw [Sql.Select.parameters, List.forall_mem_append] at hliterals
    exact ⟨hcarries.mpr ⟨requireSupported_eq_ok.mp hsupported, hliterals.1⟩, hliterals.2,
      requireTable_eq_ok.mp htable, rfl⟩
  · rintro ⟨hcondition, hwindow, htable, rfl⟩
    obtain ⟨hsupported, hliterals⟩ := hcarries.mp hcondition
    have hbindable : requireBindable (Sql.parametersOf (q.pieces .sqlite)) = .ok () := by
      rw [requireBindable_eq_ok, Sql.Select.parameters, List.forall_mem_append]
      exact ⟨hliterals, hwindow⟩
    rw [requireSupported_eq_ok.mpr hsupported, requireTable_eq_ok.mpr htable, hbindable]
    rfl

end Store

/-! ## 2. Plans -/

namespace Plan

/-- The window of a plan; none if the listing is not paged. -/
def window (p : Plan) : Option (Int × Int) :=
  if p.page.enabled then some (p.page.limit, p.page.offset) else none

theorem window_eq_none {p : Plan} (h : p.page.enabled = false) : p.window = none :=
  if_neg (by simp [h])

theorem select_eq_ok {p : Plan} {q : Sql.Select} :
    p.select = .ok q ↔
      ∃ c ks, p.condition = .ok c ∧ Sql.compileOrder p.table (p.order.getD []) = .ok ks ∧
        ⟨p.table, p.columns, c, ks, p.window⟩ = q := by
  unfold select
  cases p.condition with
  | error e => simp
  | ok c =>
    cases Sql.compileOrder p.table (p.order.getD []) with
    | error e => simp
    | ok ks => simp [window]

theorem build_eq_ok {b : Binding} {ps : Params} {p : Plan} :
    build b ps = .ok p ↔
      ∃ f order page, filterOf b.filterable ps = .ok f ∧
        Ordering.ofRequest b.orderable ps = .ok order ∧
        pageOf b.pagination b.pageSize (some b.maxPageSize) ps = .ok page ∧
        ⟨b.table, b.listColumns, f, order.or b.defaultOrdering, page⟩ = p := by
  unfold build
  cases filterOf b.filterable ps with
  | error e => simp
  | ok f =>
    cases Ordering.ofRequest b.orderable ps with
    | error e => simp
    | ok order =>
      cases pageOf b.pagination b.pageSize (some b.maxPageSize) ps with
      | error e => simp
      | ok page => simp

/-- Every predicate in the filter of a plan has a test on its column. -/
theorem isTestable_of_build {b : Binding} {ps : Params} {p : Plan} (h : build b ps = .ok p) :
    ∀ f, p.filter = some f → f.IsTestable p.table := by
  obtain ⟨filter, order, page, hfilter, -, -, rfl⟩ := build_eq_ok.mp h
  rintro f rfl
  unfold filterOf at hfilter
  split at hfilter
  · cases hfilter
  · exact Filter.isTestable_of_parse hfilter b.table

end Plan

namespace Service

variable {v : Service} {s : Store} {r : Request}

theorem plan_eq_ok {ps : Params} {p : Plan} :
    v.plan ps = .ok p ↔
      v.require .plan = .ok () ∧ v.require .listColumns = .ok () ∧
        Plan.build v.binding ps = .ok p := by
  unfold plan
  constructor
  · intro h
    obtain ⟨_, hplan, h⟩ := Outcome.bind_eq_ok.mp h
    obtain ⟨_, hp, h⟩ := Outcome.bind_eq_ok.mp h
    obtain ⟨_, hcolumns, h⟩ := Outcome.bind_eq_ok.mp h
    cases h
    exact ⟨hplan, hcolumns, hp⟩
  · rintro ⟨hplan, hcolumns, hp⟩
    rw [hplan, hp, hcolumns]
    rfl

/-! ## 3. What a plan finds, and how it is answered -/

/-- What a plan finds in a store. -/
def found (v : Service) (s : Store) (p : Plan) : Except Problem Store.Found := do
  let q ← p.select.mapError QueryFault.problem
  (s.select q).mapError (·.problem "select" v.binding.table)

/-- How a row is answered in a listing. -/
def showRow (v : Service) (row : Store.Row) : Except Problem Value := do
  present v.binding.schemas.list (← row.values v.binding.listColumns)

/-- How several rows are answered in a listing. -/
def showRows (v : Service) (rows : List Store.Row) : Except Problem (List Value) := do
  presentAll v.binding.schemas.list (← Store.Row.valuesOfAll v.binding.listColumns rows)

/-- A plan finds something exactly if it can be compiled, and the store can carry out its condition
and its window. -/
theorem found_eq_ok {p : Plan} {x : Store.Found} :
    v.found s p = .ok x ↔
      ∃ c ks, p.condition = .ok c ∧ Sql.compileOrder p.table (p.order.getD []) = .ok ks ∧
        (∀ d ∈ c, Store.Carries d) ∧
        (∀ l ∈ Store.windowLiterals p.window, Store.bindable l = true) ∧
        s.isDropped = false ∧
        (s.scanned ⟨p.columns, .condition c, ks⟩).find (Store.takes c) ks p.window = x := by
  unfold found
  simp only [Outcome.bind_eq_ok, Outcome.mapError_eq_ok, Plan.select_eq_ok, Store.select_eq_ok]
  constructor
  · rintro ⟨q, ⟨c, ks, hc, hks, rfl⟩, h⟩
    exact ⟨c, ks, hc, hks, h⟩
  · rintro ⟨c, ks, hc, hks, h⟩
    exact ⟨_, ⟨c, ks, hc, hks, rfl⟩, h⟩

theorem showRows_cons_eq_ok {row : Store.Row} {rows : List Store.Row} {shown : List Value} :
    v.showRows (row :: rows) = .ok shown ↔
      ∃ x xs, v.showRow row = .ok x ∧ v.showRows rows = .ok xs ∧ shown = x :: xs := by
  unfold showRows showRow
  rw [Store.Row.valuesOfAll]
  cases row.values v.binding.listColumns with
  | error e => simp [bind, Except.bind]
  | ok read =>
    cases Store.Row.valuesOfAll v.binding.listColumns rows with
    | error e => simp [bind, Except.bind, Except.map]
    | ok reads =>
      simp only [bind, Except.bind, Except.map, presentAll]
      cases present v.binding.schemas.list read with
      | error e => simp
      | ok x =>
        cases presentAll v.binding.schemas.list reads with
        | error e => simp
        | ok xs => simp [eq_comm]

/-- Rows are answered one by one. -/
theorem showRows_eq_ok {rows : List Store.Row} {shown : List Value} :
    v.showRows rows = .ok shown ↔ List.Forall₂ (fun row x => v.showRow row = .ok x) rows shown := by
  induction rows generalizing shown with
  | nil =>
    rw [List.forall₂_nil_left_iff]
    exact ⟨fun h => (Except.ok.inj h).symm, fun h => h ▸ rfl⟩
  | cons row rows ih => simp only [showRows_cons_eq_ok, ih, List.forall₂_cons_left_iff]

/-- Part of what can be answered can be answered. -/
theorem showRows_of_sublist {rows rows' : List Store.Row} {shown : List Value}
    (hsub : rows'.Sublist rows) (h : v.showRows rows = .ok shown) :
    ∃ shown', v.showRows rows' = .ok shown' ∧ shown'.Sublist shown := by
  simp only [showRows_eq_ok] at h ⊢
  induction hsub generalizing shown with
  | slnil => exact ⟨[], .nil, List.nil_sublist _⟩
  | cons row _ ih =>
    obtain ⟨x, xs, -, hxs, rfl⟩ := List.forall₂_cons_left_iff.mp h
    obtain ⟨shown', hshown', hsub⟩ := ih hxs
    exact ⟨shown', hshown', hsub.cons x⟩
  | cons_cons row _ ih =>
    obtain ⟨x, xs, hx, hxs, rfl⟩ := List.forall₂_cons_left_iff.mp h
    obtain ⟨shown', hshown', hsub⟩ := ih hxs
    exact ⟨x :: shown', .cons hx hshown', hsub.cons_cons x⟩

/-- So can rows that are some of them, in any order. -/
theorem showRows_of_subperm {rows rows' : List Store.Row} {shown : List Value}
    (hsub : rows'.Subperm rows) (h : v.showRows rows = .ok shown) :
    ∃ shown', v.showRows rows' = .ok shown' ∧ shown'.Subperm shown := by
  obtain ⟨kept, hperm, hkept⟩ := hsub
  obtain ⟨middle, hmiddle, hshown⟩ := showRows_of_sublist hkept h
  obtain ⟨shown', hshown', hperm⟩ :=
    List.perm_comp_forall₂ hperm.symm (showRows_eq_ok.mp hmiddle)
  exact ⟨shown', showRows_eq_ok.mpr hshown', middle, hperm.symm, hshown⟩

theorem showRows_page {rows : List Store.Row} {shown : List Value} (h : v.showRows rows = .ok shown)
    (m n : Nat) : v.showRows ((rows.drop m).take n) = .ok ((shown.drop m).take n) := by
  rw [showRows_eq_ok] at h ⊢
  exact List.forall₂_take n (List.forall₂_drop m h)

/-- What is fetched for a plan is read of the rows that it finds, in the columns of the listing. -/
theorem fetch_eq_ok {ps : Params} {p : Plan} (hp : v.plan ps = .ok p) {read : List Members}
    {total : Nat} :
    v.fetch s p = .ok (read, total) ↔
      ∃ x, v.found s p = .ok x ∧
        Store.Row.valuesOfAll v.binding.listColumns x.rows = .ok read ∧ x.total = total := by
  have hcolumns : ∀ q, p.select = .ok q → q.columns = v.binding.listColumns := fun q hq => by
    obtain ⟨c, ks, -, -, rfl⟩ := Plan.select_eq_ok.mp hq
    obtain ⟨f, order, page, -, -, -, rfl⟩ := Plan.build_eq_ok.mp (plan_eq_ok.mp hp).2.2
    rfl
  unfold fetch found
  simp only [Outcome.bind_eq_ok, Outcome.mapError_eq_ok]
  constructor
  · rintro ⟨q, hq, x, hx, read', hread, h⟩
    cases h
    exact ⟨x, ⟨q, hq, hx⟩, hcolumns q hq ▸ hread, rfl⟩
  · rintro ⟨x, ⟨q, hq, hx⟩, hread, rfl⟩
    exact ⟨q, hq, x, hx, read, (hcolumns q hq).symm ▸ hread, rfl⟩

/-- A page is answered with its numbers, unless its pages cannot be counted. -/
theorem envelope_eq_ok {p : PageSpec} {rows : List Value} {total : Nat} {answer : Value} :
    envelope p rows total = .ok answer ↔
      ∃ pages, p.pageCount (if rows.isEmpty then 0 else total) = .ok pages ∧
        .object [
          (['c', 'o', 'u', 'n', 't'], .integer (if rows.isEmpty then 0 else total)),
          (['p', 'a', 'g', 'e'], p.pageShown),
          (['s', 'i', 'z', 'e'], p.sizeShown),
          (['p', 'a', 'g', 'e', '_', 'c', 'o', 'u', 'n', 't'], .integer pages),
          (['r', 'e', 's', 'u', 'l', 't', 's'], .list rows)] = answer := by
  unfold envelope PageSpec.envelope
  rw [Outcome.mapError_eq_ok]
  cases p.pageCount (if rows.isEmpty then 0 else total) with
  | error e => simp
  | ok pages => simp

/-- A listing, step by step. -/
theorem list_eq_ok {answer : Value} :
    v.list s r = .ok answer ↔
      ∃ p x rows, v.plan r.query = .ok p ∧ v.found s p = .ok x ∧ v.showRows x.rows = .ok rows ∧
        (if p.page.enabled then envelope p.page rows x.total else .ok (.list rows))
          = .ok answer := by
  unfold list
  constructor
  · intro h
    obtain ⟨p, hp, h⟩ := Outcome.bind_eq_ok.mp h
    obtain ⟨⟨read, total⟩, hread, h⟩ := Outcome.bind_eq_ok.mp h
    obtain ⟨rows, hrows, h⟩ := Outcome.bind_eq_ok.mp h
    obtain ⟨x, hx, hvalues, rfl⟩ := (fetch_eq_ok hp).mp hread
    refine ⟨p, x, rows, hp, hx, Outcome.bind_eq_ok.mpr ⟨read, hvalues, hrows⟩, ?_⟩
    exact h
  · rintro ⟨p, x, rows, hp, hx, hrows, h⟩
    obtain ⟨read, hvalues, hrows⟩ := Outcome.bind_eq_ok.mp hrows
    have hread := (fetch_eq_ok hp).mpr ⟨x, hx, hvalues, rfl⟩
    exact Outcome.bind_eq_ok.mpr ⟨p, hp, Outcome.bind_eq_ok.mpr
      ⟨(read, x.total), hread, Outcome.bind_eq_ok.mpr ⟨rows, hrows, h⟩⟩⟩

/-- A listing answers a list exactly if it is not paged, and then with all rows that the plan
finds. -/
theorem list_eq_ok_list {shown : List Value} :
    v.list s r = .ok (.list shown) ↔
      ∃ p x, v.plan r.query = .ok p ∧ p.page.enabled = false ∧ v.found s p = .ok x ∧
        v.showRows x.rows = .ok shown := by
  rw [list_eq_ok]
  constructor
  · rintro ⟨p, x, rows, hp, hx, hrows, h⟩
    split at h
    · obtain ⟨pages, -, henvelope⟩ := envelope_eq_ok.mp h
      cases henvelope
    · next henabled =>
      cases h
      exact ⟨p, x, hp, Bool.eq_false_iff.mpr henabled, hx, hrows⟩
  · rintro ⟨p, x, hp, henabled, hx, hrows⟩
    exact ⟨p, x, shown, hp, hx, hrows, by rw [if_neg (by simp [henabled])]⟩

end Service
end TableService
