import TableService.Proofs.Bindings
import TableService.Proofs.CellOrder
import TableService.Proofs.FilterMeaning
import TableService.Proofs.JoinedParameters
import TableService.Proofs.Listings

/-!
# Joining query strings

Two query strings of filter parameters may be joined with a `&`. Then

> if both can be listed, **the joined one can, and it lists the rows that both list**, each as
> often, in the order of the binding.

So a further parameter never adds a row, whether it brings a new key, repeats one, or is a group.

Three things are asked of a filter: that it has a condition, that the store can carry the condition
out, and, row by row, that the condition takes the row. Each of them is conjunctive, so each is had
by the filter of the joined query string exactly if the filters of both have it.

Rows that the order of the binding leaves tied are another matter. They stand as the store comes by
them, and a store may go along other keys for the joined condition than for either part. The joined
listing is a part of another, **in the same order, where the store comes by the rows alike or no two
of them are tied** (`Narrows`), and elsewhere it need not be (`list_join_reorders`).
-/

namespace TableService

/-! ## 1. Conditions of conjunctions -/

namespace Sql

theorem Truth.holds_all (ts : List Truth) :
    (all ts).holds = true ↔ ∀ t ∈ ts, t.holds = true := by
  induction ts with
  | nil => simp [all, holds]
  | cons t ts ih =>
    rw [List.forall_mem_cons, ← ih, ← Bool.and_eq_true, ← holds_and]
    rfl

namespace Condition

theorem anyHasArrayTest_eq (cs : List Condition) :
    anyHasArrayTest cs = cs.any hasArrayTest := by
  induction cs with
  | nil => rfl
  | cons c cs ih => rw [anyHasArrayTest, ih, List.any_cons]

/-- Splicing brings no array test. -/
theorem hasArrayTest_conj (cs : List Condition) :
    (conj cs).hasArrayTest = cs.any hasArrayTest := by
  have hconjuncts : ∀ c : Condition, c.conjuncts.any hasArrayTest = c.hasArrayTest := fun c => by
    cases c with
    | all parts => rw [conjuncts, hasArrayTest, anyHasArrayTest_eq]
    | _ => exact Bool.or_false _
  unfold conj
  split
  · exact (Bool.or_false _).symm
  · rw [hasArrayTest, anyHasArrayTest_eq, List.any_flatMap]
    simp only [hconjuncts]

theorem literalsOf_eq (cs : List Condition) : literalsOf cs = cs.flatMap literals := by
  induction cs with
  | nil => rfl
  | cons c cs ih => rw [literalsOf, ih, List.flatMap_cons]

end Condition
end Sql

theorem Store.carries_conj {cs : List Sql.Condition} :
    Carries (.conj cs) ↔ ∀ c ∈ cs, Carries c := by
  constructor
  · intro h c hc
    constructor
    · have hsupported := h.supported
      rw [Sql.Condition.hasArrayTest_conj, List.any_eq_false] at hsupported
      exact Bool.eq_false_iff.mpr (hsupported c hc)
    · intro l hl
      refine h.bindable l ?_
      rw [Sql.Condition.literals_conj, Sql.Condition.literalsOf_eq]
      exact List.mem_flatMap_of_mem hc hl
  · intro h
    constructor
    · rw [Sql.Condition.hasArrayTest_conj, List.any_eq_false]
      exact fun c hc => Bool.eq_false_iff.mp (h c hc).supported
    · intro l hl
      rw [Sql.Condition.literals_conj, Sql.Condition.literalsOf_eq] at hl
      obtain ⟨c, hc, hl⟩ := List.mem_flatMap.mp hl
      exact (h c hc).bindable l hl

namespace Filter

/-- Whether a filter becomes a condition with a property. -/
def Becomes (table : Table) (Q : Sql.Condition → Prop) (f : Filter) : Prop :=
  ∃ c, Sql.compile table f = .ok c ∧ Q c

theorem compileAll_eq_ok {table : Table} {fs : List Filter} {cs : List Sql.Condition} :
    Sql.compileAll table fs = .ok cs ↔
      List.Forall₂ (fun f c => Sql.compile table f = .ok c) fs cs := by
  induction fs generalizing cs with
  | nil => simp [Sql.compileAll, eq_comm]
  | cons f fs ih =>
    rw [Sql.compileAll, List.forall₂_cons_left_iff]
    simp only [← ih]
    cases Sql.compile table f with
    | error e => simp
    | ok c =>
      cases Sql.compileAll table fs with
      | error e => simp
      | ok ds => simp [eq_comm]

/-- What a conjunction becomes is the conjunction of what its parts become. -/
theorem isConjunctive_becomes {Q : Sql.Condition → Prop}
    (hQ : ∀ cs, Q (.conj cs) ↔ ∀ c ∈ cs, Q c) (table : Table) :
    IsConjunctive (Becomes table Q) := by
  intro fs
  unfold Becomes
  rw [← exists_forall₂_iff]
  simp only [← compileAll_eq_ok, ← hQ]
  rw [Sql.compile]
  cases Sql.compileAll table fs with
  | error e => simp
  | ok cs => simp

end Filter

/-! ## 2. Filters of joined query strings -/

namespace Plan

open TableService.Filter

variable {fields : List Text} {a b : Text} {P : Filter → Prop}

theorem filterOf_gives (hP : IsConjunctive P) (ha : Params.OnlyFilters a) :
    (∃ f, filterOf fields (Params.ofQuery a) = .ok f ∧ ∀ g ∈ f, P g) ↔
      fields ≠ [] → ∀ kv ∈ Params.pairs a, (Source.ofPair kv).Gives fields P := by
  unfold filterOf
  split
  · simp
  · next hne =>
    rw [ha.ofQuery_eq, parse_gives hP (Params.collects_ofPairs _) ha.filters]
    exact ⟨fun h _ => h, fun h => h hne⟩

/-- **The filter of a joined query string has a conjunctive property exactly if the filters of both
parts have it.** -/
theorem filterOf_join (hP : IsConjunctive P) (ha : Params.OnlyFilters a)
    (hb : Params.OnlyFilters b) :
    (∃ f, filterOf fields (Params.ofQuery (a ++ '&' :: b)) = .ok f ∧ ∀ g ∈ f, P g) ↔
      (∃ f, filterOf fields (Params.ofQuery a) = .ok f ∧ ∀ g ∈ f, P g) ∧
        ∃ f, filterOf fields (Params.ofQuery b) = .ok f ∧ ∀ g ∈ f, P g := by
  rw [filterOf_gives hP ha, filterOf_gives hP hb, filterOf_gives hP (ha.join hb),
    Params.pairs_append, List.forall_mem_append]
  tauto

theorem single_eq_none {key : Text} (ha : Params.OnlyFilters a)
    (hkey : key ∈ [Params.pageKey, Params.sizeKey, Params.sortKey, Params.searchKey]) :
    (Params.ofQuery a).single key = .ok none := by
  have hlookup : (Params.ofQuery a).lookup key = none := by
    rw [List.lookup_eq_none_iff]
    intro e he
    rw [ha.ofQuery_eq] at he
    have hcollects := Params.collects_ofPairs (Params.pairs a)
    obtain ⟨x, hx⟩ := List.exists_mem_of_ne_nil _ (hcollects.filled e he)
    obtain ⟨value, hkv, -⟩ := (hcollects.sent e.1 x).mp ⟨e.2, he, hx⟩
    rw [bne_iff_ne]
    rintro rfl
    exact ha.filters _ hkv hkey
  rw [Params.single, hlookup]

/-- A request that only filters asks for the order and the page of its binding. -/
theorem build_of_onlyFilters {v : Binding} {p : Plan} (ha : Params.OnlyFilters a) :
    build v (Params.ofQuery a) = .ok p ↔
      ∃ f page, filterOf v.filterable (Params.ofQuery a) = .ok f ∧
        PageSpec.resolve v.pagination v.pageSize .absent .absent (some v.maxPageSize) = .ok page ∧
        ⟨v.table, v.listColumns, f, v.defaultOrdering, page⟩ = p := by
  have horder : Ordering.ofRequest v.orderable (Params.ofQuery a) = .ok none := by
    rw [Ordering.ofRequest, single_eq_none ha (by decide)]
  have hpage : pageOf v.pagination v.pageSize (some v.maxPageSize) (Params.ofQuery a)
      = PageSpec.resolve v.pagination v.pageSize .absent .absent (some v.maxPageSize) := by
    rw [pageOf, rawNumber, rawNumber, single_eq_none ha (by decide), single_eq_none ha (by decide)]
    rfl
  rw [build_eq_ok, horder, hpage]
  constructor
  · rintro ⟨f, order, page, hf, hnone, hp, rfl⟩
    cases hnone
    exact ⟨f, page, hf, hp, rfl⟩
  · rintro ⟨f, page, hf, hp, rfl⟩
    exact ⟨f, none, page, hf, rfl, hp, rfl⟩

end Plan

namespace Binding

open TableService.Filter

variable {b : Binding} {ps : Params} {q q' : Text} {Q : Sql.Condition → Prop}

/-- The condition of a request under a binding. -/
def conditionOf (b : Binding) (ps : Params) : Except QueryFault (Option Sql.Condition) := do
  match ← Plan.filterOf b.filterable ps with
  | none => return none
  | some f => return some (← Sql.compile b.table f)

theorem conditionOf_iff :
    (∃ c, b.conditionOf ps = .ok c ∧ ∀ d ∈ c, Q d) ↔
      ∃ f, Plan.filterOf b.filterable ps = .ok f ∧ ∀ g ∈ f, g.Becomes b.table Q := by
  unfold conditionOf Becomes
  cases Plan.filterOf b.filterable ps with
  | error e => simp [bind, Except.bind]
  | ok f =>
    cases f with
    | none => simp [bind, Except.bind, pure, Except.pure]
    | some f =>
      simp only [bind, Except.bind, pure, Except.pure]
      cases hf : Sql.compile b.table f <;> simp [hf]

/-- A plan that was made for a request has its condition. -/
theorem conditionOf_eq {p : Plan} (htable : p.table = b.table)
    (hf : Plan.filterOf b.filterable ps = .ok p.filter) : b.conditionOf ps = p.condition := by
  unfold conditionOf Plan.condition
  rw [hf, htable]
  cases p.filter with
  | none => rfl
  | some f => cases hf : Sql.compile b.table f <;> simp [bind, Except.bind, pure, Except.pure, hf]

/-- **The condition of a joined query string has a conjunctive property exactly if the conditions
of both parts have it.** -/
theorem conditionOf_join (hQ : ∀ cs, Q (.conj cs) ↔ ∀ c ∈ cs, Q c) (hq : Params.OnlyFilters q)
    (hq' : Params.OnlyFilters q') :
    (∃ c, b.conditionOf (Params.ofQuery (q ++ '&' :: q')) = .ok c ∧ ∀ d ∈ c, Q d) ↔
      (∃ c, b.conditionOf (Params.ofQuery q) = .ok c ∧ ∀ d ∈ c, Q d) ∧
        ∃ c, b.conditionOf (Params.ofQuery q') = .ok c ∧ ∀ d ∈ c, Q d := by
  simp only [conditionOf_iff]
  exact Plan.filterOf_join (isConjunctive_becomes hQ b.table) hq hq'

end Binding

/-! ## 3. Listings of joined query strings -/

namespace Store

instance : DecidableEq Row := fun r s =>
  decidable_of_iff (r.id = s.id ∧ r.cells = s.cells) (by cases r; cases s; simp)

theorem takes_eq_true {c : Option Sql.Condition} {r : Row} :
    takes c r = true ↔ ∀ d ∈ c, (d.truth reading r.cell).holds = true := by
  cases c <;> simp [takes]

theorem holds_conj (r : Row) (cs : List Sql.Condition) :
    ((Sql.Condition.conj cs).truth reading r.cell).holds = true ↔
      ∀ c ∈ cs, (c.truth reading r.cell).holds = true := by
  rw [Sql.Condition.truth_conj, Sql.Truth.holds_all, List.forall_mem_map]

end Store

namespace Service

open Store

variable {v : Service} {s : Store} {r : Request} {ks : List Sql.SortKey} {q q' : Text}
  {c : Option Sql.Condition}

/-- The rows of a listing. -/
def listedRows (v : Service) (s : Store) (ps : Params) : Except Problem (List Row) := do
  let p ← v.plan ps
  return (← v.found s p).rows

/-- The rows of the store, as a listing comes by them. -/
def metRows (v : Service) (s : Store) (ps : Params) : Except Problem (List Row) := do
  let p ← v.plan ps
  let q ← p.select.mapError QueryFault.problem
  return (s.scanned ⟨q.columns, .condition q.condition, q.order⟩).rows

/-- What a listing that is not paged needs besides its condition, with the keys it sorts by. -/
structure Lists (v : Service) (s : Store) (ks : List Sql.SortKey) : Prop where
  planned : v.require .plan = .ok ()
  columns : v.require .listColumns = .ok ()
  unpaged : ∃ page, PageSpec.resolve v.binding.pagination v.binding.pageSize .absent .absent
    (some v.binding.maxPageSize) = .ok page ∧ page.enabled = false
  order : Sql.compileOrder v.binding.table (v.binding.defaultOrdering.getD []) = .ok ks
  present : s.isDropped = false

/-- The rows of the store, as a listing with a condition and sort keys comes by them. -/
def metFor (v : Service) (s : Store) (c : Option Sql.Condition) (ks : List Sql.SortKey) :
    List Row :=
  (s.scanned ⟨v.binding.listColumns, .condition c, ks⟩).rows

theorem metFor_perm (v : Service) (s : Store) (c : Option Sql.Condition)
    (ks : List Sql.SortKey) : (v.metFor s c ks).Perm s.rows := s.scanned_perm _

/-- A request that only filters finds the rows that its condition takes, in the order of the
binding. -/
theorem Lists.found (hv : v.Lists s ks) (hq : Params.OnlyFilters q)
    (hc : v.binding.conditionOf (Params.ofQuery q) = .ok c) (hcarries : ∀ d ∈ c, Carries d) :
    ∃ p x, v.plan (Params.ofQuery q) = .ok p ∧ p.page.enabled = false ∧
      p.select = .ok ⟨v.binding.table, v.binding.listColumns, c, ks, none⟩ ∧
      v.found s p = .ok x ∧ x.rows = sortRows ks ((v.metFor s c ks).filter (takes c)) := by
  obtain ⟨page, hpage, hunpaged⟩ := hv.unpaged
  obtain ⟨f, hf, -⟩ := Outcome.bind_eq_ok.mp hc
  let p : Plan :=
    ⟨v.binding.table, v.binding.listColumns, f, v.binding.defaultOrdering, page⟩
  have hplan : v.plan (Params.ofQuery q) = .ok p :=
    plan_eq_ok.mpr ⟨hv.planned, hv.columns,
      (Plan.build_of_onlyFilters hq).mpr ⟨f, page, hf, hpage, rfl⟩⟩
  have hcondition : p.condition = .ok c := (Binding.conditionOf_eq rfl hf).symm.trans hc
  have hwindow : p.window = none := Plan.window_eq_none hunpaged
  refine ⟨p, _, hplan, hunpaged, Plan.select_eq_ok.mpr ⟨c, ks, hcondition, hv.order, ?_⟩,
    found_eq_ok.mpr ⟨c, ks, hcondition, hv.order, hcarries, ?_, hv.present, rfl⟩, ?_⟩
  · rw [hwindow]
  · rw [hwindow]
    exact fun l hl => absurd hl List.not_mem_nil
  · rw [hwindow]
    rfl

theorem exists_lists (hq : Params.OnlyFilters q) {shown : List Value}
    (h : v.list s { r with query := Params.ofQuery q } = .ok (.list shown)) :
    ∃ ks c, v.Lists s ks ∧ v.binding.conditionOf (Params.ofQuery q) = .ok c ∧
      (∀ d ∈ c, Carries d) ∧
      v.showRows (sortRows ks ((v.metFor s c ks).filter (takes c))) = .ok shown := by
  obtain ⟨p, x, hplan, hunpaged, hx, hshown⟩ := list_eq_ok_list.mp h
  obtain ⟨hplanned, hcolumns, hbuild⟩ := plan_eq_ok.mp hplan
  obtain ⟨f, page, hf, hpage, rfl⟩ := (Plan.build_of_onlyFilters hq).mp hbuild
  obtain ⟨c, ks, hc, hks, hcarries, -, hpresent, rfl⟩ := found_eq_ok.mp hx
  refine ⟨ks, c, ⟨hplanned, hcolumns, ⟨page, hpage, hunpaged⟩, hks, hpresent⟩,
    (Binding.conditionOf_eq rfl hf).trans hc, hcarries, ?_⟩
  rw [Plan.window_eq_none hunpaged] at hshown
  exact hshown

theorem Lists.listedRows (hv : v.Lists s ks) (hq : Params.OnlyFilters q)
    (hc : v.binding.conditionOf (Params.ofQuery q) = .ok c) (hcarries : ∀ d ∈ c, Carries d) :
    v.listedRows s (Params.ofQuery q)
      = .ok (sortRows ks ((v.metFor s c ks).filter (takes c))) := by
  obtain ⟨p, x, hplan, -, -, hx, hrows⟩ := hv.found hq hc hcarries
  rw [← hrows]
  exact Outcome.bind_eq_ok.mpr ⟨p, hplan, Outcome.bind_eq_ok.mpr ⟨x, hx, rfl⟩⟩

theorem Lists.metRows (hv : v.Lists s ks) (hq : Params.OnlyFilters q)
    (hc : v.binding.conditionOf (Params.ofQuery q) = .ok c) (hcarries : ∀ d ∈ c, Carries d) :
    v.metRows s (Params.ofQuery q) = .ok (v.metFor s c ks) := by
  obtain ⟨p, x, hplan, -, hselect, -, -⟩ := hv.found hq hc hcarries
  exact Outcome.bind_eq_ok.mpr ⟨p, hplan,
    Outcome.bind_eq_ok.mpr ⟨_, Outcome.mapError_eq_ok.mpr hselect, rfl⟩⟩

theorem Lists.list (hv : v.Lists s ks) (hq : Params.OnlyFilters q)
    (hc : v.binding.conditionOf (Params.ofQuery q) = .ok c) (hcarries : ∀ d ∈ c, Carries d)
    {shown : List Value}
    (hshown : v.showRows (sortRows ks ((v.metFor s c ks).filter (takes c))) = .ok shown) :
    v.list s { r with query := Params.ofQuery q } = .ok (.list shown) := by
  obtain ⟨p, x, hplan, hunpaged, -, hx, hrows⟩ := hv.found hq hc hcarries
  exact list_eq_ok_list.mpr ⟨p, x, hplan, hunpaged, hx, hrows ▸ hshown⟩

/-- A joined query string takes a row exactly if both parts do. -/
theorem takes_join {b : Binding} {c' d : Option Sql.Condition} (hq : Params.OnlyFilters q)
    (hq' : Params.OnlyFilters q') (hc : b.conditionOf (Params.ofQuery q) = .ok c)
    (hc' : b.conditionOf (Params.ofQuery q') = .ok c')
    (hd : b.conditionOf (Params.ofQuery (q ++ '&' :: q')) = .ok d) (row : Row) :
    takes d row = (takes c row && takes c' row) := by
  have hiff := @Binding.conditionOf_join b q q'
    (fun c => (c.truth reading row.cell).holds = true) (holds_conj row) hq hq'
  simp only [hc, hc', hd, Except.ok.injEq, exists_eq_left', ← takes_eq_true] at hiff
  rw [Bool.eq_iff_iff, Bool.and_eq_true]
  exact hiff

end Service

/-! ## 4. A listing that narrows another one -/

namespace Store

/-- Whether sort keys leave no two of some rows tied. -/
def Untied (ks : List Sql.SortKey) (rows : List Row) : Prop :=
  ∀ r ∈ rows, ∀ r' ∈ rows, mayPrecede ks r r' = true → mayPrecede ks r' r = true → r = r'

/-- How sorted rows and their answers stand to other rows, of which they are some, and to theirs.
They keep their order, if the store came by both alike, or if the sort keys leave none tied. -/
structure Narrows (ks : List Sql.SortKey) (alike : Prop) (rows kept : List Row)
    (answers shown : List Value) : Prop where
  perm : rows.Perm kept
  fewer : answers.Subperm shown
  order : alike ∨ Untied ks rows → rows = kept ∧ answers.Sublist shown

variable {ks : List Sql.SortKey} {rows rows' : List Row}

theorem sortRows_perm_of_perm (h : rows.Perm rows') : (sortRows ks rows).Perm (sortRows ks rows') :=
  (sortRows_perm ks rows).trans (h.trans (sortRows_perm ks rows').symm)

/-- Where sort keys leave no rows tied, it does not matter how the store came by them. -/
theorem sortRows_eq_of_perm (h : rows.Perm rows') (huntied : Untied ks (sortRows ks rows)) :
    sortRows ks rows = sortRows ks rows' := by
  have hsorted : (sortRows ks rows).Perm (sortRows ks rows') := sortRows_perm_of_perm h
  exact hsorted.eq_of_pairwise (fun r r' hr hr' => huntied r hr r' (hsorted.mem_iff.mpr hr'))
    (pairwise_sortRows ks rows) (pairwise_sortRows ks rows')

/-- The rows that two tests take, sorted, are those of one among some other rows, if the other test
takes just these. -/
theorem sortRows_filter_and {p p' : Row → Bool} (h : ∀ r ∈ rows, r ∈ rows' ↔ p' r = true) :
    sortRows ks (rows.filter fun r => p r && p' r)
      = (sortRows ks (rows.filter p)).filter (· ∈ rows') := by
  have hboth : (rows.filter fun r => p r && p' r) = (rows.filter p).filter p' := by
    rw [List.filter_filter]
    exact List.filter_congr fun r _ => Bool.and_comm _ _
  rw [hboth, sortRows_filter]
  refine List.filter_congr fun r hr => ?_
  rw [Bool.eq_iff_iff, decide_eq_true_iff]
  exact (h r (List.mem_filter.mp (mem_sortRows.mp hr)).1).symm

end Store

namespace Service

open Store

variable {v : Service} {ks : List Sql.SortKey} {met met' : List Row} {p p' : Row → Bool}
  {shown : List Value}

/-- A listing with a further test can be answered if the listing without it can. -/
theorem showRows_and (p' : Row → Bool) (hperm : met'.Perm met)
    (h : v.showRows (sortRows ks (met.filter p)) = .ok shown) :
    ∃ both, v.showRows (sortRows ks (met'.filter fun r => p r && p' r)) = .ok both ∧
      both.Subperm shown := by
  have hfewer : (met'.filter fun r => p r && p' r).Subperm (met.filter p) := by
    refine (hperm.filter _).subperm.trans (List.Sublist.subperm ?_)
    exact List.monotone_filter_right met fun r hr => (Bool.and_eq_true_iff.mp hr).1
  exact showRows_of_subperm
    (((sortRows_perm ks _).subperm.trans hfewer).trans (sortRows_perm ks _).symm.subperm) h

/-- A listing with a further test narrows the listing without it. -/
theorem narrows {alike : Prop} {others : List Row} {both : List Value} (hperm : met'.Perm met)
    (halike : alike → met' = met) (hothers : ∀ r ∈ met, r ∈ others ↔ p' r = true)
    (hshown : v.showRows (sortRows ks (met.filter p)) = .ok shown)
    (hboth : v.showRows (sortRows ks (met'.filter fun r => p r && p' r)) = .ok both) :
    Narrows ks alike (sortRows ks (met'.filter fun r => p r && p' r))
      ((sortRows ks (met.filter p)).filter (· ∈ others)) both shown := by
  obtain ⟨_, hanswers, hfewer⟩ := showRows_and p' hperm hshown
  obtain rfl := Except.ok.inj (hanswers.symm.trans hboth)
  have hkept : sortRows ks (met.filter fun r => p r && p' r)
      = (sortRows ks (met.filter p)).filter (· ∈ others) := sortRows_filter_and hothers
  have hfiltered := hperm.filter fun r => p r && p' r
  refine ⟨hkept ▸ sortRows_perm_of_perm hfiltered, hfewer, fun h => ?_⟩
  have heq : sortRows ks (met'.filter fun r => p r && p' r)
      = (sortRows ks (met.filter p)).filter (· ∈ others) := by
    rcases h with h | h
    · rw [halike h, hkept]
    · rw [sortRows_eq_of_perm hfiltered h, hkept]
  obtain ⟨_, hanswers, hsub⟩ := showRows_of_sublist List.filter_sublist hshown
  exact ⟨heq, Except.ok.inj ((heq ▸ hboth).symm.trans hanswers) ▸ hsub⟩

variable {s : Store} {r : Request}

/-- **Joining two query strings intersects their listings.** If the listings of two query strings of
filter parameters both succeed, not paged, then the listing of the joined query string succeeds with
the rows that are in both, as often as they are there, in the order of the binding; nothing is
answered that was not answered before. Rows that are tied may be answered in another order than
before, unless the store comes by the rows as it did for one of the two. -/
theorem list_join {a b : Text} {shown shown' : List Value} (ha : Params.OnlyFilters a)
    (hb : Params.OnlyFilters b)
    (hshown : v.list s { r with query := Params.ofQuery a } = .ok (.list shown))
    (hshown' : v.list s { r with query := Params.ofQuery b } = .ok (.list shown')) :
    ∃ ks rows rows' joined both,
      Sql.compileOrder v.binding.table (v.binding.defaultOrdering.getD []) = .ok ks ∧
      (v.listedRows s (Params.ofQuery a) = .ok rows ∧ v.showRows rows = .ok shown) ∧
      (v.listedRows s (Params.ofQuery b) = .ok rows' ∧ v.showRows rows' = .ok shown') ∧
      (v.listedRows s (Params.ofQuery (a ++ '&' :: b)) = .ok joined ∧
        v.showRows joined = .ok both) ∧
      v.list s { r with query := Params.ofQuery (a ++ '&' :: b) } = .ok (.list both) ∧
      (joined.Pairwise fun x y => mayPrecede ks x y = true) ∧
      Narrows ks (v.metRows s (Params.ofQuery (a ++ '&' :: b)) = v.metRows s (Params.ofQuery a))
        joined (rows.filter (· ∈ rows')) both shown ∧
      Narrows ks (v.metRows s (Params.ofQuery (a ++ '&' :: b)) = v.metRows s (Params.ofQuery b))
        joined (rows'.filter (· ∈ rows)) both shown' := by
  obtain ⟨ks, c, hv, hc, hcarries, hrows⟩ := exists_lists ha hshown
  obtain ⟨ks', c', hv', hc', hcarries', hrows'⟩ := exists_lists hb hshown'
  obtain rfl : ks = ks' := Except.ok.inj (hv.order.symm.trans hv'.order)
  -- The store carries the joined condition out, since it carries out both parts.
  obtain ⟨d, hd, hdcarries⟩ := (Binding.conditionOf_join (fun _ => carries_conj) ha hb).mpr
    ⟨⟨c, hc, hcarries⟩, c', hc', hcarries'⟩
  have htakes := takes_join ha hb hc hc' hd
  have htakes' : ∀ row, takes d row = (takes c' row && takes c row) :=
    fun row => (htakes row).trans (Bool.and_comm _ _)
  have hmem (c c' : Option Sql.Condition) : ∀ row ∈ v.metFor s c ks,
      row ∈ sortRows ks ((v.metFor s c' ks).filter (takes c')) ↔ takes c' row = true := by
    intro row hrow
    have hmet : row ∈ v.metFor s c' ks :=
      (metFor_perm v s c' ks).mem_iff.mpr ((metFor_perm v s c ks).mem_iff.mp hrow)
    rw [mem_sortRows, List.mem_filter, and_iff_right hmet]
  have hperm (c c' : Option Sql.Condition) : (v.metFor s c ks).Perm (v.metFor s c' ks) :=
    (metFor_perm v s c ks).trans (metFor_perm v s c' ks).symm
  have hmet := hv.metRows (ha.join hb) hd hdcarries
  obtain ⟨both, hboth, -⟩ := showRows_and (takes c') (hperm d c) hrows
  rw [← funext htakes] at hboth
  refine ⟨ks, _, _, _, both, hv.order, ⟨hv.listedRows ha hc hcarries, hrows⟩,
    ⟨hv.listedRows hb hc' hcarries', hrows'⟩, ⟨hv.listedRows (ha.join hb) hd hdcarries, hboth⟩,
    hv.list (ha.join hb) hd hdcarries hboth, pairwise_sortRows ks _, ?_, ?_⟩
  · rw [hmet, hv.metRows ha hc hcarries]
    rw [funext htakes] at hboth ⊢
    exact narrows (hperm d c) Except.ok.inj (hmem c c') hrows hboth
  · rw [hmet, hv.metRows hb hc' hcarries']
    rw [funext htakes'] at hboth ⊢
    exact narrows (hperm d c') Except.ok.inj (hmem c' c) hrows' hboth

/-- A table of goods, each with a price and a kind. -/
def goods : Table where
  name := ['g']
  columns := [
    ⟨['i', 'd'], .integer, true, false, none, none, none, false⟩,
    ⟨['n'], .integer, false, true, none, none, none, false⟩,
    ⟨['k'], .string, false, true, none, none, none, false⟩]

/-- A service of goods, to be filtered by price and kind. -/
def goodsService : Service where
  binding := .ofOptions goods { filterable := some [['n'], ['k']] }

/-- Four goods, one of them without a price. -/
def goodsStore : Store := .ofRows goods [
  ⟨1, [(['i', 'd'], .integer 1), (['n'], .integer 3), (['k'], .text ['x'])]⟩,
  ⟨2, [(['i', 'd'], .integer 2), (['n'], .integer 5), (['k'], .text ['x'])]⟩,
  ⟨3, [(['i', 'd'], .integer 3), (['n'], .integer 7), (['k'], .text ['y'])]⟩,
  ⟨4, [(['i', 'd'], .integer 4), (['n'], .null), (['k'], .text ['x'])]⟩]

/-- A good as it is answered. -/
def shownGood (id : Int) (price : Value) (kind : Text) : Value :=
  .object [(['i', 'd'], .integer id), (['n'], price), (['k'], .text kind)]

/-- A price above four. -/
def dear : Text := ['n', '=', '%', '3', 'E', '4']

/-- One kind, or a price of seven. -/
def either : Text :=
  ['o', 'r', '=', '(', 'k', '=', 'x', '|', 'n', '=', '7', ')']

theorem list_join_goods :
    Params.OnlyFilters dear ∧ Params.OnlyFilters either ∧
      goodsService.list goodsStore ⟨Params.ofQuery dear, [], .null⟩
        = .ok (.list [shownGood 2 (.integer 5) ['x'], shownGood 3 (.integer 7) ['y']]) ∧
      goodsService.list goodsStore ⟨Params.ofQuery either, [], .null⟩
        = .ok (.list [shownGood 1 (.integer 3) ['x'], shownGood 2 (.integer 5) ['x'],
          shownGood 3 (.integer 7) ['y'], shownGood 4 .null ['x']]) ∧
      ∃ ks rows rows' joined both,
        Sql.compileOrder goods (goodsService.binding.defaultOrdering.getD []) = .ok ks ∧
        (goodsService.listedRows goodsStore (Params.ofQuery dear) = .ok rows ∧
          goodsService.showRows rows
            = .ok [shownGood 2 (.integer 5) ['x'], shownGood 3 (.integer 7) ['y']]) ∧
        (goodsService.listedRows goodsStore (Params.ofQuery either) = .ok rows' ∧
          goodsService.showRows rows' = .ok [shownGood 1 (.integer 3) ['x'],
            shownGood 2 (.integer 5) ['x'], shownGood 3 (.integer 7) ['y'],
            shownGood 4 .null ['x']]) ∧
        (goodsService.listedRows goodsStore (Params.ofQuery (dear ++ '&' :: either)) = .ok joined ∧
          goodsService.showRows joined = .ok both) ∧
        goodsService.list goodsStore ⟨Params.ofQuery (dear ++ '&' :: either), [], .null⟩
          = .ok (.list both) ∧
        (joined.Pairwise fun x y => mayPrecede ks x y = true) ∧
        Narrows ks (goodsService.metRows goodsStore (Params.ofQuery (dear ++ '&' :: either))
            = goodsService.metRows goodsStore (Params.ofQuery dear))
          joined (rows.filter (· ∈ rows')) both
          [shownGood 2 (.integer 5) ['x'], shownGood 3 (.integer 7) ['y']] ∧
        Narrows ks (goodsService.metRows goodsStore (Params.ofQuery (dear ++ '&' :: either))
            = goodsService.metRows goodsStore (Params.ofQuery either))
          joined (rows'.filter (· ∈ rows)) both
          [shownGood 1 (.integer 3) ['x'], shownGood 2 (.integer 5) ['x'],
            shownGood 3 (.integer 7) ['y'], shownGood 4 .null ['x']] :=
  ⟨⟨by decide, by decide⟩, ⟨by decide, by decide⟩, rfl, rfl,
    @list_join goodsService goodsStore ⟨[], [], .null⟩ dear either _ _ ⟨by decide, by decide⟩
      ⟨by decide, by decide⟩ rfl rfl⟩

/-- The column of codes. -/
def codeColumn : Column := ⟨['c'], .string, true, false, none, none, none, false⟩

/-- A table of marks, each under a code. -/
def marks : Table where
  name := ['t']
  columns := [codeColumn, ⟨['n'], .integer, false, true, none, none, none, false⟩]

/-- A service of marks, to be filtered by code and mark. -/
def marksService : Service where
  binding := .ofOptions marks { filterable := some [['c'], ['n']] }

/-- Two marks, of which the second has the lower code. -/
def marksStore : Store := .ofRows marks [
  ⟨1, [(['c'], .text ['b']), (['n'], .integer 1)]⟩,
  ⟨2, [(['c'], .text ['a']), (['n'], .integer 2)]⟩]

/-- A mark as it is answered. -/
def shownMark (code : Text) (mark : Int) : Value :=
  .object [(['c'], .text code), (['n'], .integer mark)]

/-- A mark of zero or more. -/
def counted : Text := ['n', '=', '>', '=', '0']

/-- A code that does not come before the digits. -/
def coded : Text := ['c', '=', '>', '=', '0']

/-- A store that keeps the marks sorted by their codes goes along the codes once a condition bounds
them. -/
theorem list_marks_of_followed {q : Text} {c : Sql.Condition} (hq : Params.OnlyFilters q)
    (hc : marksService.binding.conditionOf (Params.ofQuery q) = .ok (some c)) (hcarries : Carries c)
    (hkey : followed? marks ⟨marks.columns, .condition (some c), []⟩ = some [codeColumn])
    (htakes : marksStore.rows.reverse.filter (takes (some c)) = marksStore.rows.reverse) :
    marksService.list marksStore ⟨Params.ofQuery q, [], .null⟩
      = .ok (.list [shownMark ['a'] 2, shownMark ['b'] 1]) := by
  have hv : marksService.Lists marksStore [] := ⟨rfl, rfl, ⟨_, rfl, rfl⟩, rfl, rfl⟩
  have hmet : marksService.metFor marksStore (some c) [] = marksStore.rows.reverse := by
    show (Scan.alongKeys marks).arrange ⟨marks.columns, .condition (some c), []⟩ _ = _
    simp only [Scan.alongKeys, hkey]
    exact sortRows_pair _ _ _
  refine hv.list (r := ⟨[], [], .null⟩) hq hc (by rintro d ⟨⟩; exact hcarries) ?_
  rw [hmet, htakes]
  rfl

/-- The marks are listed as they are numbered if they are filtered by mark alone, but along their
codes if they are filtered by code as well, **whichever filter comes first**. So what both list is
not listed in the order in which the first lists it. -/
theorem list_join_reorders :
    Params.OnlyFilters counted ∧ Params.OnlyFilters coded ∧
      marksService.list marksStore ⟨Params.ofQuery counted, [], .null⟩
        = .ok (.list [shownMark ['b'] 1, shownMark ['a'] 2]) ∧
      marksService.list marksStore ⟨Params.ofQuery coded, [], .null⟩
        = .ok (.list [shownMark ['a'] 2, shownMark ['b'] 1]) ∧
      marksService.list marksStore ⟨Params.ofQuery (counted ++ '&' :: coded), [], .null⟩
        = .ok (.list [shownMark ['a'] 2, shownMark ['b'] 1]) ∧
      marksService.list marksStore ⟨Params.ofQuery (coded ++ '&' :: counted), [], .null⟩
        = .ok (.list [shownMark ['a'] 2, shownMark ['b'] 1]) ∧
      ¬ [shownMark ['a'] 2, shownMark ['b'] 1].Sublist [shownMark ['b'] 1, shownMark ['a'] 2] := by
  have hcounted : Params.OnlyFilters counted := ⟨by decide, by decide⟩
  have hcoded : Params.OnlyFilters coded := ⟨by decide, by decide⟩
  refine ⟨hcounted, hcoded, rfl,
    list_marks_of_followed hcoded rfl ⟨rfl, by decide⟩ rfl rfl,
    list_marks_of_followed (hcounted.join hcoded) rfl ⟨rfl, by decide⟩ rfl rfl,
    list_marks_of_followed (hcoded.join hcounted) rfl ⟨rfl, by decide⟩ rfl rfl, ?_⟩
  intro hsub
  have hsame := hsub.eq_of_length rfl
  simp [shownMark] at hsame

end Service
end TableService
