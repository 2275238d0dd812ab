import TableService.CommandLine
import TableService.Proofs.Bindings

/-!
# What is explained, and what is listed

A query is explained without a resource, by a second assembly of the readers that make the plan of a
listing. The two agree on every query string, on its faults and on which of them comes first, but
for one argument: **a listing bounds the page size that is asked for, and the explanation does
not.** So

> the plan of a listing is the explained plan, **its page cut to the bound if more was asked for**,

and where nothing is cut, what is shown is what a listing does.

The statement is an equation between the two plans (`Explain.Subject.build_eq`). What a command does
with the plan comes after it: a query is refused while its plan is made, and a plan whose offset
has too many digits is made and not shown.
-/

namespace TableService

/-! ## 1. Pages with and without a bound -/

/-- The integer of a number parameter, if it can be read. -/
def RawNumber.value? (key : Text) (x : RawNumber) : Option Int :=
  match x.read key with
  | .error _ => none
  | .ok n => n

/-- The page size that is asked for, if it can be read. -/
def Params.requestedSize (ps : Params) : Option Int :=
  match Plan.rawNumber ps sizeKey with
  | .error _ => none
  | .ok size => size.value? sizeKey

namespace PageSpec

/-- A page, cut to a bound if paging is on and more was asked for. -/
def capped (bound : Int) (requested : Option Int) (s : PageSpec) : PageSpec :=
  match requested with
  | none => s
  | some n => if s.enabled ∧ bound < n then { s with size := bound } else s

theorem capped_of_le {bound : Int} {requested : Option Int} {s : PageSpec}
    (h : ∀ n, requested = some n → n ≤ bound) : s.capped bound requested = s := by
  cases requested with
  | none => rfl
  | some n =>
    have hn := h n rfl
    exact if_neg fun hmore => absurd hmore.2 (by omega)

variable {mode : PaginationMode} {configured bound : Int} {page size : RawNumber}

theorem one_le_chooseSize (hconfigured : 1 ≤ configured) (requested : Option Int) :
    1 ≤ chooseSize configured requested none := by
  cases requested with
  | none => exact hconfigured
  | some n =>
    unfold chooseSize
    dsimp only
    split
    · exact hconfigured
    · omega

theorem chooseSize_bounded (hbound : 1 ≤ bound) (n : Int) :
    chooseSize configured (some n) (some bound)
      = if bound < n then bound else chooseSize configured (some n) none := by
  unfold chooseSize
  dsimp only
  by_cases hn : n ≤ 0
  · rw [if_pos hn, if_pos hn, if_neg (by omega)]
  · rw [if_neg hn, if_neg hn, if_neg (by omega)]
    split
    · exact Int.min_eq_right (by omega)
    · exact Int.min_eq_left (by omega)

theorem make_eq_ok {enabled : Bool} {number chosen : Int} (hnumber : 1 ≤ number)
    (hchosen : 1 ≤ chosen) :
    make enabled number chosen = .ok ⟨enabled, number, chosen, false, false⟩ := by
  rw [make, if_neg (by omega)]

/-- The page of a number, as it is made with a bound and without one. -/
theorem make_bounded (hconfigured : 1 ≤ configured) (hbound : 1 ≤ bound) {number : Int}
    (hnumber : 1 ≤ number) (requested : Option Int) (p q : Bool) :
    ((make true number (chooseSize configured requested (some bound))).map fun s =>
        { s with pageIsFlag := p, sizeIsFlag := q })
      = ((make true number (chooseSize configured requested none)).map fun s =>
          { s with pageIsFlag := p, sizeIsFlag := q }).map (capped bound requested) := by
  rw [make_eq_ok hnumber (one_le_chooseSize hconfigured requested)]
  cases requested with
  | none =>
    show (make true number configured).map _ = _
    rw [make_eq_ok hnumber hconfigured]
    rfl
  | some n =>
    rw [chooseSize_bounded hbound]
    by_cases hmore : bound < n
    · rw [if_pos hmore, make_eq_ok hnumber hbound]
      simp [capped, Except.map, hmore]
    · rw [if_neg hmore, make_eq_ok hnumber (one_le_chooseSize hconfigured (some n))]
      simp [capped, Except.map, hmore]

/-- **A bound cuts the page that there would be without it**, and brings no fault of its own. -/
theorem resolve_bounded (hconfigured : 1 ≤ configured) (hbound : 1 ≤ bound) :
    resolve mode configured page size (some bound)
      = (resolve mode configured page size none).map
          (capped bound (size.value? Params.sizeKey)) := by
  unfold resolve RawNumber.value?
  split
  · cases page.read Params.pageKey with
    | error e => rfl
    | ok k =>
      cases size.read Params.sizeKey with
      | error e => rfl
      | ok m =>
        apply make_bounded hconfigured hbound
        split
        · split <;> omega
        · omega
  -- Where paging is off, the requested size is not looked at, and nothing is cut.
  · rw [make_eq_ok (Int.le_refl 1) hconfigured]
    cases size.read Params.sizeKey with
    | error e => rfl
    | ok m =>
      cases m with
      | none => rfl
      | some n => simp [capped, Except.map]

end PageSpec

theorem Plan.pageOf_bounded {mode : PaginationMode} {configured bound : Int}
    (hconfigured : 1 ≤ configured) (hbound : 1 ≤ bound) (ps : Params) :
    pageOf mode configured (some bound) ps
      = (pageOf mode configured none ps).map (PageSpec.capped bound ps.requestedSize) := by
  unfold pageOf Params.requestedSize
  cases rawNumber ps Params.pageKey with
  | error e => rfl
  | ok page =>
    cases rawNumber ps Params.sizeKey with
    | error e => rfl
    | ok size => exact PageSpec.resolve_bounded hconfigured hbound

/-! ## 2. The two plans -/

/-- Whether a problem is a refusal of the query. -/
def Problem.IsQuery (p : Problem) : Prop :=
  ∃ family wording field position resource, p = .query family wording field position resource

namespace Explain.Subject

/-- What a table is bound by to be listed as it is explained. -/
def bindingOptions (x : Subject) (o : BindingOptions) : BindingOptions :=
  { o with
    filterable := some x.fields
    orderable := some x.orderable
    defaultOrdering := none
    pageSize := some x.pageSize
    pagination := some x.pagination.name }

theorem chooseMode_name (mode : PaginationMode) (settings : Settings) :
    Binding.chooseMode (some mode.name) settings = .ok mode := by
  cases mode <;> rfl

variable {x : Subject} {o : BindingOptions} {table : Table} {b : Binding}

/-- **The plan of a listing is the explained plan**, its page cut to the bound. Its columns are
those of the list schema. -/
theorem build_eq (hfields : x.fields ≠ []) (hsize : 1 ≤ x.pageSize)
    (htable : x.madeUpTable = .ok table)
    (hb : Binding.create table .standard (x.bindingOptions o) = .ok b) :
    Plan.build b (Params.ofQuery x.query) = x.plan.map fun shown =>
      { shown with
        columns := b.listColumns
        page := shown.page.capped 1000 (Params.ofQuery x.query).requestedSize } := by
  have hmade := Binding.made_of_create hb
  have hfilterable : b.filterable = x.fields := hmade.filterable_eq
  have horderable : b.orderable = x.orderable := hmade.orderable_eq
  have hdefault : b.defaultOrdering = none := by
    have hordering := hmade.ordering
    exact (Except.ok.inj hordering).symm
  have hmode : b.pagination = x.pagination := by
    have hchosen := hmade.mode
    rw [bindingOptions, chooseMode_name] at hchosen
    exact (Except.ok.inj hchosen).symm
  have hpageSize : b.pageSize = x.pageSize := by
    rw [hmade.pageSize_eq]
    exact if_neg (by omega)
  have hbound : b.maxPageSize = 1000 := hmade.bound
  have hfilter : Plan.filterOf x.fields (Params.ofQuery x.query)
      = Filter.parse x.fields (Params.ofQuery x.query) := by
    unfold Plan.filterOf
    split
    · next hnone => exact absurd hnone hfields
    · rfl
  unfold Plan.build plan
  rw [hfilterable, hfilter, horderable, hmode, hpageSize, hbound, hdefault, htable,
    Plan.pageOf_bounded hsize (by decide)]
  dsimp only
  cases Filter.parse x.fields (Params.ofQuery x.query) with
  | error e => rfl
  | ok filter =>
    cases Ordering.ofRequest x.orderable (Params.ofQuery x.query) with
    | error e => rfl
    | ok order =>
      cases Plan.pageOf x.pagination x.pageSize none (Params.ofQuery x.query) with
      | error e => rfl
      | ok page =>
        show Except.ok _ = Except.ok _
        rw [hmade.table_eq, Option.or_none]

end Explain.Subject

/-! ## 3. The command -/

namespace CommandLine

/-- A problem with a plan is told to the user if it is a refusal of the query, and not otherwise. -/
theorem ofProblem_eq_refused {p : Problem} :
    (∃ words, Ending.ofProblem p = .refused words) ↔ p.IsQuery := by
  constructor
  · rintro ⟨words, h⟩
    cases p with
    | query family wording field position resource => exact ⟨_, _, _, _, _, rfl⟩
    | _ => cases h
  · rintro ⟨family, wording, field, position, resource, rfl⟩
    exact ⟨_, rfl⟩

namespace Command

variable {c : Command} {d : Sql.Dialect}

theorem run_of_error {p : Problem} (hd : Sql.Dialect.ofName? c.dialect = some d)
    (h : c.subject.plan = .error p) : c.run = .ofProblem p := by
  rw [run, hd]
  dsimp only
  rw [h]

/-- A plan that was made is shown, or the command breaks. -/
theorem run_of_plan {shown : Plan} (hd : Sql.Dialect.ofName? c.dialect = some d)
    (h : c.subject.plan = .ok shown) :
    (∃ statement, c.run = .done (Explain.describe shown) statement) ∨ ∃ p, c.run = .broken p := by
  rw [run, hd]
  dsimp only
  rw [h]
  dsimp only
  split
  · exact .inr ⟨_, rfl⟩
  · split
    · split
      · exact .inr ⟨_, rfl⟩
      · exact .inl ⟨_, rfl⟩
    · exact .inl ⟨_, rfl⟩

/-- **A query is refused while its plan is made**, and at no other time. -/
theorem run_refused_iff (hd : Sql.Dialect.ofName? c.dialect = some d) :
    (∃ words, c.run = .refused words) ↔ ∃ p, c.subject.plan = .error p ∧ p.IsQuery := by
  cases hplan : c.subject.plan with
  | error p =>
    rw [run_of_error hd hplan, ofProblem_eq_refused]
    constructor
    · intro hp
      exact ⟨p, rfl, hp⟩
    · rintro ⟨p', heq, hp⟩
      cases heq
      exact hp
  | ok shown =>
    constructor
    · rintro ⟨words, hrun⟩
      rcases run_of_plan hd hplan with ⟨statement, hdone⟩ | ⟨p, hbroken⟩
      · rw [hdone] at hrun
        cases hrun
      · rw [hbroken] at hrun
        cases hrun
    · rintro ⟨p, heq, -⟩
      cases heq

/-- What is shown is the plan that was made. -/
theorem eq_describe_of_run {shown : Plan} {v : Value} {statement : Option Text}
    (hd : Sql.Dialect.ofName? c.dialect = some d) (h : c.subject.plan = .ok shown)
    (hrun : c.run = .done v statement) : v = Explain.describe shown := by
  rcases run_of_plan hd h with ⟨statement', hdone⟩ | ⟨p, hbroken⟩
  · rw [hdone] at hrun
    cases hrun
    rfl
  · rw [hbroken] at hrun
    cases hrun

/-- Without its statement, a plan is shown exactly if its numbers can be written. -/
theorem run_plain {shown : Plan} (hd : Sql.Dialect.ofName? c.dialect = some d)
    (h : c.subject.plan = .ok shown) (hplain : c.showsStatement = false) :
    c.run = if Explain.isWritable shown then .done (Explain.describe shown) none
      else .broken .oversizedInteger := by
  rw [run, hd]
  dsimp only
  rw [h]
  dsimp only
  rw [hplain]
  cases Explain.isWritable shown <;> rfl

/-- **What a command tells of a listing.** Take a query to be explained in a dialect that is known,
with fields to filter by and a positive page size, and a binding of its table by the same fields,
page size and mode, without an order of its own.

* The command refuses the query exactly if the listing has no plan because of the query.
* If the listing has a plan, the command has one with the same filter, the same order and, unless a
  size beyond 1000 is asked for, the same page; that size is shown, and the listing's is 1000. What
  is shown is this plan, unless its offset has too many digits. -/
theorem run_explains {table : Table} {o : BindingOptions} {b : Binding}
    (hd : Sql.Dialect.ofName? c.dialect = some d) (hfields : c.subject.fields ≠ [])
    (hsize : 1 ≤ c.subject.pageSize) (htable : c.subject.madeUpTable = .ok table)
    (hb : Binding.create table .standard (c.subject.bindingOptions o) = .ok b) :
    ((∃ words, c.run = .refused words) ↔
        ∃ p, Plan.build b (Params.ofQuery c.subject.query) = .error p ∧ p.IsQuery) ∧
      ∀ plan, Plan.build b (Params.ofQuery c.subject.query) = .ok plan →
        ∃ shown : Plan, c.subject.plan = .ok shown ∧ shown.filter = plan.filter ∧
          shown.order = plan.order ∧
          plan.page
            = shown.page.capped 1000 (Params.ofQuery c.subject.query).requestedSize ∧
          ((∀ n, (Params.ofQuery c.subject.query).requestedSize = some n → n ≤ 1000) →
            shown.page = plan.page) ∧
          (∀ v statement, c.run = .done v statement → v = Explain.describe shown) ∧
          (c.showsStatement = false → c.run
            = if Explain.isWritable shown then .done (Explain.describe shown) none
              else .broken .oversizedInteger) := by
  have hbuild := Explain.Subject.build_eq hfields hsize htable hb
  constructor
  · rw [run_refused_iff hd, hbuild]
    simp only [Outcome.map_eq_error]
  · intro plan hplan
    rw [hbuild] at hplan
    obtain ⟨shown, hshown, rfl⟩ := Outcome.map_eq_ok.mp hplan
    refine ⟨shown, hshown, rfl, rfl, rfl, ?_, ?_, run_plain hd hshown⟩
    · intro hwithin
      exact (PageSpec.capped_of_le hwithin).symm
    · intro v statement hrun
      exact eq_describe_of_run hd hshown hrun

/-- A listing is explained whose page is asked to be larger than any listing has. -/
def largePage : Command where
  subject := {
    query := "age=>=18&page=1&size=5000".toList, fields := [['a', 'g', 'e']], sortFields := [],
    table := ['t'], pageSize := 20, pagination := .auto }
  dialect := Sql.Dialect.sqlite.name
  showsStatement := false

/-- The table that it is explained by. -/
def ageTable : Table := ⟨['t'], [Explain.Subject.column ['a', 'g', 'e']]⟩

def ageOptions : BindingOptions where
  keyPolicy := .column ['a', 'g', 'e']

def ageBinding : Binding := .ofOptions ageTable (largePage.subject.bindingOptions ageOptions)

theorem run_explains_largePage :
    Binding.create ageTable .standard (largePage.subject.bindingOptions ageOptions)
        = .ok ageBinding ∧
      ((∃ words, largePage.run = .refused words) ↔
        ∃ p, Plan.build ageBinding (Params.ofQuery largePage.subject.query) = .error p ∧
          p.IsQuery) ∧
      ∃ plan, Plan.build ageBinding (Params.ofQuery largePage.subject.query) = .ok plan ∧
        ∃ shown : Plan, largePage.subject.plan = .ok shown ∧ shown.filter = plan.filter ∧
          shown.order = plan.order ∧
          plan.page
            = shown.page.capped 1000 (Params.ofQuery largePage.subject.query).requestedSize ∧
          ((∀ n, (Params.ofQuery largePage.subject.query).requestedSize = some n → n ≤ 1000) →
            shown.page = plan.page) ∧
          (∀ v statement, largePage.run = .done v statement → v = Explain.describe shown) ∧
          (largePage.showsStatement = false → largePage.run
            = if Explain.isWritable shown then .done (Explain.describe shown) none
              else .broken .oversizedInteger) := by
  have hb : Binding.create ageTable .standard (largePage.subject.bindingOptions ageOptions)
      = .ok ageBinding := rfl
  have hd : Sql.Dialect.ofName? largePage.dialect = some .sqlite := rfl
  have hfields : largePage.subject.fields ≠ [] := by decide
  have hsize : 1 ≤ largePage.subject.pageSize := by decide
  obtain ⟨hrefused, hplans⟩ := run_explains hd hfields hsize rfl hb
  exact ⟨hb, hrefused, _, rfl, hplans _ rfl⟩

/-- **The explanation shows a page that no listing has.** -/
theorem large_page_is_shown :
    ∃ shown plan, largePage.subject.plan = .ok shown ∧
      largePage.run = .done (Explain.describe shown) none ∧
      Plan.build ageBinding (Params.ofQuery largePage.subject.query) = .ok plan ∧
      shown.page.size = 5000 ∧ plan.page.size = 1000 := by
  obtain ⟨shown, hshown, hsize, hoffset⟩ : ∃ shown, largePage.subject.plan = .ok shown ∧
      shown.page.size = 5000 ∧ shown.offset = some 0 := ⟨_, rfl, rfl, rfl⟩
  have hwritable : Explain.isWritable shown = true := by
    rw [Explain.isWritable, hoffset]
    rfl
  have hrun : largePage.run = .done (Explain.describe shown) none := by
    have hd : Sql.Dialect.ofName? largePage.dialect = some .sqlite := rfl
    rw [run_plain hd hshown rfl, if_pos hwritable]
  exact ⟨shown, _, hshown, hrun, rfl, hsize, rfl⟩

end Command
end CommandLine
end TableService
