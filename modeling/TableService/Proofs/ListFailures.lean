import TableService.Proofs.Listings
import TableService.Proofs.RowAnswers

/-!
# How a listing fails

A listing that has a plan runs one statement and then reads and validates the rows that were found.
What goes wrong on the way is told as a problem of the service: a filter that cannot be compiled, a
statement that the store refuses, a row that its schema refuses. **Three things come through from
outside**:

* a number that the statement sends and that 64 bits do not hold, since it fails before there is a
  statement to be refused;
* a cell that the type of its column cannot read;
* a number of pages beyond binary64.

The main result says that there are no others, and that each of them does come through.
-/

namespace TableService

/-! ## 1. Problems of the service -/

theorem QueryFault.isOwn_problem {e : QueryFault} (h : e.isRefusal = true) :
    e.problem.isOwn = true := by
  unfold problem
  cases hfamily : e.family <;> simp [isRefusal, hfamily] at h <;> rfl

namespace Sql

mutual

/-- If every predicate has a test on its column, what is missing is a column. -/
theorem isRefusal_of_compile {table : Table} : ∀ (f : Filter) {e : QueryFault},
    f.IsTestable table → compile table f = .error e → e.isRefusal = true
  | .test field p, e, htestable, h => by
    rw [compile] at h
    split at h
    · cases h
      rfl
    · next c hc =>
      obtain ⟨t, ht⟩ := (compilePredicate_testable c.type.bindsText p).1
        (htestable (field, p) List.mem_cons_self c hc)
      rw [ht] at h
      cases h
  | .all parts, e, htestable, h => by
    rw [compile] at h
    split at h
    · next e' he =>
      cases h
      exact isRefusal_of_compileAll parts htestable he
    · cases h
  | .any parts, e, htestable, h => by
    rw [compile] at h
    split at h
    · next e' he =>
      cases h
      exact isRefusal_of_compileAll parts htestable he
    · cases h
  | .not part, e, htestable, h => by
    rw [compile] at h
    split at h
    · next e' he =>
      cases h
      exact isRefusal_of_compile part htestable he
    · cases h

theorem isRefusal_of_compileAll {table : Table} : ∀ (fs : List Filter) {e : QueryFault},
    (∀ leaf ∈ Filter.leavesOf fs, ∀ c ∈ table.column? leaf.1,
      leaf.2.IsTestable c.type.bindsText) →
      compileAll table fs = .error e → e.isRefusal = true
  | [], _, _, h => by
    cases h
  | f :: fs, e, htestable, h => by
    obtain ⟨hf, hfs⟩ := List.forall_mem_append.mp htestable
    rw [compileAll] at h
    split at h
    · next e' he =>
      cases h
      exact isRefusal_of_compile f hf he
    · split at h
      · next e' he =>
        cases h
        exact isRefusal_of_compileAll fs hfs he
      · cases h

end

theorem isRefusal_of_compileOrder {table : Table} : ∀ {xs : List OrderItem} {e : QueryFault},
    compileOrder table xs = .error e → e.isRefusal = true
  | [], _, h => by
    cases h
  | x :: xs, e, h => by
    rw [compileOrder] at h
    split at h
    · cases h
      rfl
    · split at h
      · next e' he =>
        cases h
        exact isRefusal_of_compileOrder he
      · cases h

end Sql

theorem Plan.isOwn_of_select {b : Binding} {ps : Params} {p : Plan} {e : QueryFault}
    (hp : Plan.build b ps = .ok p) (h : p.select = .error e) : e.problem.isOwn = true := by
  apply QueryFault.isOwn_problem
  unfold select at h
  split at h
  · next e' he =>
    cases h
    unfold condition at he
    split at he
    · cases he
    · next f hf =>
      split at he
      · next e'' hcompile =>
        cases he
        exact Sql.isRefusal_of_compile f (isTestable_of_build hp f hf) hcompile
      · cases he
  · split at h
    · next e' he =>
      cases h
      exact Sql.isRefusal_of_compileOrder he
    · cases h

theorem Schema.isOwn_of_validate {s : Schema} {data : Value} {isPartial : Bool} {e : Problem}
    (h : s.validate data isPartial = .error e) : e.isOwn = true := by
  have hmembers : ∀ {members}, s.validateMembers members isPartial = .error e →
      e.isOwn = true := by
    intro members h
    unfold validateMembers at h
    split at h
    · cases h
    · cases h
      rfl
  unfold validate at h
  split at h
  · exact hmembers h
  · exact hmembers h
  · split at h
    · cases h
      rfl
    · exact hmembers h
  · cases h
    rfl

theorem Service.isOwn_of_presentAll {s : Schema} : ∀ {rows : List Members} {e : Problem},
    presentAll s rows = .error e → e.isOwn = true
  | [], _, h => by
    cases h
  | row :: rows, e, h => by
    rw [presentAll] at h
    split at h
    · next e' he =>
      cases h
      exact Schema.isOwn_of_validate (Outcome.map_eq_error.mp he)
    · split at h
      · next e' he =>
        cases h
        exact isOwn_of_presentAll he
      · cases h

/-! ## 2. Cells that cannot be read -/

namespace Store

namespace Codec

theorem isOwn_of_readJson {t : Text} {e : Problem} (h : readJson t = .error e) :
    e.isOwn = false := by
  unfold readJson at h
  split at h
  · cases h
  · split at h
    · cases h
      rfl
    · cases h
      rfl
    · cases h
      rfl

theorem isOwn_of_decode {t : ColumnType} {x : Cell} {e : Problem} (h : decode t x = .error e) :
    e.isOwn = false := by
  unfold decode at h
  split at h
  · cases h
  · unfold decodePresent at h
    split at h
    -- A date and a date-time spelled by a text, then what is no text or number, then JSON text.
    case h_2 | h_3 =>
      split at h
      · cases h
      · cases h
        rfl
    case h_6 | h_7 | h_8 =>
      cases h
      rfl
    case h_9 => exact isOwn_of_readJson h
    all_goals cases h

end Codec

/-- A row is not read for a cell that its column cannot read, and that is no problem of the
service. -/
theorem Row.exists_of_values {row : Row} : ∀ {cs : List Column} {e : Problem},
    row.values cs = .error e → e.isOwn = false ∧
      ∃ c ∈ cs, ∀ value, Codec.decode c.type (row.cell c) ≠ .ok value
  | [], _, h => by
    cases h
  | c :: cs, e, h => by
    rw [values] at h
    split at h
    · next e' he =>
      cases h
      refine ⟨Codec.isOwn_of_decode he, c, List.mem_cons_self, ?_⟩
      intro value
      simp [he]
    · obtain ⟨hown, d, hd, hcell⟩ := Row.exists_of_values (Outcome.map_eq_error.mp h)
      exact ⟨hown, d, List.mem_cons_of_mem _ hd, hcell⟩

theorem Row.exists_of_valuesOfAll {cs : List Column} : ∀ {rows : List Row} {e : Problem},
    Row.valuesOfAll cs rows = .error e → e.isOwn = false ∧
      ∃ row ∈ rows, ∃ c ∈ cs, ∀ value, Codec.decode c.type (row.cell c) ≠ .ok value
  | [], _, h => by
    cases h
  | row :: rows, e, h => by
    rw [valuesOfAll] at h
    split at h
    · next e' he =>
      cases h
      obtain ⟨hown, c, hc, hcell⟩ := Row.exists_of_values he
      exact ⟨hown, row, List.mem_cons_self, c, hc, hcell⟩
    · obtain ⟨hown, other, hmem, hcell⟩ := Row.exists_of_valuesOfAll (Outcome.map_eq_error.mp h)
      exact ⟨hown, other, List.mem_cons_of_mem _ hmem, hcell⟩

/-- Rows that are read have cells that their columns can read. -/
theorem Row.decode_of_valuesOfAll {cs : List Column} : ∀ {rows : List Row} {read : List Members},
    Row.valuesOfAll cs rows = .ok read → ∀ row ∈ rows, ∀ c ∈ cs,
      ∃ value, Codec.decode c.type (row.cell c) = .ok value
  | [], _, _ => by simp
  | row :: rows, read, h => by
    rw [valuesOfAll] at h
    split at h
    · cases h
    · next members hmembers =>
      obtain ⟨rest, hrest, -⟩ := Outcome.map_eq_ok.mp h
      exact List.forall_mem_cons.mpr
        ⟨(Row.values_eq_ok.mp hmembers).1, Row.decode_of_valuesOfAll hrest⟩

/-! ## 3. Statements that are refused -/

/-- Only an integer cannot be bound, and only a large one. -/
theorem requireBindable_eq_error {ls : List Literal} {f : StoreFault} :
    requireBindable ls = .error f ↔
      f = .oversized ∧ ∃ n, Literal.integer n ∈ ls ∧ fitsWord n = false := by
  have hlarge : ls.all bindable = false ↔ ∃ n, Literal.integer n ∈ ls ∧ fitsWord n = false := by
    rw [List.all_eq_false]
    constructor
    · rintro ⟨l, hl, hbind⟩
      cases l with
      | integer n => exact ⟨n, hl, by simpa [bindable] using hbind⟩
      | _ => exact absurd rfl hbind
    · rintro ⟨n, hn, hlarge⟩
      exact ⟨_, hn, by simp [bindable, hlarge]⟩
  unfold requireBindable
  rw [← hlarge]
  cases ls.all bindable with
  | true => simp
  | false => simp only [Bool.false_eq_true, if_false, Except.error.injEq, and_true, eq_comm]

/-- The store refuses a query for a test that it has no form of, for a table that is not there, or
for a number that it cannot hold, whichever comes first. -/
theorem select_eq_error {s : Store} {q : Sql.Select} {f : StoreFault} :
    s.select q = .error f ↔
      (f = .unsupported ∧ q.isSupported .sqlite = false) ∨
      (f = .missingTable ∧ q.isSupported .sqlite = true ∧ s.isDropped = true) ∨
      (f = .oversized ∧ q.isSupported .sqlite = true ∧ s.isDropped = false ∧
        ∃ n, .integer n ∈ Sql.parametersOf (q.pieces .sqlite) ∧ fitsWord n = false) := by
  unfold select requireSupported Store.requireTable
  cases q.isSupported .sqlite with
  | false => simp [bind, Except.bind, @eq_comm _ f]
  | true =>
    cases s.isDropped with
    | true => simp [bind, Except.bind, @eq_comm _ f]
    | false =>
      have hbindable := @requireBindable_eq_error (Sql.parametersOf (q.pieces .sqlite)) f
      simp only [if_true, bind, Except.bind, Bool.false_eq_true, if_false, and_false, true_and,
        false_or, ← hbindable]
      cases requireBindable (Sql.parametersOf (q.pieces .sqlite)) with
      | error f' => simp
      | ok _ => simp [pure, Except.pure]

end Store

/-! ## 4. Listings -/

namespace Plan

/-- The literals that a plan sends: the operands of its filter, and the numbers of its page. -/
def literals (p : Plan) : List Literal :=
  p.filter.elim [] (Filter.sent p.table) ++ Store.windowLiterals p.window

/-- The statement of a plan has the literals of the plan for its parameters. -/
theorem parameters_of_select {p : Plan} {q : Sql.Select} (h : p.select = .ok q) :
    Sql.parametersOf (q.pieces .sqlite) = p.literals := by
  obtain ⟨c, ks, hc, -, rfl⟩ := select_eq_ok.mp h
  rw [Sql.Select.parameters, literals]
  unfold condition at hc
  cases hf : p.filter with
  | none =>
    rw [hf] at hc
    cases hc
    rfl
  | some f =>
    rw [hf] at hc
    dsimp only at hc
    split at hc
    · cases hc
    · next d hd =>
      cases hc
      simp [Filter.literals_of_compile f hd]

end Plan

namespace Service

variable {v : Service} {s : Store} {r : Request} {p : Plan}

/-- How a listing with a plan fails from outside the service. -/
inductive FailsOutside (v : Service) (s : Store) (p : Plan) : Prop where
  | oversized {q : Sql.Select} {n : Int} (hq : p.select = .ok q)
      (hsupported : q.isSupported .sqlite = true) (htable : s.isDropped = false)
      (hn : .integer n ∈ p.literals) (hlarge : fitsWord n = false)
  | unreadable {x : Store.Found} {row : Store.Row} {c : Column} (hx : v.found s p = .ok x)
      (hrow : row ∈ x.rows) (hc : c ∈ v.binding.listColumns)
      (hcell : ∀ value, Store.Codec.decode c.type (row.cell c) ≠ .ok value)
  | uncounted {x : Store.Found} {shown : List Value} (hx : v.found s p = .ok x)
      (hshown : v.showRows x.rows = .ok shown) (henabled : p.page.enabled = true)
      (hcount : ∀ pages, p.page.pageCount (if shown.isEmpty then 0 else x.total) ≠ .ok pages)

/-- What is found fails from outside only for a number that is too large. -/
theorem found_eq_error {ps : Params} (hp : v.plan ps = .ok p) {e : Problem}
    (h : v.found s p = .error e) :
    e.isOwn = true ∨ e = .overflow ∧ ∃ q n, p.select = .ok q ∧ q.isSupported .sqlite = true ∧
      s.isDropped = false ∧ .integer n ∈ p.literals ∧ fitsWord n = false := by
  unfold found at h
  rcases Outcome.bind_eq_error.mp h with h | ⟨q, hq, h⟩
  · obtain ⟨fault, hfault, rfl⟩ := Outcome.mapError_eq_error.mp h
    exact .inl (Plan.isOwn_of_select (plan_eq_ok.mp hp).2.2 hfault)
  · obtain ⟨fault, hfault, rfl⟩ := Outcome.mapError_eq_error.mp h
    have hselect := Outcome.mapError_eq_ok.mp hq
    rcases Store.select_eq_error.mp hfault with
      ⟨rfl, -⟩ | ⟨rfl, -⟩ | ⟨rfl, hsupported, htable, n, hn, hlarge⟩
    · exact .inl rfl
    · exact .inl rfl
    · rw [Plan.parameters_of_select hselect] at hn
      exact .inr ⟨rfl, q, n, hselect, hsupported, htable, hn, hlarge⟩

/-- Rows that cannot be shown fail from outside exactly if a cell cannot be read. -/
theorem showRows_eq_error {rows : List Store.Row} {e : Problem} (h : v.showRows rows = .error e) :
    e.isOwn = false ↔ ∃ row ∈ rows, ∃ c ∈ v.binding.listColumns,
      ∀ value, Store.Codec.decode c.type (row.cell c) ≠ .ok value := by
  rcases Outcome.bind_eq_error.mp h with h | ⟨read, hread, h⟩
  · obtain ⟨hown, hcell⟩ := Store.Row.exists_of_valuesOfAll h
    exact ⟨fun _ => hcell, fun _ => hown⟩
  · have hown := isOwn_of_presentAll h
    constructor
    · intro hforeign
      rw [hown] at hforeign
      cases hforeign
    · rintro ⟨row, hrow, c, hc, hcell⟩
      obtain ⟨value, hvalue⟩ := Store.Row.decode_of_valuesOfAll hread row hrow c hc
      exact absurd hvalue (hcell value)

theorem envelope_eq_error {page : PageSpec} {rows : List Value} {total : Nat} {e : Problem} :
    envelope page rows total = .error e ↔ e = .overflow ∧
      ∀ pages, page.pageCount (if rows.isEmpty then 0 else total) ≠ .ok pages := by
  unfold envelope PageSpec.envelope
  generalize (if rows.isEmpty then 0 else (total : Int)) = count
  cases hcount : page.pageCount count with
  | ok pages => simp [Except.mapError]
  | error fault =>
    have hfault : fault = .tooManyPages := by
      unfold PageSpec.pageCount at hcount
      split at hcount
      · cases hcount
      · split at hcount
        · cases hcount
        · cases hcount
          rfl
    subst hfault
    simp [Except.mapError, PageFault.problem, @eq_comm _ e]

/-- A listing with a plan is what is found, shown and counted. -/
theorem list_of_plan (hp : v.plan r.query = .ok p) :
    v.list s r = (do
      let x ← v.found s p
      let rows ← v.showRows x.rows
      if p.page.enabled then envelope p.page rows x.total else .ok (.list rows)) := by
  unfold list
  rw [hp]
  show (v.fetch s p >>= _) = _
  unfold fetch found showRows
  cases hq : p.select with
  | error e => rfl
  | ok q =>
    have hcolumns : q.columns = v.binding.listColumns := by
      obtain ⟨c, ks, -, -, rfl⟩ := Plan.select_eq_ok.mp hq
      obtain ⟨f, order, page, -, -, -, rfl⟩ := Plan.build_eq_ok.mp (plan_eq_ok.mp hp).2.2
      rfl
    cases hx : s.select q with
    | error e => simp [hx, bind, Except.bind, Except.mapError]
    | ok x =>
      simp only [Except.mapError, bind, Except.bind, hx, hcolumns]
      cases Store.Row.valuesOfAll v.binding.listColumns x.rows with
      | error e => rfl
      | ok read => rfl

theorem list_eq_error (hp : v.plan r.query = .ok p) {e : Problem} :
    v.list s r = .error e ↔ v.found s p = .error e ∨ ∃ x, v.found s p = .ok x ∧
      (v.showRows x.rows = .error e ∨ ∃ shown, v.showRows x.rows = .ok shown ∧
        p.page.enabled = true ∧ envelope p.page shown x.total = .error e) := by
  have hpaged : ∀ shown x, (if p.page.enabled then envelope p.page shown x else .ok (.list shown))
      = .error e ↔ p.page.enabled = true ∧ envelope p.page shown x = .error e := by
    intro shown x
    split <;> simp_all
  rw [list_of_plan hp]
  simp only [Outcome.bind_eq_error, hpaged]

/-- **What comes through from outside.** A listing with a plan fails with a problem that is not one
of the service exactly if the plan sends a number that is too large, or finds a cell that cannot be
read, or finds rows whose pages cannot be counted. -/
theorem list_fails_outside (hp : v.plan r.query = .ok p) :
    (∃ e, v.list s r = .error e ∧ e.isOwn = false) ↔ v.FailsOutside s p := by
  simp only [list_eq_error hp]
  constructor
  · rintro ⟨e, hfound | ⟨x, hx, hshown | ⟨shown, hshown, henabled, hcount⟩⟩, hforeign⟩
    · rcases found_eq_error hp hfound with hown | ⟨-, q, n, hq, hsupported, htable, hn, hlarge⟩
      · rw [hown] at hforeign
        cases hforeign
      · exact .oversized hq hsupported htable hn hlarge
    · obtain ⟨row, hrow, c, hc, hcell⟩ := (showRows_eq_error hshown).mp hforeign
      exact .unreadable hx hrow hc hcell
    · exact .uncounted hx hshown henabled (envelope_eq_error.mp hcount).2
  · intro h
    cases h with
    | @oversized q n hq hsupported htable hn hlarge =>
      have hselect : s.select q = .error .oversized := by
        apply Store.select_eq_error.mpr
        rw [Plan.parameters_of_select hq]
        exact .inr (.inr ⟨rfl, hsupported, htable, n, hn, hlarge⟩)
      refine ⟨.overflow, .inl ?_, rfl⟩
      unfold found
      rw [hq]
      exact Outcome.mapError_eq_error.mpr ⟨_, hselect, rfl⟩
    | @unreadable x row c hx hrow hc hcell =>
      cases hshown : v.showRows x.rows with
      | error e => exact ⟨e, .inr ⟨x, hx, .inl hshown⟩,
          (showRows_eq_error hshown).mpr ⟨row, hrow, c, hc, hcell⟩⟩
      | ok shown =>
        obtain ⟨read, hread, -⟩ := Outcome.bind_eq_ok.mp hshown
        obtain ⟨value, hvalue⟩ := Store.Row.decode_of_valuesOfAll hread row hrow c hc
        exact absurd hvalue (hcell value)
    | @uncounted x shown hx hshown henabled hcount =>
      exact ⟨.overflow, .inr ⟨x, hx, .inr ⟨shown, hshown, henabled,
        envelope_eq_error.mpr ⟨rfl, hcount⟩⟩⟩, rfl⟩

/-- A table of numbered labels. -/
def labels : Table where
  name := ['n']
  columns := [
    ⟨['i', 'd'], .integer, true, false, none, none, none, false⟩,
    ⟨['t'], .text, false, true, none, none, none, false⟩]

/-- Labels may be filtered by their number. -/
def labelOptions : BindingOptions where
  filterable := some [['i', 'd']]

/-- A service of labels. -/
def labelService : Service where
  binding := .ofOptions labels labelOptions

/-- The store with one label. -/
def labelStore : Store := .ofRows labels [⟨1, [(['i', 'd'], .integer 1), (['t'], .text ['a'])]⟩]

/-- A request for the labels with a number, which is written as given. -/
def labelsNumbered (number : Text) : Request where
  query := [(['i', 'd'], .one (.text number))]
  path := []
  body := .null

/-- A number of twenty nines, which 64 bits do not hold. -/
def twentyNines : Text := List.replicate 20 '9'

/-- **The failure of a statement need not be told as one of the store.** Of a number beyond 64 bits
it is not, although the query language takes it. -/
theorem large_operand_comes_through :
    Binding.create labels .standard labelOptions = .ok labelService.binding ∧
      (∃ p, labelService.plan (labelsNumbered twentyNines).query = .ok p) ∧
      labelService.list labelStore (labelsNumbered twentyNines) = .error .overflow ∧
      Problem.overflow.isOwn = false :=
  ⟨rfl, ⟨_, rfl⟩, rfl, rfl⟩

/-- A number of twenty digits is too large, and a number of one is not. -/
theorem list_fails_outside_labels :
    (∃ p, labelService.plan (labelsNumbered twentyNines).query = .ok p ∧
      labelService.FailsOutside labelStore p ∧
      ∃ e, labelService.list labelStore (labelsNumbered twentyNines) = .error e ∧
        e.isOwn = false) ∧
    ∃ p, labelService.plan (labelsNumbered ['1']).query = .ok p ∧
      ¬ labelService.FailsOutside labelStore p := by
  constructor
  · have hfails : ∃ e, labelService.list labelStore (labelsNumbered twentyNines) = .error e ∧
        e.isOwn = false := ⟨.overflow, rfl, rfl⟩
    exact ⟨_, rfl, (list_fails_outside rfl).mp hfails, hfails⟩
  · refine ⟨_, rfl, ?_⟩
    intro hfails
    obtain ⟨e, he, -⟩ := (list_fails_outside (r := labelsNumbered ['1']) rfl).mpr hfails
    cases he

end Service
end TableService
