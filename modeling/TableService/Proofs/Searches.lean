import TableService.Proofs.Patterns
import TableService.Proofs.ReadBack
import TableService.Proofs.Registration

/-!
# What a search finds

A search is a query of its own, beside the one for a listing. It has the default order of the
resource and a cap on the rows that it answers, and it tests every searchable field with one
pattern.

> A search answers, in the default order and up to the cap, **the rows with a searchable field whose
> text contains the query**, in either case.

Null has no text, so nothing is found in it. Numbers have the text that the store writes for them.

The cap is sent with the statement, like every number, and so **a cap that 64 bits do not hold is
none that a search can have**: the statement fails before it finds anything. This is the one thing
about a cap that the store does not take as it stands.
-/

namespace TableService

/-! ## 1. The cells that contain a text -/

namespace Store

/-- Whether a cell has a text that contains another one, letters of the ASCII alphabet in either
case. -/
def Cell.contains (q : Text) (x : Cell) : Bool :=
  match x.toText? with
  | none => false
  | some t => decide (Text.asciiLower q <:+: Text.asciiLower t)

theorem Cell.contains_iff {q : Text} {x : Cell} :
    x.contains q = true ↔
      ∃ t, x.toText? = some t ∧
        ∃ front back, Text.asciiLower t = front ++ Text.asciiLower q ++ back := by
  unfold contains
  cases x.toText? with
  | none => simp
  | some t =>
    rw [decide_eq_true_iff]
    constructor
    · rintro ⟨front, back, h⟩
      exact ⟨t, rfl, front, back, h.symm⟩
    · rintro ⟨_, ⟨rfl⟩, front, back, h⟩
      exact ⟨front, back, h.symm⟩

/-- Whether a cell has no NUL in its text, where a text would end for a pattern. The text of an
integer has none. -/
def Cell.IsWhole : Cell → Prop
  | .text t => '\x00' ∉ t
  | .real x => '\x00' ∉ Numeral.text x
  | _ => True

theorem not_mem_intText (n : Int) : '\x00' ∉ intText n := by
  have hdigits : ∀ m : Nat, '\x00' ∉ natText m := fun m hm =>
    absurd (Nat.isDigit_of_mem_toDigits (by decide) (by decide) hm) (by decide)
  unfold intText
  split
  · simpa using hdigits n.natAbs
  · exact hdigits n.natAbs

theorem Cell.IsWhole.not_mem {x : Cell} (h : x.IsWhole) {t : Text} (ht : x.toText? = some t) :
    '\x00' ∉ t := by
  cases x with
  | null => cases ht
  | integer n =>
    cases ht
    exact not_mem_intText n
  | real y =>
    cases ht
    exact h
  | text u =>
    cases ht
    exact h

/-- A cell matches the pattern of a query exactly if it contains the query. -/
theorem Cell.like_containing {q : Text} (hq : '\x00' ∉ q) {x : Cell} (hx : x.IsWhole) :
    Cell.like (some '\\') (.text (SearchBackend.containing q)) x = x.contains q := by
  unfold Cell.like Cell.contains
  cases ht : x.toText? with
  | none => rfl
  | some t =>
    rw [Bool.eq_iff_iff, decide_eq_true_iff]
    exact Pattern.like_containing_iff hq (hx.not_mem ht)

/-! ## 2. The search of the store -/

/-- The first rows up to a cap; all of them if there is none. -/
def firstOf (cap : Option Int) (rows : List Row) : List Row :=
  match cap with
  | none => rows
  | some n => rows.take n.toNat

/-- Whether a row has one of several columns that contains a text. -/
def Row.contains (fields : List Column) (q : Text) (r : Row) : Bool :=
  fields.any fun c => (r.cell c).contains q

variable {s : Store} {columns fields : List Column} {order : List Sql.SortKey} {cap : Option Int}
  {q : Text}

theorem filter_anyMatches {rows : List Row} (hq : '\x00' ∉ q)
    (hcells : ∀ row ∈ rows, ∀ c ∈ fields, (row.cell c).IsWhole) :
    rows.filter (anyMatches fields (SearchBackend.containing q))
      = rows.filter (Row.contains fields q) := by
  refine List.filter_congr fun row hrow => ?_
  unfold anyMatches Row.contains
  rw [Bool.eq_iff_iff, List.any_eq_true, List.any_eq_true]
  refine exists_congr fun c => and_congr_right fun hc => ?_
  rw [Cell.like_containing hq (hcells row hrow c hc)]

theorem fitsWord_iff {n : Int} : fitsWord n = true ↔ -2 ^ 63 ≤ n ∧ n < 2 ^ 63 := by
  rw [fitsWord, Bool.and_eq_true, decide_eq_true_iff, decide_eq_true_iff]
  exact Iff.rfl

theorem cutWindow_firstOf (hcap : ∀ n, cap = some n → 0 ≤ n) (rows : List Row) :
    cutWindow (cap.map fun n => (n, 0)) rows = firstOf cap rows := by
  cases cap with
  | none => rfl
  | some n =>
    have hn := hcap n rfl
    show (if n < 0 then _ else _) = _
    rw [if_neg (by omega)]
    rfl

/-- The rows of the store, as a search for a text comes by them. -/
def metBySearch (s : Store) (columns fields : List Column) (order : List Sql.SortKey) (q : Text) :
    List Row :=
  (s.scanned ⟨columns, .pattern fields (SearchBackend.containing q), order⟩).rows

theorem metBySearch_perm (s : Store) (columns fields : List Column) (order : List Sql.SortKey)
    (q : Text) : (s.metBySearch columns fields order q).Perm s.rows := s.scanned_perm _

/-- **The store finds the rows that contain the query**, sorted and up to the cap. -/
theorem search_containing (htable : s.isDropped = false) (hq : '\x00' ∉ q)
    (hcells : ∀ row ∈ s.rows, ∀ c ∈ fields, (row.cell c).IsWhole)
    (hcap : ∀ n, cap = some n → 0 ≤ n) (hfits : ∀ n, cap = some n → n < 2 ^ 63) :
    ∃ found, s.search columns fields (SearchBackend.containing q) order cap = .ok found
      ∧ found.rows = firstOf cap
        (sortRows order
          ((s.metBySearch columns fields order q).filter (Row.contains fields q))) := by
  have hbindable : requireBindable (windowLiterals (cap.map fun n => (n, 0))) = .ok () := by
    cases cap with
    | none => rfl
    | some n =>
      have hlow := hcap n rfl
      have hhigh := hfits n rfl
      rw [requireBindable_eq_ok]
      simp only [Option.map_some, windowLiterals, List.forall_mem_cons, List.not_mem_nil,
        IsEmpty.forall_iff, implies_true, and_true, bindable, fitsWord_iff]
      omega
  let met := s.scanned ⟨columns, .pattern fields (SearchBackend.containing q), order⟩
  refine ⟨met.find (anyMatches fields (SearchBackend.containing q)) order
    (cap.map fun n => (n, 0)), ?_, ?_⟩
  · unfold search
    dsimp only
    rw [requireTable_eq_ok.mpr htable, hbindable]
    rfl
  · show cutWindow _ (sortRows order ((s.metBySearch columns fields order q).filter _)) = _
    rw [filter_anyMatches hq fun row hrow => hcells row ((metBySearch_perm ..).mem_iff.mp hrow),
      cutWindow_firstOf hcap]

/-- With a cap of more than 64 bits the store finds nothing. -/
theorem search_oversized (htable : s.isDropped = false) {n : Int} (hn : 2 ^ 63 ≤ n)
    (pattern : Text) : s.search columns fields pattern order (some n) = .error .oversized := by
  have hlarge : requireBindable (windowLiterals (some (n, 0))) = .error .oversized := by
    unfold requireBindable
    rw [if_neg]
    simp only [windowLiterals, List.all_cons, bindable, Bool.and_eq_true, fitsWord_iff]
    omega
  unfold search
  dsimp only [Option.map_some]
  rw [requireTable_eq_ok.mpr htable, hlarge]
  rfl

end Store

/-! ## 3. The search of a service -/

/-- The columns that a resource is searched in. -/
def Binding.searchColumns (b : Binding) : List Column :=
  b.searchable.filterMap b.table.column?

/-- In a binding that was made, every searchable field is a column. -/
theorem Binding.searchColumns_names {table : Table} {settings : Settings} {o : BindingOptions}
    {b : Binding} (hb : create table settings o = .ok b) :
    b.searchColumns.map Column.name = b.searchable := by
  have hmade := made_of_create hb
  have hcolumns := column_of_checkFields hmade.searchable
  unfold searchColumns
  rw [hmade.table_eq]
  generalize b.searchable = names at hcolumns
  induction names with
  | nil => rfl
  | cons name names ih =>
    obtain ⟨hname, hnames⟩ := List.forall_mem_cons.mp hcolumns
    obtain ⟨c, hc⟩ := Option.isSome_iff_exists.mp hname
    rw [List.filterMap_cons_some hc, List.map_cons, ih hnames, Table.name_of_column? hc]

namespace SearchBackend

variable {b : Binding} {cap : Option Int} {columns : List Column} {s : Store} {q : Text}

/-- Where something is searchable, the store is asked once there is an order. -/
theorem findPattern_eq {order : List Sql.SortKey}
    (horder : Sql.compileOrder b.table (b.defaultOrdering.getD []) = .ok order)
    (hsomewhere : b.searchColumns ≠ []) :
    findPattern b cap (.ok columns) s q = (do
      let found ← (s.search columns b.searchColumns (containing q) order cap).mapError
        (·.problem "select" b.table)
      Store.Row.valuesOfAll columns found.rows) := by
  obtain ⟨c, fields, hfields⟩ := List.exists_cons_of_ne_nil hsomewhere
  unfold findPattern
  rw [show b.searchable.filterMap b.table.column? = c :: fields from hfields, hfields, horder]
  rfl

theorem findPattern_unordered {e : QueryFault}
    (horder : Sql.compileOrder b.table (b.defaultOrdering.getD []) = .error e)
    (hsomewhere : b.searchColumns ≠ []) :
    findPattern b cap (.ok columns) s q = .error e.problem := by
  obtain ⟨c, fields, hfields⟩ := List.exists_cons_of_ne_nil hsomewhere
  unfold findPattern
  rw [show b.searchable.filterMap b.table.column? = c :: fields from hfields, horder]
  rfl

end SearchBackend

namespace Service

open Store

variable {v : Service} {s : Store} {r : Request} {cap : Option Int} {q : Text}

/-- The rows of a store that contain a text in a field that the resource is searched in. -/
def hits (v : Service) (s : Store) (q : Text) : List Row :=
  s.rows.filter (Row.contains v.binding.searchColumns q)

/-- These rows as a search under sort keys comes by them. -/
def metHits (v : Service) (s : Store) (order : List Sql.SortKey) (q : Text) : List Row :=
  (s.metBySearch v.binding.listColumns v.binding.searchColumns order q).filter
    (Row.contains v.binding.searchColumns q)

theorem metHits_perm (v : Service) (s : Store) (order : List Sql.SortKey) (q : Text) :
    (v.metHits s order q).Perm (v.hits s q) := (s.metBySearch_perm ..).filter _

section

variable (hselect : v.listSelection = .ok v.binding.listColumns) (hsearch : v.search = .pattern cap)
  (hsent : r.query.single Params.searchKey = .ok (some (.text q))) (hq : q ≠ [])
include hselect hsearch hsent hq

/-- A search for a text is the search for its pattern. -/
theorem searchRows_eq : v.searchRows s r = (do
    let rows ← SearchBackend.findPattern v.binding cap (.ok v.binding.listColumns) s q
    return .list (← presentAll v.binding.schemas.list rows)) := by
  unfold searchRows
  rw [hsent, hsearch, hselect]
  cases q with
  | nil => exact absurd rfl hq
  | cons c q => rfl

/-- Where nothing is searchable, nothing is found. -/
theorem searchRows_nowhere (hnowhere : v.binding.searchColumns = []) :
    v.searchRows s r = .ok (.list []) := by
  rw [searchRows_eq hselect hsearch hsent hq]
  unfold SearchBackend.findPattern
  rw [show v.binding.searchable.filterMap v.binding.table.column? = [] from hnowhere]
  rfl

variable {order : List Sql.SortKey}
  (horder : Sql.compileOrder v.binding.table (v.binding.defaultOrdering.getD []) = .ok order)
include horder

/-- Otherwise the rows that the store finds are answered one by one. -/
theorem searchRows_somewhere (hsomewhere : v.binding.searchColumns ≠ []) :
    v.searchRows s r = (do
      let found ← (s.search v.binding.listColumns v.binding.searchColumns
        (SearchBackend.containing q) order cap).mapError (·.problem "select" v.binding.table)
      return .list (← v.showRows found.rows)) := by
  rw [searchRows_eq hselect hsearch hsent hq, SearchBackend.findPattern_eq horder hsomewhere]
  unfold showRows
  cases s.search v.binding.listColumns v.binding.searchColumns (SearchBackend.containing q) order
    cap with
  | error e => rfl
  | ok found =>
    exact (bind_assoc (Row.valuesOfAll v.binding.listColumns found.rows)
      (presentAll v.binding.schemas.list) (fun shown => pure (Value.list shown))).symm

end

/-- **A search answers the rows with a searchable field that contains the query**, in the default
order and up to the cap, for every cap that the store can be sent. With a larger one it fails. Rows
with equal keys are answered as the store came by them. -/
theorem searchRows_answers {table : Table} {settings : Settings} {o : BindingOptions}
    (hb : Binding.create table settings o = .ok v.binding)
    (hselect : v.listSelection = .ok v.binding.listColumns)
    (hsearch : v.search = .pattern cap) (hcap : ∀ n, cap = some n → 0 ≤ n)
    (hsent : r.query.single Params.searchKey = .ok (some (.text q))) (hq : q ≠ [])
    (hwhole : '\x00' ∉ q) (htable : s.isDropped = false)
    (hcells : ∀ row ∈ s.rows, ∀ c ∈ v.binding.searchColumns, (row.cell c).IsWhole) :
    v.binding.searchColumns.map Column.name = v.binding.searchable
      ∧ (∀ {c d : Char}, SearchBackend.isSpecial c = true → (d.toLower = c.toLower ↔ d = c))
      ∧ ((∀ c ∈ table.columns, Text.IsPlainName c.name) →
          ∃ order, Sql.compileOrder v.binding.table (v.binding.defaultOrdering.getD []) = .ok order)
      ∧ (∀ e, Sql.compileOrder v.binding.table (v.binding.defaultOrdering.getD []) = .error e →
          v.binding.searchable ≠ [] → v.searchRows s r = .error e.problem)
      ∧ ∀ order, Sql.compileOrder v.binding.table (v.binding.defaultOrdering.getD []) = .ok order →
          (sortRows order (v.metHits s order q)).Perm (v.hits s q)
          ∧ (sortRows order (v.metHits s order q)).Pairwise (fun a b => mayPrecede order a b = true)
          ∧ ((∀ n, cap = some n → n < 2 ^ 63) →
              v.searchRows s r
                = (v.showRows (firstOf cap (sortRows order (v.metHits s order q)))).map .list)
          ∧ ∀ n, cap = some n → 2 ^ 63 ≤ n → v.binding.searchable ≠ [] →
              v.searchRows s r = .error .overflow := by
  have hmade := Binding.made_of_create hb
  have hnames := Binding.searchColumns_names hb
  have hsomewhere : v.binding.searchable ≠ [] → v.binding.searchColumns ≠ [] :=
    fun hsome hnil => hsome (by rw [← hnames, hnil]; rfl)
  refine ⟨hnames, Pattern.toLower_eq_of_isSpecial, fun hplain => ?_, fun e he hsome => ?_,
    fun order horder => ⟨(sortRows_perm order _).trans (v.metHits_perm s order q),
      pairwise_sortRows order _, fun hfits => ?_, fun n hn hlarge hsome => ?_⟩⟩
  · rw [hmade.table_eq]
    exact Sql.compileOrder_of_columns (Binding.column_of_chooseOrdering hplain hmade.ordering)
  · rw [searchRows_eq hselect hsearch hsent hq,
      SearchBackend.findPattern_unordered he (hsomewhere hsome)]
    rfl
  · by_cases hnowhere : v.binding.searchColumns = []
    · have hnone : v.metHits s order q = [] :=
        List.filter_eq_nil_iff.mpr fun row _ => by simp [Row.contains, hnowhere]
      have hempty : firstOf cap (sortRows order []) = [] := by
        rw [List.Perm.eq_nil (sortRows_perm order [])]
        cases cap with
        | none => rfl
        | some n => exact List.take_nil
      rw [searchRows_nowhere hselect hsearch hsent hq hnowhere, hnone, hempty]
      rfl
    · obtain ⟨found, hfound, hrows⟩ := search_containing htable hwhole hcells hcap hfits
      rw [searchRows_somewhere hselect hsearch hsent hq horder hnowhere, hfound]
      show (v.showRows found.rows >>= fun shown => pure (Value.list shown)) = _
      rw [hrows]
      rfl
  · rw [searchRows_somewhere hselect hsearch hsent hq horder (hsomewhere hsome), hn,
      search_oversized htable hlarge]
    rfl

/-- A table of recipes. -/
def recipes : Table where
  name := ['r']
  columns := [
    ⟨['i', 'd'], .integer, true, false, none, none, none, false⟩,
    ⟨['t'], .text, false, true, none, none, none, false⟩]

/-- Recipes are searched in their text. -/
def recipeOptions : BindingOptions where
  searchable := some [['t']]

def recipeService (cap : Option Int) : Service where
  binding := .ofOptions recipes recipeOptions
  search := .pattern cap

/-- A recipe as it is stored. -/
def storedRecipe (id : Int) (t : Cell) : Row := ⟨id, [(['i', 'd'], .integer id), (['t'], t)]⟩

/-- A recipe as it is answered. -/
def shownRecipe (id : Int) (t : Text) : Value :=
  .object [(['i', 'd'], .integer id), (['t'], .text t)]

/-- Four recipes, of which two contain the same characters around a percent sign. -/
def recipeStore : Store := .ofRows recipes
  [storedRecipe 1 (.text ['a', 'x', 'b']), storedRecipe 2 .null,
    storedRecipe 3 (.text ['-', 'A', '%', 'b']), storedRecipe 4 (.text ['a', '%', 'B', '!'])]

/-- A search for a text. -/
def searchFor (q : Text) : Request := ⟨[(Params.searchKey, .one (.text q))], [], .null⟩

theorem searchRows_answers_recipe :
    Binding.create recipes .standard recipeOptions = .ok (recipeService (some 1)).binding
      ∧ (recipeService (some 1)).searchRows recipeStore (searchFor ['a', '%', 'b'])
        = .ok (.list [shownRecipe 3 ['-', 'A', '%', 'b']]) := by
  have hb : Binding.create recipes .standard recipeOptions
      = .ok (recipeService (some 1)).binding := rfl
  have hcells : ∀ row ∈ recipeStore.rows,
      ∀ c ∈ (recipeService (some 1)).binding.searchColumns, (row.cell c).IsWhole := by
    intro row hrow c hc
    obtain rfl := List.mem_singleton.mp hc
    simp only [recipeStore, ofRows, List.mem_cons, List.not_mem_nil, or_false] at hrow
    rcases hrow with rfl | rfl | rfl | rfl
    · exact (by decide : '\x00' ∉ ['a', 'x', 'b'])
    · trivial
    · exact (by decide : '\x00' ∉ ['-', 'A', '%', 'b'])
    · exact (by decide : '\x00' ∉ ['a', '%', 'B', '!'])
  obtain ⟨-, -, -, -, hanswers⟩ := searchRows_answers hb rfl rfl (fun n hn => by cases hn; decide)
    (show (searchFor ['a', '%', 'b']).query.single Params.searchKey
      = .ok (some (.text ['a', '%', 'b'])) from rfl) (by decide) (by decide)
    (show recipeStore.isDropped = false from rfl) hcells
  obtain ⟨-, -, hanswer, -⟩ := hanswers [] rfl
  exact ⟨hb, hanswer fun n hn => by cases hn; decide⟩

/-- A cap of more than 64 bits leaves nothing to be found, although one row contains the query. -/
theorem large_cap_fails :
    Binding.create recipes .standard recipeOptions = .ok (recipeService (some (2 ^ 63))).binding
      ∧ (recipeService (some (2 ^ 63))).hits recipeStore ['X']
        = [storedRecipe 1 (.text ['a', 'x', 'b'])]
      ∧ (recipeService (some (2 ^ 63))).searchRows recipeStore (searchFor ['X'])
        = .error .overflow :=
  ⟨rfl, rfl, rfl⟩

end Service
end TableService
