import TableService.Proofs.Bindings
import TableService.Proofs.FilterSources
import TableService.Proofs.GeneratedSchemas
import TableService.Proofs.Listings
import TableService.Proofs.PageCount

/-!
# Pages tile a listing

Take a listing that is paged when a page is asked for, and ask for its pages one after the other.
Then

> **the pages, put together, are the listing**, no row lost, repeated or moved; each of them reports
> the number of all rows and the number of pages; and what comes after the last page is empty, and
> reports no rows and no pages.

A page differs from the listing in its window only: the page and the size are no part of the filter
or the order, so that the statement finds the same rows in the same order, and cuts a window out of
them. Windows of one size that follow each other tile any list. The last of them may be shorter, but
none is empty, and so each reports a count; it is the number of pages, an exact quotient rounded up,
that says how many there are.
-/

namespace TableService

/-! ## 1. Tiles of a list -/

section Tiles

variable {α : Type} {size : Nat} {xs : List α}

/-- The pieces of a list, all of one size but the last. -/
def tiles (size : Nat) (xs : List α) : List (List α) :=
  (List.range ⌈(xs.length : ℚ) / size⌉₊).map fun i => (xs.drop (i * size)).take size

theorem flatten_map_range (size : Nat) (xs : List α) (n : Nat) :
    ((List.range n).map fun i => (xs.drop (i * size)).take size).flatten = xs.take (n * size) := by
  induction n with
  | zero => simp
  | succ n ih =>
    rw [List.range_succ, List.map_append, List.flatten_append, ih, Nat.succ_mul, List.take_add]
    simp

theorem flatten_tiles (hsize : 0 < size) (xs : List α) : (tiles size xs).flatten = xs := by
  rw [tiles, flatten_map_range]
  refine List.take_of_length_le ?_
  have hsize : (0 : ℚ) < size := by exact_mod_cast hsize
  have hceil := Nat.le_ceil ((xs.length : ℚ) / size)
  rw [div_le_iff₀ hsize] at hceil
  exact_mod_cast hceil

theorem length_tiles (size : Nat) (xs : List α) :
    (tiles size xs).length = ⌈(xs.length : ℚ) / size⌉₊ := by
  rw [tiles, List.length_map, List.length_range]

theorem lt_length_tiles_iff (hsize : 0 < size) {i : Nat} :
    i < (tiles size xs).length ↔ i * size < xs.length := by
  have hsize : (0 : ℚ) < size := by exact_mod_cast hsize
  rw [length_tiles, Nat.lt_ceil, lt_div_iff₀ hsize]
  exact_mod_cast Iff.rfl

theorem getElem?_tiles {i : Nat} {part : List α} (h : (tiles size xs)[i]? = some part) :
    (xs.drop (i * size)).take size = part := by
  rw [tiles, List.getElem?_map] at h
  obtain ⟨j, hj, rfl⟩ := Option.map_eq_some_iff.mp h
  obtain ⟨-, rfl⟩ := List.getElem?_eq_some_iff.mp hj
  rw [List.getElem_range]

end Tiles

/-! ## 2. What a page leaves as it is -/

/-- Whether a request asks for a page of what another asks for: it is the same but for page and
size, which were sent as given. -/
structure Request.AsksPage (asked plain : Request) (page size : RawNumber) : Prop where
  rest : asked.query.filter (fun e => e.1 ∉ [Params.pageKey, Params.sizeKey]) = plain.query
  page : Plan.rawNumber asked.query Params.pageKey = .ok page
  size : Plan.rawNumber asked.query Params.sizeKey = .ok size

namespace Request.AsksPage

variable {asked plain : Request} {page size : RawNumber} {key : Text}

theorem lookup_eq (h : asked.AsksPage plain page size)
    (hkey : key ∉ [Params.pageKey, Params.sizeKey]) :
    plain.query.lookup key = asked.query.lookup key := by
  rw [← h.rest]
  exact lookup_filter (q := fun key => decide (key ∉ [Params.pageKey, Params.sizeKey]))
    (by simpa using hkey)

/-- Page and size are no source of a filter. -/
theorem sources_eq (h : asked.AsksPage plain page size) :
    Filter.sources plain.query = Filter.sources asked.query := by
  have hfields : plain.query.filter (fun e => e.1 ∉ Params.reserved)
      = asked.query.filter fun e => e.1 ∉ Params.reserved := by
    rw [← h.rest, List.filter_filter]
    refine List.filter_congr fun e _ => ?_
    rw [Bool.and_eq_left_iff_imp]
    intro he
    simp only [Params.reserved, List.mem_append, List.mem_cons, decide_eq_true_eq] at he ⊢
    tauto
  have hgroups : ∀ kind : Connective,
      Filter.groupTexts kind plain.query = Filter.groupTexts kind asked.query := fun kind => by
    rw [Filter.groupTexts, Filter.groupTexts, h.lookup_eq (by cases kind <;> decide)]
  simp only [Filter.sources, Filter.fieldSources, Filter.groupSources, hfields, hgroups]

theorem filterOf_eq_ok (h : asked.AsksPage plain page size) {fields : List Text}
    {f : Option Filter} :
    Plan.filterOf fields asked.query = .ok f ↔ Plan.filterOf fields plain.query = .ok f := by
  unfold Plan.filterOf
  split
  · exact Iff.rfl
  · rw [Filter.parse_eq_ok, Filter.parse_eq_ok, h.sources_eq]

theorem ofRequest_eq (h : asked.AsksPage plain page size) (allowed : List Text) :
    Ordering.ofRequest allowed asked.query = Ordering.ofRequest allowed plain.query := by
  rw [Ordering.ofRequest, Ordering.ofRequest, Params.single, Params.single,
    h.lookup_eq (by decide)]

end Request.AsksPage

/-! ## 3. The window of a page -/

/-- A page that is asked for in a listing that can be paged, of a positive size. -/
theorem PageSpec.resolve_auto {page size : RawNumber} {configured bound k n : Int}
    (hpage : page.read Params.pageKey = .ok (some k))
    (hsize : size.read Params.sizeKey = .ok (some n)) (hk : 1 ≤ k) (hn : 1 ≤ n)
    (hbound : 1 ≤ bound) :
    resolve .auto configured page size (some bound)
      = .ok ⟨true, k, min n bound, page == .flag true, size == .flag true⟩ := by
  have henabled : isEnabled .auto page = true := by
    cases page with
    | absent => cases hpage
    | _ => rfl
  have hchosen : chooseSize configured (some n) (some bound) = min n bound := by
    unfold chooseSize
    dsimp only
    rw [if_neg (by omega), if_neg (by omega)]
  unfold resolve
  rw [if_pos henabled, hpage, hsize]
  dsimp only
  rw [if_pos (by omega), hchosen, make, if_neg (by omega)]
  rfl

/-- A size that was loaded is positive. -/
theorem Settings.one_le_of_choose {standard n : Int} {given : Option Value}
    (hstandard : 1 ≤ standard) (h : choose toSize standard given = .ok n) : 1 ≤ n := by
  unfold choose at h
  split at h
  · cases h
    exact hstandard
  · unfold toSize at h
    split at h
    · cases h
    · split at h
      · cases h
      · next hn =>
        cases h
        exact not_lt.mp hn

/-- **Every binding that is made under loaded settings bounds page sizes by a positive one.** -/
theorem Binding.one_le_maxPageSize {env : List (Text × Text)} {args : List (Text × Value)}
    {settings : Settings} {table : Table} {o : BindingOptions} {b : Binding}
    (hsettings : Settings.load env args = .ok settings) (hb : create table settings o = .ok b) :
    1 ≤ b.maxPageSize := by
  rw [(made_of_create hb).bound]
  unfold Settings.load at hsettings
  dsimp only at hsettings
  split at hsettings
  · next hbound _ _ _ =>
    cases hsettings
    exact Settings.one_le_of_choose (by decide) hbound
  · cases hsettings

namespace Service

open Store

variable {v : Service} {s : Store} {plain : Request}

/-- With a page, a plan finds its part of the rows that it finds without, and the number of all of
them. -/
theorem found_page {p : Plan} {x : Found} {page : PageSpec} (hp : p.page.enabled = false)
    (hx : v.found s p = .ok x) (hpage : page.enabled = true) (hsize : 1 ≤ page.size)
    (hlimit : page.size < 2 ^ 63) (hoffset : 0 ≤ page.offset) (hoffset' : page.offset < 2 ^ 63) :
    v.found s { p with page := page } = .ok
      ⟨(x.rows.drop page.offset.toNat).take page.size.toNat, x.rows.length⟩ := by
  obtain ⟨c, ks, hc, hks, hcarries, -, hpresent, rfl⟩ := found_eq_ok.mp hx
  have hwindow : Plan.window { p with page := page } = some (page.size, page.offset) :=
    if_pos hpage
  have hfits : ∀ n : Int, 0 ≤ n → n < 2 ^ 63 → bindable (.integer n) = true := fun n hn hn' => by
    rw [bindable, fitsWord, wordEnd, Bool.and_eq_true, decide_eq_true_iff, decide_eq_true_iff]
    omega
  refine found_eq_ok.mpr ⟨c, ks, hc, hks, hcarries, ?_, hpresent, ?_⟩
  · rw [hwindow]
    simp only [windowLiterals, List.forall_mem_cons, List.not_mem_nil, IsEmpty.forall_iff,
      implies_true, and_true]
    exact ⟨hfits _ (by omega) hlimit, hfits _ hoffset hoffset'⟩
  · rw [hwindow, Plan.window_eq_none hp]
    simp only [find, cutWindow]
    rw [if_neg (by omega)]

/-- A page as it is answered. -/
def pageObject (count : Nat) (page size : Value) (pages : Int) (rows : List Value) : Value :=
  .object [
    (['c', 'o', 'u', 'n', 't'], .integer count),
    (['p', 'a', 'g', 'e'], page),
    (['s', 'i', 'z', 'e'], size),
    (['p', 'a', 'g', 'e', '_', 'c', 'o', 'u', 'n', 't'], .integer pages),
    (['r', 'e', 's', 'u', 'l', 't', 's'], .list rows)]

/-- A page of a listing is answered with its part of the rows. All rows are counted, unless the part
is empty. -/
theorem list_page {asked : Request} {page size : RawNumber} {p : PageSpec}
    {shown part : List Value} (hauto : v.binding.pagination = .auto)
    (hshown : v.list s plain = .ok (.list shown)) (hrows : shown.length ≤ 2 ^ 53)
    (hasked : asked.AsksPage plain page size)
    (hp : PageSpec.resolve .auto v.binding.pageSize page size (some v.binding.maxPageSize) = .ok p)
    (henabled : p.enabled = true) (hsize : 1 ≤ p.size) (hlimit : p.size < 2 ^ 63)
    (hoffset : 0 ≤ p.offset) (hoffset' : p.offset < 2 ^ 63)
    (hpart : (shown.drop p.offset.toNat).take p.size.toNat = part) {count : Nat}
    (hcount : (if part.isEmpty then 0 else shown.length) = count) :
    v.list s asked
      = .ok (pageObject count p.pageShown p.sizeShown ⌈(count : ℚ) / p.size⌉ part) := by
  obtain ⟨q, x, hq, hunpaged, hx, hall⟩ := list_eq_ok_list.mp hshown
  obtain ⟨hplanned, hcolumns, hbuild⟩ := plan_eq_ok.mp hq
  obtain ⟨f, order, q', hf, horder, hq', rfl⟩ := Plan.build_eq_ok.mp hbuild
  have hplan : v.plan asked.query = .ok
      ⟨v.binding.table, v.binding.listColumns, f, order.or v.binding.defaultOrdering, p⟩ := by
    refine plan_eq_ok.mpr ⟨hplanned, hcolumns, Plan.build_eq_ok.mpr
      ⟨f, order, p, hasked.filterOf_eq_ok.mpr hf, (hasked.ofRequest_eq _).trans horder, ?_, rfl⟩⟩
    rw [Plan.pageOf, hasked.page, hasked.size, hauto]
    exact hp
  have hlength : x.rows.length = shown.length := (showRows_eq_ok.mp hall).length_eq
  have hcount' : count ≤ 2 ^ 53 := by
    rw [← hcount]
    split <;> omega
  refine list_eq_ok.mpr ⟨_, _, part, hplan,
    found_page hunpaged hx henabled hsize hlimit hoffset hoffset',
    hpart ▸ showRows_page hall _ _, ?_⟩
  have htotal : (if part.isEmpty then 0 else (x.rows.length : Int)) = count := by
    rw [← hcount, hlength]
    split <;> rfl
  rw [if_pos henabled, envelope_eq_ok]
  simp only [htotal]
  exact ⟨_, PageSpec.pageCount_eq hcount' hsize hlimit.le (by decide), rfl⟩

/-- **Pages tile a listing.** Take a listing that is paged when a page is asked for, and that
succeeds without one, and a positive size, of which the binding's bound is left at most. The results
of its pages, put together, are the listing, and there are as many of them as the row count and that
size make; each page reports all rows and all pages. A later page is empty and reports none, as long
as the number of rows to skip fits into 64 bits. The bound is positive in every binding that is made
(`Binding.one_le_maxPageSize`). -/
theorem pages_tile {shown : List Value} {n : Int} (hauto : v.binding.pagination = .auto)
    (hbound : 1 ≤ v.binding.maxPageSize) (hshown : v.list s plain = .ok (.list shown))
    (hrows : shown.length ≤ 2 ^ 53) (hn : 0 < n) (hlimit : min n v.binding.maxPageSize < 2 ^ 63) :
    ∃ parts : List (List Value), parts.flatten = shown ∧
      (parts.length : Int) = ⌈(shown.length : ℚ) / (min n v.binding.maxPageSize : Int)⌉ ∧
      ∀ (i : Nat) (asked : Request) (page size : RawNumber), asked.AsksPage plain page size →
        page.read Params.pageKey = .ok (some (i + 1)) →
        size.read Params.sizeKey = .ok (some n) →
        (∀ part, parts[i]? = some part →
          v.list s asked = .ok (pageObject shown.length
            (PageSpec.shown (page == .flag true) (i + 1))
            (PageSpec.shown (size == .flag true) (min n v.binding.maxPageSize))
            parts.length part)) ∧
        (parts.length ≤ i → i * min n v.binding.maxPageSize < 2 ^ 63 →
          v.list s asked = .ok (pageObject 0
            (PageSpec.shown (page == .flag true) (i + 1))
            (PageSpec.shown (size == .flag true) (min n v.binding.maxPageSize)) 0 [])) := by
  obtain ⟨w, hw⟩ := Int.eq_ofNat_of_zero_le (show 0 ≤ min n v.binding.maxPageSize by omega)
  have hw' : 0 < w := by omega
  have hlength : ((tiles w shown).length : Int) = ⌈(shown.length : ℚ) / ((w : Int) : ℚ)⌉ := by
    rw [length_tiles, Int.natCast_ceil_eq_ceil (by positivity), Int.cast_natCast]
  rw [hw] at hlimit ⊢
  refine ⟨tiles w shown, flatten_tiles hw' shown, hlength, ?_⟩
  intro i asked page size hasked hpage hsize
  let p : PageSpec := ⟨true, i + 1, w, page == .flag true, size == .flag true⟩
  have hresolve : PageSpec.resolve .auto v.binding.pageSize page size
      (some v.binding.maxPageSize) = .ok p := by
    rw [PageSpec.resolve_auto hpage hsize (by omega) (by omega) hbound, hw]
  have hoffset : p.offset = (i * w : Nat) := by
    rw [PageSpec.offset, add_sub_cancel_right]
    push_cast
    rfl
  have hsize' : 1 ≤ p.size := show 1 ≤ (w : Int) by omega
  constructor
  · intro part hpart
    have hi : i * w < shown.length :=
      (lt_length_tiles_iff hw').mp (List.getElem?_eq_some_iff.mp hpart).1
    have hne : part ≠ [] := by
      rintro rfl
      have hlength := congrArg List.length (getElem?_tiles hpart)
      rw [List.length_take, List.length_drop, List.length_nil] at hlength
      omega
    rw [hlength]
    exact list_page hauto hshown hrows hasked hresolve rfl hsize' hlimit (by omega) (by omega)
      (by rw [hoffset]; exact getElem?_tiles hpart) (if_neg (by simp [hne]))
  · intro hi hoffset'
    have hpart : (shown.drop p.offset.toNat).take w = [] := by
      have hle : shown.length ≤ i * w :=
        not_lt.mp (mt (lt_length_tiles_iff hw').mpr (not_lt.mpr hi))
      rw [hoffset, Int.toNat_natCast, List.drop_eq_nil_of_le hle, List.take_nil]
    have hanswer := list_page hauto hshown hrows hasked hresolve rfl hsize' hlimit
      (by omega) (by omega) hpart rfl
    have hzero : ⌈((0 : Nat) : ℚ) / p.size⌉ = 0 := by simp
    exact hzero ▸ hanswer

/-- A table of books with their names. -/
def shelf : Table where
  name := ['b']
  columns := [
    ⟨['i', 'd'], .integer, true, false, none, none, none, false⟩,
    ⟨['n'], .string, false, true, none, none, none, false⟩]

/-- A service of books, to be filtered by their names. -/
def shelfService : Service where
  binding := .ofOptions shelf { filterable := some [['n']] }

/-- Four books. -/
def shelfStore : Store := .ofRows shelf [
  ⟨1, [(['i', 'd'], .integer 1), (['n'], .text ['x'])]⟩,
  ⟨2, [(['i', 'd'], .integer 2), (['n'], .text ['y'])]⟩,
  ⟨3, [(['i', 'd'], .integer 3), (['n'], .text ['x'])]⟩,
  ⟨4, [(['i', 'd'], .integer 4), (['n'], .text ['x'])]⟩]

/-- A book as it is answered. -/
def shownBook (id : Int) (name : Text) : Value :=
  .object [(['i', 'd'], .integer id), (['n'], .text name)]

/-- The books of one name. -/
def named : Request := ⟨[(['n'], .one (.text ['x']))], [], .null⟩

/-- The second of the pages of two books each. -/
def secondPage : Request :=
  ⟨[(['s', 'i', 'z', 'e'], .one (.text ['2'])), (['n'], .one (.text ['x'])),
    (['p', 'a', 'g', 'e'], .one (.text ['2']))], [], .null⟩

theorem pages_tile_shelf :
    shelfService.list shelfStore named
        = .ok (.list [shownBook 1 ['x'], shownBook 3 ['x'], shownBook 4 ['x']]) ∧
      secondPage.AsksPage named (.text ['2']) (.text ['2']) ∧
      shelfService.list shelfStore secondPage
        = .ok (pageObject 3 (.integer 2) (.integer 2) 2 [shownBook 4 ['x']]) ∧
      ∃ parts : List (List Value),
        parts.flatten = [shownBook 1 ['x'], shownBook 3 ['x'], shownBook 4 ['x']] ∧
        (parts.length : Int)
          = ⌈((3 : Nat) : ℚ) / (min 2 shelfService.binding.maxPageSize : Int)⌉ ∧
        ∀ (i : Nat) (asked : Request) (page size : RawNumber), asked.AsksPage named page size →
          page.read Params.pageKey = .ok (some (i + 1)) →
          size.read Params.sizeKey = .ok (some 2) →
          (∀ part, parts[i]? = some part →
            shelfService.list shelfStore asked = .ok (pageObject 3
              (PageSpec.shown (page == .flag true) (i + 1))
              (PageSpec.shown (size == .flag true) (min 2 shelfService.binding.maxPageSize))
              parts.length part)) ∧
          (parts.length ≤ i → i * min 2 shelfService.binding.maxPageSize < 2 ^ 63 →
            shelfService.list shelfStore asked = .ok (pageObject 0
              (PageSpec.shown (page == .flag true) (i + 1))
              (PageSpec.shown (size == .flag true) (min 2 shelfService.binding.maxPageSize))
              0 [])) :=
  ⟨rfl, ⟨rfl, rfl, rfl⟩, rfl,
    @pages_tile shelfService shelfStore named _ 2 rfl (by decide) rfl (by decide) (by decide)
      (by decide)⟩

end Service

end TableService
