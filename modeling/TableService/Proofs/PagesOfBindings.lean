import TableService.Proofs.ExplainedPlans
import TableService.Proofs.PagesTile

/-!
# The pages of a binding

Every listing has a page, also where it is not paged: the first one, of the size the binding is
made with. A page is refused if its number or its size is not positive, by a guard against the
program and not against the request. So a binding is only of use if no request runs into it.

> A request is refused for its page number or size, or it gets a page that is in order, **exactly
> when the binding's own page size is positive**.

Loaded settings see to that: a size below one is no setting. A size that is given with the binding
is not looked at in the same way. Zero counts as none, but **a negative size is taken**, and with it
every listing fails in which no positive size is read.
-/

namespace TableService

/-! ## 1. What is read -/

theorem Params.single_eq_error {ps : Params} {key : Text} {e : QueryFault}
    (h : ps.single key = .error e) : e = .repeatedKey key := by
  unfold single at h
  split at h <;> cases h
  rfl

/-- A number parameter is refused for a text that is no integer, or for what is no text. -/
theorem RawNumber.read_eq_error {x : RawNumber} {key : Text} {e : QueryFault}
    (h : x.read key = .error e) :
    (∃ t, e = .notAnInteger key t) ∨ e = .notText key ∧ x = .other := by
  unfold read at h
  split at h
  any_goals cases h
  · split at h <;> cases h
    exact .inl ⟨_, rfl⟩
  · exact .inr ⟨rfl, rfl⟩

/-! ## 2. The page of numbers that were read -/

namespace PageSpec

variable {mode : PaginationMode} {configured bound : Int} {page size : RawNumber}

theorem chooseSize_of_pos {n : Int} (hn : 0 < n) (hbound : 1 ≤ bound) :
    chooseSize configured (some n) (some bound) = min n bound := by
  unfold chooseSize
  dsimp only
  rw [if_neg (by omega), if_neg (by omega)]

/-- Where no positive size is read, the page has the configured one. -/
theorem chooseSize_of_nonpos {requested : Option Int} (h : ∀ n, requested = some n → n ≤ 0)
    (limit : Option Int) : chooseSize configured requested limit = configured := by
  cases requested with
  | none => rfl
  | some n => exact if_pos (h n rfl)

theorem one_le_chooseSize_bounded (hconfigured : 1 ≤ configured) (hbound : 1 ≤ bound)
    (requested : Option Int) : 1 ≤ chooseSize configured requested (some bound) := by
  cases requested with
  | none => exact hconfigured
  | some n =>
    rw [chooseSize_bounded hbound]
    split
    · exact hbound
    · exact one_le_chooseSize hconfigured (some n)

theorem make_eq_error {enabled : Bool} {number chosen : Int} (hchosen : chosen < 1) :
    make enabled number chosen = .error (.notPositive number chosen) := by
  rw [make, if_pos (.inr hchosen)]

/-- The page number of a request: a positive one that is asked for, else the first. -/
def firstOr : Option Int → Int
  | some k => if k > 0 then k else 1
  | none => 1

theorem one_le_firstOr (k : Option Int) : 1 ≤ firstOr k := by
  unfold firstOr
  split
  · split <;> omega
  · omega

theorem resolve_on {k m : Option Int} (henabled : isEnabled mode page = true)
    (hpage : page.read Params.pageKey = .ok k) (hsize : size.read Params.sizeKey = .ok m)
    (limit : Option Int) :
    resolve mode configured page size limit
      = (make true (firstOr k) (chooseSize configured m limit)).map fun s =>
          { s with pageIsFlag := page == .flag true, sizeIsFlag := size == .flag true } := by
  unfold resolve
  rw [if_pos henabled, hpage, hsize]
  cases k <;> rfl

theorem resolve_off (hdisabled : isEnabled mode page = false) (limit : Option Int) :
    resolve mode configured page size limit = make false 1 configured := by
  unfold resolve
  rw [hdisabled]
  rfl

end PageSpec

/-! ## 3. The page of a request -/

/-- The page of a request, as the plan of its listing has it. -/
def Binding.pageOf (b : Binding) (ps : Params) : Except PageFault PageSpec :=
  Plan.pageOf b.pagination b.pageSize (some b.maxPageSize) ps

theorem Plan.pageOf_of_build {b : Binding} {ps : Params} {p : Plan} (h : Plan.build b ps = .ok p) :
    b.pageOf ps = .ok p.page := by
  obtain ⟨_, _, _, _, _, hpage, rfl⟩ := Plan.build_eq_ok.mp h
  exact hpage

/-- What is in order about the page of a request. -/
structure PageSpec.IsInOrder (b : Binding) (ps : Params) (p : PageSpec) : Prop where
  page : 1 ≤ p.page
  size : 1 ≤ p.size
  offset : p.offset = (p.page - 1) * p.size ∧ 0 ≤ p.offset
  /-- A positive size that is asked for is cut to the bound. -/
  requested : p.enabled = true → ∀ n, ps.requestedSize = some n → 0 < n →
    p.size = min n b.maxPageSize ∧ p.size ≤ b.maxPageSize

namespace Binding

variable {b : Binding} {ps : Params} {page size : RawNumber}

theorem pageOf_of_rawNumber (hpage : Plan.rawNumber ps Params.pageKey = .ok page)
    (hsize : Plan.rawNumber ps Params.sizeKey = .ok size) :
    b.pageOf ps
      = PageSpec.resolve b.pagination b.pageSize page size (some b.maxPageSize) := by
  unfold pageOf Plan.pageOf
  rw [hpage, hsize]

/-- Why a request is refused for its page: a number that is no integer or was sent twice, or what
is neither a text nor a number. -/
def IsPageRefusal (ps : Params) (e : PageFault) : Prop :=
  ∃ f, e = .query f ∧ (f.family = .parse
    ∨ ∃ key, f = .notText key ∧ Plan.rawNumber ps key = .ok .other)

theorem isPageRefusal_of_rawNumber {key : Text} {e : PageFault}
    (h : Plan.rawNumber ps key = .error e) : IsPageRefusal ps e := by
  unfold Plan.rawNumber at h
  split at h
  · next f hf =>
    cases h
    exact ⟨f, rfl, .inl (by rw [Params.single_eq_error hf]; rfl)⟩
  · cases h

theorem isPageRefusal_of_read {key : Text} {x : RawNumber} {f : QueryFault}
    (hx : Plan.rawNumber ps key = .ok x) (h : x.read key = .error f) :
    IsPageRefusal ps (.query f) := by
  rcases RawNumber.read_eq_error h with ⟨t, rfl⟩ | ⟨rfl, rfl⟩
  · exact ⟨_, rfl, .inl rfl⟩
  · exact ⟨_, rfl, .inr ⟨key, rfl, hx⟩⟩

/-- The requested size is what is read of the size parameter. -/
theorem requestedSize_of_read {m : Option Int} (hsize : Plan.rawNumber ps Params.sizeKey = .ok size)
    (hm : size.read Params.sizeKey = .ok m) : ps.requestedSize = m := by
  unfold Params.requestedSize
  rw [hsize]
  dsimp only
  rw [RawNumber.value?, hm]

theorem offset_nonneg {p : PageSpec} (hpage : 1 ≤ p.page) (hsize : 1 ≤ p.size) : 0 ≤ p.offset :=
  mul_nonneg (by omega) (by omega)

/-- Of parameters that were sent once, a page is refused for what was sent, or it is in order. -/
theorem resolve_of_positive (hown : 1 ≤ b.pageSize) (hbound : 1 ≤ b.maxPageSize)
    (hpage : Plan.rawNumber ps Params.pageKey = .ok page)
    (hsize : Plan.rawNumber ps Params.sizeKey = .ok size) :
    (∃ e, PageSpec.resolve b.pagination b.pageSize page size (some b.maxPageSize) = .error e
        ∧ IsPageRefusal ps e)
      ∨ ∃ p, PageSpec.resolve b.pagination b.pageSize page size (some b.maxPageSize) = .ok p
        ∧ p.IsInOrder b ps := by
  cases henabled : PageSpec.isEnabled b.pagination page with
  | false =>
    rw [PageSpec.resolve_off henabled, PageSpec.make_eq_ok le_rfl hown]
    exact .inr ⟨_, rfl, le_rfl, hown, ⟨rfl, offset_nonneg le_rfl hown⟩, nofun⟩
  | true =>
  cases hk : page.read Params.pageKey with
  | error f =>
    refine .inl ⟨_, ?_, isPageRefusal_of_read hpage hk⟩
    unfold PageSpec.resolve
    rw [if_pos henabled, hk]
  | ok k =>
  cases hm : size.read Params.sizeKey with
  | error f =>
    refine .inl ⟨_, ?_, isPageRefusal_of_read hsize hm⟩
    unfold PageSpec.resolve
    rw [if_pos henabled, hk, hm]
  | ok m =>
    have hnumber := PageSpec.one_le_firstOr k
    have hchosen := PageSpec.one_le_chooseSize_bounded hown hbound m
    rw [PageSpec.resolve_on henabled hk hm, PageSpec.make_eq_ok hnumber hchosen]
    refine .inr ⟨_, rfl, hnumber, hchosen, ⟨rfl, offset_nonneg hnumber hchosen⟩,
      fun _ n hn hpos => ?_⟩
    rw [requestedSize_of_read hsize hm] at hn
    subst hn
    have hcut :
        PageSpec.chooseSize b.pageSize (some n) (some b.maxPageSize) = min n b.maxPageSize :=
      PageSpec.chooseSize_of_pos hpos hbound
    exact ⟨hcut, hcut ▸ Int.min_le_right n _⟩

/-- **With a positive page size of its own, a binding refuses a request for what it sent, or gives
it a page that is in order.** -/
theorem pageOf_of_positive (hown : 1 ≤ b.pageSize) (hbound : 1 ≤ b.maxPageSize) (ps : Params) :
    (∃ e, b.pageOf ps = .error e ∧ IsPageRefusal ps e)
      ∨ ∃ p, b.pageOf ps = .ok p ∧ p.IsInOrder b ps := by
  cases hpage : Plan.rawNumber ps Params.pageKey with
  | error e =>
    refine .inl ⟨e, ?_, isPageRefusal_of_rawNumber hpage⟩
    unfold pageOf Plan.pageOf
    rw [hpage]
  | ok page =>
  cases hsize : Plan.rawNumber ps Params.sizeKey with
  | error e =>
    refine .inl ⟨e, ?_, isPageRefusal_of_rawNumber hsize⟩
    unfold pageOf Plan.pageOf
    rw [hpage, hsize]
  | ok size =>
    rw [pageOf_of_rawNumber hpage hsize]
    exact resolve_of_positive hown hbound hpage hsize

/-- So every plan of a listing has a page that is in order. -/
theorem isInOrder_of_build (hown : 1 ≤ b.pageSize) (hbound : 1 ≤ b.maxPageSize) {p : Plan}
    (h : Plan.build b ps = .ok p) : p.page.IsInOrder b ps := by
  have hpage := Plan.pageOf_of_build h
  rcases pageOf_of_positive hown hbound ps with ⟨e, he, -⟩ | ⟨page, hp, hinOrder⟩
  · rw [he] at hpage
    cases hpage
  · rw [hp] at hpage
    exact Except.ok.inj hpage ▸ hinOrder

/-- Where a listing is not paged, page number and size are not looked at. -/
theorem pageOf_off (hown : 1 ≤ b.pageSize) (hpage : Plan.rawNumber ps Params.pageKey = .ok page)
    (hsize : Plan.rawNumber ps Params.sizeKey = .ok size)
    (hdisabled : PageSpec.isEnabled b.pagination page = false) :
    b.pageOf ps = .ok ⟨false, 1, b.pageSize, false, false⟩ := by
  rw [pageOf_of_rawNumber hpage hsize, PageSpec.resolve_off hdisabled,
    PageSpec.make_eq_ok le_rfl hown]

/-- **Without a positive page size of its own, a binding fails wherever that size is needed.** -/
theorem pageOf_of_nonpositive (hown : b.pageSize < 1)
    (hpage : Plan.rawNumber ps Params.pageKey = .ok page)
    (hsize : Plan.rawNumber ps Params.sizeKey = .ok size) :
    (PageSpec.isEnabled b.pagination page = false →
        b.pageOf ps = .error (.notPositive 1 b.pageSize))
      ∧ ∀ k m, PageSpec.isEnabled b.pagination page = true →
        page.read Params.pageKey = .ok k → size.read Params.sizeKey = .ok m →
        (∀ n, m = some n → n ≤ 0) →
        b.pageOf ps = .error (.notPositive (PageSpec.firstOr k) b.pageSize) := by
  rw [pageOf_of_rawNumber hpage hsize]
  refine ⟨fun hdisabled => ?_, fun k m henabled hk hm hnone => ?_⟩
  · rw [PageSpec.resolve_off hdisabled, PageSpec.make_eq_error hown]
  · rw [PageSpec.resolve_on henabled hk hm, PageSpec.chooseSize_of_nonpos hnone,
      PageSpec.make_eq_error hown]
    rfl

/-! ## 4. The sizes of a binding that was made -/

variable {env : List (Text × Text)} {args : List (Text × Value)} {settings : Settings}
  {table : Table} {o : BindingOptions}

theorem one_le_pageSize_of_load (h : Settings.load env args = .ok settings) :
    1 ≤ settings.pageSize := by
  unfold Settings.load at h
  dsimp only at h
  split at h
  · next hsize _ _ _ _ =>
    cases h
    exact Settings.one_le_of_choose (by decide) hsize
  · cases h

/-- A binding has a positive page size unless a negative one is given. -/
theorem one_le_pageSize_iff (hsettings : Settings.load env args = .ok settings)
    (hb : create table settings o = .ok b) :
    1 ≤ b.pageSize ↔ ∀ n, o.pageSize = some n → 0 ≤ n := by
  have hstandard := one_le_pageSize_of_load hsettings
  rw [(made_of_create hb).pageSize_eq]
  unfold choosePageSize
  cases o.pageSize with
  | none => simpa using hstandard
  | some given =>
    simp only [Option.some.injEq, forall_eq']
    split <;> omega

/-- **A binding refuses requests for what they sent, or gives them a page that is in order, unless
a negative page size was given with it.** Then it fails in every listing that is not paged, and in
every page that is asked for without a positive size. -/
theorem pages_in_order (hsettings : Settings.load env args = .ok settings)
    (hb : create table settings o = .ok b) :
    (1 ≤ b.pageSize ↔ ∀ n, o.pageSize = some n → 0 ≤ n)
      ∧ (1 ≤ b.pageSize → ∀ ps,
          ((∃ e, b.pageOf ps = .error e ∧ IsPageRefusal ps e)
            ∨ ∃ p, b.pageOf ps = .ok p ∧ p.IsInOrder b ps)
          ∧ (∀ p, Plan.build b ps = .ok p → p.page.IsInOrder b ps)
          ∧ ∀ page size, Plan.rawNumber ps Params.pageKey = .ok page →
              Plan.rawNumber ps Params.sizeKey = .ok size →
              PageSpec.isEnabled b.pagination page = false →
              b.pageOf ps = .ok ⟨false, 1, b.pageSize, false, false⟩)
      ∧ (b.pageSize < 1 → ∀ ps page size, Plan.rawNumber ps Params.pageKey = .ok page →
          Plan.rawNumber ps Params.sizeKey = .ok size →
          (PageSpec.isEnabled b.pagination page = false →
            b.pageOf ps = .error (.notPositive 1 b.pageSize))
          ∧ ∀ k m, PageSpec.isEnabled b.pagination page = true →
              page.read Params.pageKey = .ok k → size.read Params.sizeKey = .ok m →
              (∀ n, m = some n → n ≤ 0) →
              b.pageOf ps = .error (.notPositive (PageSpec.firstOr k) b.pageSize)) := by
  have hbound := one_le_maxPageSize hsettings hb
  refine ⟨one_le_pageSize_iff hsettings hb, fun hown ps => ⟨?_, fun p hp => ?_, ?_⟩, ?_⟩
  · exact pageOf_of_positive hown hbound ps
  · exact isInOrder_of_build hown hbound hp
  · exact fun _ _ => pageOf_off hown
  · exact fun hown _ _ _ => pageOf_of_nonpositive hown

/-- The books of the shelf, never paged and with a page size of their own. -/
def unpaged (size : Int) : BindingOptions where
  pageSize := some size
  pagination := some PaginationMode.disabled.name

def unpagedBinding (size : Int) : Binding := ofOptions Service.shelf (unpaged size)

theorem pages_in_order_books :
    Settings.load [] [] = .ok .standard
      ∧ create Service.shelf .standard (unpaged 5) = .ok (unpagedBinding 5)
      ∧ 1 ≤ (unpagedBinding 5).pageSize
      ∧ (unpagedBinding 5).pageOf [(Params.pageKey, .one (.text ['x']))]
        = .ok ⟨false, 1, 5, false, false⟩ := by
  have hsettings : Settings.load [] [] = .ok .standard := rfl
  have hb : create Service.shelf .standard (unpaged 5) = .ok (unpagedBinding 5) := rfl
  obtain ⟨hsize, hinOrder, -⟩ := pages_in_order hsettings hb
  have hown := hsize.mpr (by decide)
  exact ⟨hsettings, hb, hown, (hinOrder hown _).2.2 _ _ rfl rfl rfl⟩

/-- A negative page size is taken, and the plainest listing runs into the guard. -/
theorem negative_page_size_is_taken :
    Settings.load [] [] = .ok .standard
      ∧ create Service.shelf .standard (unpaged (-1)) = .ok (unpagedBinding (-1))
      ∧ (unpagedBinding (-1)).pageSize = -1
      ∧ (unpagedBinding (-1)).pageOf [] = .error (.notPositive 1 (-1))
      ∧ Plan.build (unpagedBinding (-1)) []
        = .error (.invalidValue (Text.ofString "page and page_size must be >= 1, got 1 and -1")) :=
  ⟨rfl, rfl, rfl, rfl, rfl⟩

end Binding
end TableService
