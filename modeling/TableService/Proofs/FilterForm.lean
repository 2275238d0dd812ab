import TableService.Proofs.AllowedFields
import TableService.Proofs.FilterMeaning
import TableService.Proofs.FilterSources
import TableService.Proofs.Spelling

/-!
# The form of a filter

What is read from a request is a tree of a narrow form, whatever was sent. A predicate has the
operands that its operator takes, **and those are of the right kind**: an order comparison has a
number or a date, a range two bounds of one kind, a list at least two members of one kind, a
pattern its own token. A group is one of two things:

* a *merge*, the conjunction of two or more predicates on one field, or
* a level, **whose predicates are on pairwise different fields**.

The two are what the values of one field become, and what the terms of a group or the parameters of
a request become, and they never mix, because the values of a field are merged before they join
their level. Four readers have a part in this, and each has one lemma here: the reader of values
(`Predicate.isWellFormed_of_read`), the one that merges (`isWellFormed_of_fieldFilter?`), the level
of a group (`isLevel_of_filters?`) and the request itself.
-/

namespace TableService

/-! ## 1. Predicates -/

/-- Whether an operator has operands as it takes them. -/
def Draft.IsWellFormed (d : Draft) : Prop :=
  match d.operator with
  | .null => d.operands = [] ∧ d.nullFlag.isSome
  | .eq | .ne => ∃ x, d.operands = [x]
  | .gt | .ge | .lt | .le => ∃ x, d.operands = [x] ∧ x.kind ∈ [Kind.number, .bigint, .date]
  | .like | .notLike | .ilike | .notIlike => ∃ x, d.operands = [x] ∧ x.literal = .text x.token
  | .between | .notBetween =>
    ∃ low high, d.operands = [low, high] ∧ low.token ≠ [] ∧ high.token ≠ [] ∧ low.kind = high.kind
  | .inList | .notInList | .contains | .contained =>
    2 ≤ d.operands.length ∧ ∀ x ∈ d.operands, ∀ y ∈ d.operands, x.kind = y.kind

/-- A text with a separator has two pieces at least. -/
theorem Text.two_le_length_pieces {sep : Char} {t : Text} (h : sep ∈ t) :
    2 ≤ (pieces sep t).length := by
  induction t with
  | nil => cases h
  | cons c t ih =>
    rw [pieces]
    split
    · have := List.length_pos_iff.mpr (pieces_ne_nil sep t)
      rw [List.length_cons]
      omega
    · next hc =>
      have ih := ih ((List.mem_cons.mp h).resolve_left (Ne.symm hc))
      cases hpieces : pieces sep t with
      | nil => exact absurd hpieces (pieces_ne_nil sep t)
      | cons p ps =>
        rw [hpieces] at ih
        exact ih

namespace Operand

theorem isOrdered_iff {x : Operand} :
    x.isOrdered = true ↔ x.kind ∈ [Kind.number, .bigint, .date] := by
  unfold isOrdered
  cases x.kind <;> simp

theorem kind_eq_of_kinds {xs : List Operand} (h : (kinds xs).length ≤ 1) :
    ∀ x ∈ xs, ∀ y ∈ xs, x.kind = y.kind := by
  intro x hx y hy
  have hmem : ∀ z ∈ xs, z.kind ∈ kinds xs := fun z hz =>
    List.mem_eraseDups.mpr (List.mem_map_of_mem hz)
  match hkinds : kinds xs, h with
  | [], _ => exact absurd (hmem x hx) (by simp [hkinds])
  | [k], _ =>
    have hall : ∀ z ∈ xs, z.kind = k := fun z hz => by simpa [hkinds] using hmem z hz
    rw [hall x hx, hall y hy]

end Operand

namespace Predicate

/-- A list test over a body with a comma has several operands, all of one kind. -/
theorem exists_of_readListTest {test : List Operand → Predicate} {field : Option Text} {body : Text}
    {p : Predicate} (hcomma : ',' ∈ body) (h : readListTest test field body = .ok p) :
    ∃ xs, 2 ≤ xs.length ∧ (∀ x ∈ xs, ∀ y ∈ xs, x.kind = y.kind) ∧ test xs = p := by
  obtain ⟨xs, hxs, hkinds, rfl⟩ := readListTest_eq_ok.mp h
  have hlength : xs.length = (Text.pieces ',' body).length := by
    rw [← Operand.tokens_of_readAll hxs, List.length_map]
  exact ⟨xs, hlength ▸ Text.two_le_length_pieces hcomma, Operand.kind_eq_of_kinds hkinds, rfl⟩

theorem isWellFormed_of_readCommaForm {field : Option Text} {raw : Text} {p : Predicate}
    (hcomma : ',' ∈ raw) (h : readCommaForm field raw = .ok p) : p.draft.IsWellFormed := by
  unfold readCommaForm at h
  split at h
  -- The sign in front of a list is no comma, so the comma is in what is cut.
  · obtain ⟨xs, hlength, hkinds, rfl⟩ := exists_of_readListTest (by simpa using hcomma) h
    exact ⟨hlength, hkinds⟩
  · obtain ⟨xs, hlength, hkinds, rfl⟩ := exists_of_readListTest (by simpa using hcomma) h
    exact ⟨hlength, hkinds⟩
  · obtain ⟨xs, hlength, hkinds, rfl⟩ := exists_of_readListTest (by simpa using hcomma) h
    exact ⟨hlength, hkinds⟩
  · obtain ⟨xs, hlength, hkinds, rfl⟩ := exists_of_readListTest hcomma h
    exact ⟨hlength, hkinds⟩

theorem isWellFormed_of_readRange {negated : Bool} {field : Option Text} {raw body : Text}
    {p : Predicate} (h : readRange negated field raw body = .ok p) : p.draft.IsWellFormed := by
  obtain ⟨low, high, x, y, -, hlow, hhigh, hx, hy, hkind, rfl⟩ := readRange_eq_ok.mp h
  rw [← Operand.token_of_read hx] at hlow
  rw [← Operand.token_of_read hy] at hhigh
  cases negated with
  | false => exact ⟨x, y, rfl, hlow, hhigh, hkind⟩
  | true => exact ⟨x, y, rfl, hlow, hhigh, hkind⟩

theorem isWellFormed_of_readPlain {raw : Text} {p : Predicate} (h : readPlain raw = .ok p) :
    p.draft.IsWellFormed := by
  unfold readPlain at h
  split at h
  case h_5 =>
    obtain ⟨x, -, rfl⟩ := readEquality_eq_ok.mp h
    exact ⟨x, rfl⟩
  case h_6 =>
    obtain ⟨x, -, rfl⟩ := readEquality_eq_ok.mp h
    exact ⟨x, rfl⟩
  -- The operand of a pattern is made from its token.
  all_goals
    cases h
    exact ⟨_, rfl, rfl⟩

theorem isWellFormed_of_readForm {field : Option Text} {raw : Text} {p : Predicate}
    (h : readForm field raw = .ok p) : p.draft.IsWellFormed := by
  unfold readForm at h
  split at h
  · split at h
    · exact isWellFormed_of_readRange h
    · exact isWellFormed_of_readRange h
  · split at h
    · next hcomma => exact isWellFormed_of_readCommaForm hcomma h
    · exact isWellFormed_of_readPlain h

/-- **A predicate that was read has operands as its operator takes them.** -/
theorem isWellFormed_of_read {field : Option Text} {raw : Text} {p : Predicate}
    (h : read field raw = .ok p) : p.draft.IsWellFormed := by
  unfold read at h
  split at h
  · cases h
    exact ⟨rfl, rfl⟩
  · split at h
    · cases h
      exact ⟨rfl, rfl⟩
    · split at h
      · obtain ⟨x, -, rfl⟩ := readEquality_eq_ok.mp h
        exact ⟨x, rfl⟩
      · split at h
        case h_5 => exact isWellFormed_of_readForm h
        all_goals
          obtain ⟨-, x, -, hordered, rfl⟩ := readComparison_eq_ok.mp h
          exact ⟨x, rfl, Operand.isOrdered_iff.mp hordered⟩

end Predicate

namespace Filter

/-! ## 2. Trees -/

/-- The fields of the predicates directly among parts. -/
def leafFields (parts : List Filter) : List Text :=
  parts.filterMap fun
    | .test field _ => some field
    | _ => none

/-- Whether parts are two or more predicates on one field. -/
def AreMerged (parts : List Filter) : Prop :=
  2 ≤ parts.length ∧ ∃ field, ∀ f ∈ parts, ∃ p, f = .test field p

/-- Whether a filter has the form of one that was read: each predicate has operands as its operator
takes them, and a group has parts, which are merged or have their predicates on different fields. -/
inductive IsWellFormed : Filter → Prop where
  | test {field : Text} {p : Predicate} (h : p.draft.IsWellFormed) : IsWellFormed (.test field p)
  | merged {parts : List Filter} (hmerged : AreMerged parts) (h : ∀ f ∈ parts, IsWellFormed f) :
      IsWellFormed (.all parts)
  | all {parts : List Filter} (hne : parts ≠ []) (hfields : (leafFields parts).Nodup)
      (h : ∀ f ∈ parts, IsWellFormed f) : IsWellFormed (.all parts)
  | any {parts : List Filter} (hne : parts ≠ []) (hfields : (leafFields parts).Nodup)
      (h : ∀ f ∈ parts, IsWellFormed f) : IsWellFormed (.any parts)
  | not {part : Filter} (h : IsWellFormed part) : IsWellFormed (.not part)

theorem leafFields_cons (f : Filter) (fs : List Filter) :
    leafFields (f :: fs) = leafFields [f] ++ leafFields fs := by
  cases f <;> rfl

/-- Whether filters are the parts of a level beside the fields in `seen`. -/
structure IsLevel (seen : List Text) (fs : List Filter) : Prop where
  wellFormed : ∀ f ∈ fs, f.IsWellFormed
  nodup : (leafFields fs).Nodup
  unseen : ∀ name ∈ leafFields fs, name ∉ seen

variable {seen : List Text} {fs : List Filter} {f : Filter}

theorem IsLevel.nil (seen : List Text) : IsLevel seen [] :=
  ⟨fun _ h => absurd h List.not_mem_nil, List.nodup_nil, fun _ h => absurd h List.not_mem_nil⟩

/-- A level with a part in front that brings no field, or one that the level has not. -/
theorem IsLevel.cons {name : Text} (hf : f.IsWellFormed) (hfield : (leafFields [f]).Sublist [name])
    (hname : name ∉ seen) (h : IsLevel (name :: seen) fs) : IsLevel seen (f :: fs) := by
  have hother : ∀ n ∈ leafFields fs, n ≠ name ∧ n ∉ seen := fun n hn => by
    simpa using h.unseen n hn
  refine ⟨?_, ?_, ?_⟩
  · rintro g (_ | ⟨_, hg⟩)
    · exact hf
    · exact h.wellFormed g hg
  · rw [leafFields_cons]
    refine List.nodup_append.mpr ⟨hfield.nodup (List.pairwise_singleton _ _), h.nodup, ?_⟩
    intro n hn m hm hnm
    exact (hother m hm).1 (hnm ▸ List.mem_singleton.mp (hfield.subset hn))
  · intro n hn
    rw [leafFields_cons] at hn
    rcases List.mem_append.mp hn with hn | hn
    · rw [List.mem_singleton.mp (hfield.subset hn)]
      exact hname
    · exact (hother n hn).2

theorem IsLevel.cons_group (hf : f.IsWellFormed) (hfield : leafFields [f] = [])
    (h : IsLevel seen fs) : IsLevel seen (f :: fs) := by
  have hfields : leafFields (f :: fs) = leafFields fs := by
    rw [leafFields_cons, hfield, List.nil_append]
  refine ⟨?_, hfields ▸ h.nodup, hfields ▸ h.unseen⟩
  rintro g (_ | ⟨_, hg⟩)
  · exact hf
  · exact h.wellFormed g hg

end Filter

namespace Group

open TableService.Filter

/-! ## 3. The values of a field, and the terms of a level -/

/-- Predicates that values spell are well formed. -/
theorem isWellFormed_of_spell {name : Text} {values : List Text} {ps : List Predicate}
    (h : Spell name values ps) : ∀ f ∈ ps.map (.test name), Filter.IsWellFormed f := by
  induction h with
  | nil => exact fun _ hf => absurd hf List.not_mem_nil
  | cons hp _ ih =>
    rintro f (_ | ⟨_, hf⟩)
    · exact .test (Predicate.isWellFormed_of_read hp)
    · exact ih f hf

/-- The filter of a field is a predicate, or several that are merged. -/
theorem isWellFormed_of_fieldFilter? {name : Text} {values : List Text} {f : Filter}
    (h : fieldFilter? name values = some f) :
    f.IsWellFormed ∧ (leafFields [f]).Sublist [name] := by
  obtain ⟨hne, ps, hps, rfl⟩ := fieldFilter?_eq_some.mp h
  have hwell := isWellFormed_of_spell hps
  match ps, hps, hwell with
  | [], hps, _ => exact absurd (List.forall₂_nil_right_iff.mp hps) hne
  | [p], _, hwell => exact ⟨hwell _ List.mem_cons_self, .refl _⟩
  | p :: q :: ps, _, hwell =>
    refine ⟨.merged ⟨by simp, name, fun f hf => ?_⟩ hwell, List.nil_sublist _⟩
    obtain ⟨r, -, rfl⟩ := List.mem_map.mp (show f ∈ (p :: q :: ps).map (.test name) from hf)
    exact ⟨r, rfl⟩

/-- Whether no group in a term is without terms. -/
inductive Term.IsFilled : Term → Prop where
  | field {name value : Text} : IsFilled (.field name value)
  | group {kind : Connective} {parts : List Term} (hne : parts ≠ [])
      (h : ∀ x ∈ parts, IsFilled x) : IsFilled (.group kind parts)

/-- What a nonterminal carries has terms in all its groups. -/
def Phrase.IsFilled : Phrase → Prop
  | .group xs | .terms xs => xs ≠ [] ∧ ∀ x ∈ xs, x.IsFilled
  | .term x => x.IsFilled

theorem isFilled_of_derives {allowed : List Text} {φ : Phrase} {t : Text}
    (h : Derives allowed φ t) : φ.IsFilled := by
  induction h with
  | group _ ih => exact ih
  | last _ ih => exact ⟨List.cons_ne_nil _ _, List.forall_mem_singleton.mpr ih⟩
  | more _ _ ihx ihxs => exact ⟨List.cons_ne_nil _ _, List.forall_mem_cons.mpr ⟨ihx, ihxs.2⟩⟩
  | nested _ _ _ ih => exact .group ih.1 ih.2
  | bare _ _ => exact .field
  | valued _ _ _ => exact .field

/-- A level that is not empty has parts. -/
theorem ne_nil_of_filters? {xs : List Term} {fs : List Filter} (hne : xs ≠ [])
    (h : filters? [] xs = some fs) : fs ≠ [] := by
  match xs, hne, h with
  | .field name value :: xs, _, h =>
    rw [filters?, if_neg List.not_mem_nil] at h
    obtain ⟨f, -, h⟩ := Option.bind_eq_some_iff.mp h
    obtain ⟨gs, -, h⟩ := Option.bind_eq_some_iff.mp h
    cases h
    exact List.cons_ne_nil _ _
  | .group kind parts :: xs, _, h =>
    rw [filters?] at h
    obtain ⟨f, -, h⟩ := Option.bind_eq_some_iff.mp h
    obtain ⟨gs, -, h⟩ := Option.bind_eq_some_iff.mp h
    cases h
    exact List.cons_ne_nil _ _

/-- A group over the parts of a level is well formed, and no predicate itself. -/
theorem isWellFormed_grouped {seen : List Text} {fs : List Filter} (kind : Connective)
    (hne : fs ≠ []) (h : IsLevel seen fs) :
    (grouped kind fs).IsWellFormed ∧ leafFields [grouped kind fs] = [] := by
  cases kind with
  | and => exact ⟨.all hne h.nodup h.wellFormed, rfl⟩
  | or => exact ⟨.any hne h.nodup h.wellFormed, rfl⟩
  | not =>
    refine ⟨.not ?_, rfl⟩
    match fs, hne, h with
    | [f], _, h => exact h.wellFormed f List.mem_cons_self
    | f :: g :: fs, hne, h => exact .all hne h.nodup h.wellFormed

mutual

theorem Term.isWellFormed_of_nested? : ∀ (x : Term) {f : Filter}, x.IsFilled →
    x.nested? = some f → f.IsWellFormed ∧ leafFields [f] = []
  | .field _ _, f, _, h => by
    cases h
  | .group kind parts, f, hx, h => by
    obtain ⟨fs, hfs, rfl⟩ := Option.map_eq_some_iff.mp h
    cases hx with
    | group hne hparts =>
      exact isWellFormed_grouped kind (ne_nil_of_filters? hne hfs)
        (isLevel_of_filters? parts hparts hfs)

/-- The terms of a level are its parts: a field comes once, since its later terms are passed
over. -/
theorem isLevel_of_filters? : ∀ (xs : List Term) {seen : List Text} {fs : List Filter},
    (∀ x ∈ xs, x.IsFilled) → filters? seen xs = some fs → IsLevel seen fs
  | [], seen, fs, _, h => by
    cases h
    exact IsLevel.nil seen
  | .field name value :: xs, seen, fs, hxs, h => by
    obtain ⟨-, hrest⟩ := List.forall_mem_cons.mp hxs
    rw [filters?] at h
    split at h
    · exact isLevel_of_filters? xs hrest h
    · next hseen =>
      obtain ⟨f, hf, h⟩ := Option.bind_eq_some_iff.mp h
      obtain ⟨gs, hgs, h⟩ := Option.bind_eq_some_iff.mp h
      cases h
      obtain ⟨hwell, hfield⟩ := isWellFormed_of_fieldFilter? hf
      exact IsLevel.cons hwell hfield hseen (isLevel_of_filters? xs hrest hgs)
  | .group kind parts :: xs, seen, fs, hxs, h => by
    obtain ⟨hx, hrest⟩ := List.forall_mem_cons.mp hxs
    rw [filters?] at h
    obtain ⟨f, hf, h⟩ := Option.bind_eq_some_iff.mp h
    obtain ⟨gs, hgs, h⟩ := Option.bind_eq_some_iff.mp h
    cases h
    obtain ⟨hwell, hfield⟩ := Term.isWellFormed_of_nested? _ hx hf
    exact IsLevel.cons_group hwell hfield (isLevel_of_filters? xs hrest hgs)

end

end Group

namespace Filter

variable {allowed : List Text} {ps : Params}

/-! ## 4. Requests -/

/-- The field that a source is on; a group is on none. -/
def Source.name? : Source → Option Text
  | .field name _ => some name
  | .group _ _ => none

theorem Source.Reads.isWellFormed {x : Source} {f : Filter} (h : x.Reads allowed f) :
    f.IsWellFormed ∧ (leafFields [f]).Sublist x.name?.toList := by
  cases h with
  | field _ _ h => exact Group.isWellFormed_of_fieldFilter? h
  | group h =>
    obtain ⟨xs, hxs, htree⟩ := Group.derives_of_read h
    have hfilled := Group.isFilled_of_derives hxs
    obtain ⟨hwell, hfield⟩ :=
      Group.Term.isWellFormed_of_nested? (.group _ xs) (.group hfilled.1 hfilled.2) htree
    exact ⟨hwell, hfield ▸ List.Sublist.refl _⟩

/-- The parts that sources are read as bring no field that the sources are not on. -/
theorem leafFields_sublist {xs : List Source} {parts : List Filter}
    (h : List.Forall₂ (Source.Reads allowed) xs parts) :
    (∀ f ∈ parts, f.IsWellFormed) ∧ (leafFields parts).Sublist (xs.filterMap Source.name?) := by
  induction h with
  | nil => exact ⟨fun _ h => absurd h List.not_mem_nil, .slnil⟩
  | @cons x f xs parts hx _ ih =>
    obtain ⟨hwell, hfield⟩ := hx.isWellFormed
    refine ⟨List.forall_mem_cons.mpr ⟨hwell, ih.1⟩, ?_⟩
    have hnames : (x :: xs).filterMap Source.name?
        = x.name?.toList ++ xs.filterMap Source.name? := by
      cases hname : x.name? <;> simp [hname]
    rw [leafFields_cons, hnames]
    exact hfield.append ih.2

/-- The fields that the sources of a request are on are keys of it. -/
theorem names_sources (ps : Params) :
    (sources ps).filterMap Source.name?
      = (ps.filter fun e => e.1 ∉ Params.reserved).map Prod.fst := by
  have hgroups : ∀ ks, (groupSources ps ks).filterMap Source.name? = [] := by
    intro ks
    rw [List.filterMap_eq_nil_iff]
    intro x hx
    obtain ⟨k, -, hx⟩ := List.mem_flatMap.mp hx
    obtain ⟨o, -, rfl⟩ := List.mem_map.mp hx
    rfl
  rw [sources, List.filterMap_append, hgroups, List.append_nil, fieldSources, List.filterMap_map]
  exact congrFun List.filterMap_eq_map _

end Filter

/-- Whether there is nothing under a key: no value at all, or a null alone. -/
def Parameter.IsSilent (p : Parameter) : Prop :=
  p.occurrences = [] ∨ p = .one (.other .null)

namespace Filter

variable {allowed : List Text} {ps : Params}

theorem groupTexts_eq_nil {kind : Connective} (hkeys : (ps.map Prod.fst).Nodup) :
    groupTexts kind ps = [] ↔ ∀ e ∈ ps, e.1 = kind.key → e.2.IsSilent := by
  have hiff : groupTexts kind ps = [] ↔ ∀ p, ps.lookup kind.key = some p → p.IsSilent := by
    unfold groupTexts
    split
    · next h => simp [h]
    · next h => simp [h, Parameter.IsSilent]
    · next p hnull h =>
      rw [h]
      constructor
      · rintro hp _ ⟨⟩
        exact .inl hp
      · intro hp
        exact (hp p rfl).resolve_right hnull
  rw [hiff]
  constructor
  · rintro h ⟨key, p⟩ he rfl
    exact h p ((Params.lookup_eq_some_iff hkeys).mpr he)
  · intro h p hp
    exact h _ ((Params.lookup_eq_some_iff hkeys).mp hp) rfl

/-- A request has no source exactly if its keys are no fields and there is nothing under those of
the groups. -/
theorem sources_eq_nil (hkeys : (ps.map Prod.fst).Nodup) :
    sources ps = [] ↔
      ∀ e ∈ ps, e.1 ∈ [Params.pageKey, Params.sizeKey, Params.sortKey, Params.searchKey] ∨
        ∃ kind : Connective, e.1 = kind.key ∧ e.2.IsSilent := by
  have hgroups : groupSources ps Connective.all = [] ↔ ∀ kind, groupTexts kind ps = [] := by
    rw [groupSources, List.flatMap_eq_nil_iff]
    exact ⟨fun h kind => List.map_eq_nil_iff.mp (h kind (by cases kind <;> decide)),
      fun h kind _ => by rw [h kind, List.map_nil]⟩
  rw [sources, List.append_eq_nil_iff, hgroups, fieldSources, List.map_eq_nil_iff,
    List.filter_eq_nil_iff]
  simp only [groupTexts_eq_nil hkeys]
  constructor
  · rintro ⟨hfields, hsilent⟩ e he
    rcases List.mem_append.mp (show e.1 ∈ Params.reserved by simpa using hfields e he) with h | h
    · exact .inl h
    · obtain ⟨kind, -, hkind⟩ := List.mem_map.mp h
      exact .inr ⟨kind, hkind.symm, hsilent kind e he hkind.symm⟩
  · intro h
    refine ⟨fun e he => ?_, fun kind e he hkind => ?_⟩
    · have hreserved : e.1 ∈ Params.reserved := by
        rcases h e he with h | ⟨kind, hkind, -⟩
        · exact List.mem_append_left _ h
        · exact List.mem_append_right _
            (List.mem_map.mpr ⟨kind, by cases kind <;> decide, hkind.symm⟩)
      simpa using hreserved
    · rcases h e he with h | ⟨other, hother, hsilent⟩
      · rw [hkind] at h
        cases kind <;> exact absurd h (by decide)
      · exact hsilent

/-- **The form of a filter.** It is a conjunction at its root, asks about fields of the allow-list,
and is well formed; and there is none exactly if no key filters. -/
theorem form_of_parse (hkeys : (ps.map Prod.fst).Nodup) :
    (∀ f, parse allowed ps = .ok (some f) →
      (∃ parts, f = .all parts) ∧ f.Within allowed ∧ f.IsWellFormed) ∧
    (parse allowed ps = .ok none ↔
      ∀ e ∈ ps, e.1 ∈ [Params.pageKey, Params.sizeKey, Params.sortKey, Params.searchKey] ∨
        ∃ kind : Connective, e.1 = kind.key ∧ e.2.IsSilent) := by
  refine ⟨fun f h => ?_, parse_eq_none.trans (sources_eq_nil hkeys)⟩
  have hwithin := within_of_parse h
  obtain ⟨parts, hparts, hof⟩ := parse_eq_ok.mp h
  obtain ⟨hwell, hfields⟩ := leafFields_sublist hparts
  cases parts with
  | nil => cases hof
  | cons part parts =>
    cases hof
    have hnames : ((sources ps).filterMap Source.name?).Nodup := by
      rw [names_sources]
      exact hkeys.sublist (List.filter_sublist.map Prod.fst)
    exact ⟨⟨_, rfl⟩, hwithin, .all (List.cons_ne_nil _ _) (hfields.nodup hnames) hwell⟩

/-- Two comparisons of one field, and a group that repeats a field around another group. -/
def nestedParams : Params := [
  (['a'], .many [.text ['>', '1'], .text ['<', '9']]),
  (['p', 'a', 'g', 'e'], .one (.text ['2'])),
  (['n', 'o', 't'], .one (.text
    ['(', 'a', '=', '1', '|', 'o', 'r', '=', '(', 'b', '|', 'a', '=', '1', ',', '2', ')',
      '|', 'a', '=', '2', '.', '.', '3', ')']))]

theorem form_of_parse_nested :
    (nestedParams.map Prod.fst).Nodup ∧
      (∃ f, parse [['a'], ['b']] nestedParams = .ok (some f) ∧
        (∃ parts, f = .all parts) ∧ f.Within [['a'], ['b']] ∧ f.IsWellFormed) ∧
      parse [['a'], ['b']] nestedParams ≠ .ok none := by
  have hkeys : (nestedParams.map Prod.fst).Nodup := by decide
  have hform := @form_of_parse [['a'], ['b']] nestedParams hkeys
  refine ⟨hkeys, ⟨_, rfl, hform.1 _ rfl⟩, fun hnone => ?_⟩
  rcases hform.2.mp hnone _ List.mem_cons_self with h | ⟨kind, h, -⟩
  · exact absurd h (by decide)
  · cases kind <;> exact absurd h (by decide)

end Filter

/-! ## 5. Filters that were read have tests -/

/-- Operands as their operators take them can be compared with, on any column: what is ordered is a
number or a date, and a pattern is a text. -/
theorem Predicate.isTestable_of_isWellFormed {p : Predicate} (h : p.draft.IsWellFormed)
    (text : Bool) : p.IsTestable text := by
  have hsingle {P : Operand → Prop} {x y : Operand} (hP : P x → x.kind ∉ [Kind.null, .boolean])
      (h : ∃ z, [x] = [z] ∧ P z) (hy : y ∈ some x) :
      text = true ∨ y.kind ∉ [Kind.null, .boolean] := by
    obtain ⟨z, hz, hPz⟩ := h
    cases hz
    cases hy
    exact .inr (hP hPz)
  have hordered {x : Operand} (h : x.kind ∈ [Kind.number, .bigint, .date]) :
      x.kind ∉ [Kind.null, .boolean] := by
    generalize x.kind = k at h ⊢
    revert h
    cases k <;> decide
  have hpattern {x : Operand} (h : x.literal = .text x.token) :
      x.kind ∉ [Kind.null, .boolean] := by
    rw [Sql.kind_mem_iff, h]
    simp
  intro y hy
  cases p with
  | compare r x =>
    cases r with
    | eq => cases hy
    | ne => cases hy
    | _ => exact hsingle hordered h hy
  | pattern caseless negated x =>
    cases caseless <;> cases negated <;> exact hsingle hpattern h hy
  | _ => cases hy

namespace Filter

theorem mem_leavesOf {leaf : Text × Predicate} {fs : List Filter} :
    leaf ∈ leavesOf fs ↔ ∃ f ∈ fs, leaf ∈ f.leaves := by
  induction fs with
  | nil => simp [leavesOf]
  | cons f fs ih => rw [leavesOf, List.mem_append, ih, List.exists_mem_cons_iff]

theorem IsWellFormed.of_mem_leaves {f : Filter} (h : f.IsWellFormed) :
    ∀ leaf ∈ f.leaves, leaf.2.draft.IsWellFormed := by
  have hparts {parts : List Filter}
      (ih : ∀ f ∈ parts, ∀ leaf ∈ f.leaves, leaf.2.draft.IsWellFormed) :
      ∀ leaf ∈ leavesOf parts, leaf.2.draft.IsWellFormed := by
    intro leaf hleaf
    obtain ⟨f, hf, hleaf⟩ := mem_leavesOf.mp hleaf
    exact ih f hf leaf hleaf
  induction h with
  | test h => exact List.forall_mem_singleton.mpr h
  | merged _ _ ih => exact hparts ih
  | all _ _ _ ih => exact hparts ih
  | any _ _ _ ih => exact hparts ih
  | not _ ih => exact ih

/-- **Every predicate of a filter that was read has a test on its column**, whatever the table. -/
theorem isTestable_of_parse {allowed : List Text} {ps : Params} {f : Filter}
    (h : parse allowed ps = .ok (some f)) (table : Table) : f.IsTestable table := by
  intro leaf hleaf c _
  obtain ⟨parts, hparts, hof⟩ := parse_eq_ok.mp h
  obtain rfl : f = .all parts := by
    cases parts with
    | nil => cases hof
    | cons => exact (Option.some.inj hof).symm
  obtain ⟨part, hpart, hleaf⟩ := mem_leavesOf.mp hleaf
  exact Predicate.isTestable_of_isWellFormed
    (((leafFields_sublist hparts).1 part hpart).of_mem_leaves leaf hleaf) _

end Filter
end TableService
