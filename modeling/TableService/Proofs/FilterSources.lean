import Mathlib.Data.List.Forall2
import TableService.Filter.Parse
import TableService.Proofs.GroupSlots

/-!
# What a filter comes from

A request is read into a filter by four recursions, one inside the other: over the keys, over the
values of a key, over the connectives, over the groups under a connective. Taken together they do
one thing. A request has **sources**: each of its fields with all its values, in the order of the
keys, and then each group, in the order of the connectives. And

> a request has a filter exactly if **every source is read**, and the filter is then the
> conjunction of what was read, source by source.

A request without a source has no filter. Nothing else has to be known of the four recursions: what
is said of filters below is said of one source, and then of all of them.
-/

namespace TableService
namespace Group

/-! ## 1. The values of a field -/

theorem leaf?_eq_some {name value : Text} {f : Filter} :
    leaf? name value = some f ↔
      ∃ p, Predicate.read (some name) value = .ok p ∧ .test name p = f := by
  unfold leaf?
  cases Predicate.read (some name) value with
  | error e => simp [Except.toOption]
  | ok p => simp [Except.toOption]

/-- Whether the values of a field spell predicates, one by one. -/
abbrev Spell (name : Text) : List Text → List Predicate → Prop :=
  List.Forall₂ fun value p => Predicate.read (some name) value = .ok p

theorem mapM_leaf?_eq_some {name : Text} : ∀ {values : List Text} {fs : List Filter},
    values.mapM (leaf? name) = some fs ↔ ∃ ps, Spell name values ps ∧ ps.map (.test name) = fs
  | [], fs => by
    simp [eq_comm]
  | value :: values, fs => by
    rw [List.mapM_cons]
    constructor
    · intro h
      obtain ⟨f, hf, h⟩ := Option.bind_eq_some_iff.mp h
      obtain ⟨gs, hgs, h⟩ := Option.bind_eq_some_iff.mp h
      obtain ⟨p, hp, rfl⟩ := leaf?_eq_some.mp hf
      obtain ⟨ps, hps, rfl⟩ := mapM_leaf?_eq_some.mp hgs
      cases h
      exact ⟨p :: ps, .cons hp hps, rfl⟩
    · rintro ⟨_, h, rfl⟩
      obtain ⟨p, ps, hp, hps, rfl⟩ := List.forall₂_cons_left_iff.mp h
      rw [leaf?_eq_some.mpr ⟨_, hp, rfl⟩, mapM_leaf?_eq_some.mpr ⟨_, hps, rfl⟩]
      rfl

/-- The filter of a field: a leaf for each of its values, of which there is at least one. -/
theorem fieldFilter?_eq_some {name : Text} {values : List Text} {f : Filter} :
    fieldFilter? name values = some f ↔
      values ≠ [] ∧ ∃ ps, Spell name values ps ∧ Filter.merge (ps.map (.test name)) = f := by
  unfold fieldFilter?
  split
  · simp
  · next hne =>
    simp only [Option.map_eq_some_iff, mapM_leaf?_eq_some]
    constructor
    · rintro ⟨_, ⟨ps, hps, rfl⟩, rfl⟩
      exact ⟨hne, ps, hps, rfl⟩
    · rintro ⟨-, ps, hps, rfl⟩
      exact ⟨_, ⟨ps, hps, rfl⟩, rfl⟩

end Group

/-- With different keys, what stands under a key is what is found there. -/
theorem Params.lookup_eq_some_iff {ps : Params} (hkeys : (ps.map Prod.fst).Nodup) {key : Text}
    {p : Parameter} : ps.lookup key = some p ↔ (key, p) ∈ ps := by
  induction ps with
  | nil => simp
  | cons e ps ih =>
    obtain ⟨he, hkeys⟩ := List.nodup_cons.mp hkeys
    rw [List.lookup_cons, List.mem_cons]
    by_cases hkey : key = e.1
    · have hother : (key, p) ∉ ps := fun h => he (hkey ▸ List.mem_map_of_mem h)
      simp only [hkey, beq_self_eq_true, Option.some.injEq, Prod.ext_iff, true_and]
      constructor
      · rintro rfl
        exact .inl rfl
      · rintro (rfl | h)
        · rfl
        · exact absurd (hkey ▸ h) hother
    · rw [beq_eq_false_iff_ne.mpr hkey, ih hkeys]
      constructor
      · exact .inr
      · rintro (h | h)
        · exact absurd (congrArg Prod.fst h) hkey
        · exact h

theorem Occurrence.map_text_injective : Function.Injective (List.map Occurrence.text) :=
  List.map_injective_iff.mpr fun _ _ => Occurrence.text.inj

namespace Filter

/-- Where a part of a filter comes from: a field with its values, or a group. -/
inductive Source where
  | field (name : Text) (sent : List Occurrence)
  | group (kind : Connective) (sent : Occurrence)

/-- Whether a source is read as a filter. A field with several values is one filter. -/
inductive Source.Reads (allowed : List Text) : Source → Filter → Prop where
  | field {name : Text} {sent : List Occurrence} {values : List Text} {f : Filter}
      (hname : name ∈ allowed) (hsent : sent = values.map .text)
      (h : Group.fieldFilter? name values = some f) : Reads allowed (.field name sent) f
  | group {kind : Connective} {t : Text} {f : Filter} (h : Group.read allowed kind t = .ok f) :
      Reads allowed (.group kind (.text t)) f

/-- The fields of a request with their values, in the order of the keys. -/
def fieldSources (ps : Params) : List Source :=
  (ps.filter fun e => e.1 ∉ Params.reserved).map fun e => .field e.1 e.2.occurrences

/-- The groups of a request under several connectives. -/
def groupSources (ps : Params) (ks : List Connective) : List Source :=
  ks.flatMap fun k => (groupTexts k ps).map (.group k)

/-- All that a filter of a request comes from. -/
def sources (ps : Params) : List Source := fieldSources ps ++ groupSources ps Connective.all

/-- The filter of several parts, if there are any. -/
def ofParts : List Filter → Option Filter
  | [] => none
  | parts => some (.all parts)

/-- What stands side by side with two lists, one behind the other, is cut where they meet. -/
theorem forall₂_append_left_iff {α β : Type} {R : α → β → Prop} {xs ys : List α} {zs : List β} :
    List.Forall₂ R (xs ++ ys) zs ↔
      ∃ us vs, List.Forall₂ R xs us ∧ List.Forall₂ R ys vs ∧ us ++ vs = zs := by
  constructor
  · intro h
    induction xs generalizing zs with
    | nil => exact ⟨[], zs, .nil, h, rfl⟩
    | cons x xs ih =>
      obtain ⟨z, rest, hx, hrest, rfl⟩ := List.forall₂_cons_left_iff.mp h
      obtain ⟨us, vs, hus, hvs, rfl⟩ := ih hrest
      exact ⟨z :: us, vs, .cons hx hus, hvs, rfl⟩
  · rintro ⟨us, vs, hus, hvs, rfl⟩
    exact List.rel_append hus hvs

variable {allowed : List Text}

/-! ## 2. Reading one kind of source after the other -/

theorem readOccurrences_map_text (name : Text) (values : List Text) :
    readOccurrences name (values.map .text) = readValues name values := by
  induction values with
  | nil => rfl
  | cons value values ih =>
    rewrite [List.map_cons, readOccurrences, readValues, ih]
    rfl

theorem exists_texts_of_readOccurrences {name : Text} : ∀ {sent : List Occurrence}
    {fs : List Filter}, readOccurrences name sent = .ok fs →
      ∃ values : List Text, sent = values.map .text
  | [], _, _ => ⟨[], rfl⟩
  | .other _ :: _, _, h => by
    cases h
  | .text raw :: sent, fs, h => by
    rw [readOccurrences] at h
    split at h
    · cases h
    · split at h
      · cases h
      · next gs hgs =>
        obtain ⟨values, rfl⟩ := exists_texts_of_readOccurrences hgs
        exact ⟨raw :: values, rfl⟩

theorem ofOccurrences_map_text (name : Text) (values : List Text) :
    ofOccurrences name (values.map .text) = ofValues name values := by
  rewrite [ofOccurrences, readOccurrences_map_text, ofValues]
  rfl

theorem ofOccurrences_eq_ok {name : Text} {sent : List Occurrence} {f : Filter} :
    ofOccurrences name sent = .ok f ↔
      ∃ values : List Text, sent = values.map .text ∧ Group.fieldFilter? name values = some f := by
  constructor
  · intro h
    have hread : ∃ fs, readOccurrences name sent = .ok fs := by
      unfold ofOccurrences at h
      split at h
      · cases h
      · next hnil => exact ⟨_, hnil⟩
      · next hfs => exact ⟨_, hfs⟩
    obtain ⟨fs, hfs⟩ := hread
    obtain ⟨values, rfl⟩ := exists_texts_of_readOccurrences hfs
    rw [ofOccurrences_map_text] at h
    refine ⟨values, rfl, ?_⟩
    rw [← Slot.toOption_ofValues, h]
    rfl
  · rintro ⟨values, rfl, h⟩
    rw [ofOccurrences_map_text]
    rw [← Slot.toOption_ofValues] at h
    cases hvalues : ofValues name values with
    | error e =>
      rw [hvalues] at h
      cases h
    | ok g =>
      rw [hvalues] at h
      cases h
      rfl

theorem ofFields_eq_ok : ∀ {ps : Params} {fs : List Filter},
    ofFields allowed ps = .ok fs ↔ List.Forall₂ (Source.Reads allowed) (fieldSources ps) fs
  | [], fs => by
    simp [ofFields, fieldSources, eq_comm]
  | (key, p) :: ps, fs => by
    rw [ofFields]
    by_cases hreserved : key ∈ Params.reserved
    · rw [if_pos hreserved, ofFields_eq_ok, fieldSources, fieldSources,
        List.filter_cons_of_neg (by simpa using hreserved)]
    · have hsources : fieldSources ((key, p) :: ps)
          = .field key p.occurrences :: fieldSources ps := by
        rw [fieldSources, List.filter_cons_of_pos (by simpa using hreserved)]
        rfl
      rw [if_neg hreserved, hsources, List.forall₂_cons_left_iff]
      constructor
      · intro h
        split at h
        · cases h
        · next hkey =>
          split at h
          · cases h
          · next f hf =>
            split at h
            · cases h
            · next gs hgs =>
              cases h
              obtain ⟨values, hsent, hvalues⟩ := ofOccurrences_eq_ok.mp hf
              exact ⟨f, gs, .field (Decidable.not_not.mp hkey) hsent hvalues,
                ofFields_eq_ok.mp hgs, rfl⟩
      · rintro ⟨f, gs, hf, hgs, rfl⟩
        cases hf with
        | field hkey hsent hvalues =>
          rw [if_neg (not_not_intro hkey), ofOccurrences_eq_ok.mpr ⟨_, hsent, hvalues⟩,
            ofFields_eq_ok.mpr hgs]

theorem ofGroups_eq_ok {kind : Connective} : ∀ {sent : List Occurrence} {fs : List Filter},
    ofGroups allowed kind sent = .ok fs ↔
      List.Forall₂ (Source.Reads allowed) (sent.map (.group kind)) fs
  | [], fs => by
    simp [ofGroups, eq_comm]
  | .other v :: sent, fs => by
    rw [ofGroups, List.map_cons, List.forall₂_cons_left_iff]
    constructor
    · intro h
      cases h
    · rintro ⟨f, gs, hf, -, -⟩
      cases hf
  | .text t :: sent, fs => by
    rw [ofGroups, List.map_cons, List.forall₂_cons_left_iff]
    constructor
    · intro h
      split at h
      · cases h
      · next f hf =>
        split at h
        · cases h
        · next gs hgs =>
          cases h
          exact ⟨f, gs, .group hf, ofGroups_eq_ok.mp hgs, rfl⟩
    · rintro ⟨f, gs, hf, hgs, rfl⟩
      cases hf with
      | group hf => rw [hf, ofGroups_eq_ok.mpr hgs]

theorem ofConnectives_eq_ok {ps : Params} : ∀ {ks : List Connective} {fs : List Filter},
    ofConnectives allowed ps ks = .ok fs ↔
      List.Forall₂ (Source.Reads allowed) (groupSources ps ks) fs
  | [], fs => by
    simp [ofConnectives, groupSources, eq_comm]
  | k :: ks, fs => by
    rw [ofConnectives, groupSources, List.flatMap_cons]
    constructor
    · intro h
      split at h
      · cases h
      · next gs hgs =>
        split at h
        · cases h
        · next hs hhs =>
          cases h
          exact List.rel_append (ofGroups_eq_ok.mp hgs) (ofConnectives_eq_ok.mp hhs)
    · intro h
      obtain ⟨gs, hs, hgs, hhs, rfl⟩ := forall₂_append_left_iff.mp h
      rw [ofGroups_eq_ok.mpr hgs, ofConnectives_eq_ok.mpr hhs]

/-! ## 3. Reading a request -/

/-- **A request has a filter exactly if every source is read**, and the filter is the conjunction of
what was read. -/
theorem parse_eq_ok {ps : Params} {f : Option Filter} :
    parse allowed ps = .ok f ↔
      ∃ parts, List.Forall₂ (Source.Reads allowed) (sources ps) parts ∧ ofParts parts = f := by
  unfold parse
  constructor
  · intro h
    split at h
    · cases h
    · next fs hfs =>
      split at h
      · cases h
      · next gs hgs =>
        have hparts : List.Forall₂ (Source.Reads allowed) (sources ps) (fs ++ gs) :=
          List.rel_append (ofFields_eq_ok.mp hfs) (ofConnectives_eq_ok.mp hgs)
        generalize fs ++ gs = parts at h hparts
        refine ⟨parts, hparts, ?_⟩
        cases parts with
        | nil =>
          cases h
          rfl
        | cons part parts =>
          cases h
          rfl
  · rintro ⟨parts, hparts, rfl⟩
    obtain ⟨fs, gs, hfs, hgs, rfl⟩ := forall₂_append_left_iff.mp hparts
    rw [ofFields_eq_ok.mpr hfs, ofConnectives_eq_ok.mpr hgs]
    dsimp only
    cases fs ++ gs with
    | nil => rfl
    | cons part parts => rfl

/-- A request has no filter exactly if it has no source. -/
theorem parse_eq_none {ps : Params} : parse allowed ps = .ok none ↔ sources ps = [] := by
  rw [parse_eq_ok]
  constructor
  · rintro ⟨parts, hparts, hnone⟩
    cases parts with
    | nil => exact List.forall₂_nil_right_iff.mp hparts
    | cons f fs => cases hnone
  · intro h
    rw [h]
    exact ⟨[], .nil, rfl⟩

end Filter
end TableService
