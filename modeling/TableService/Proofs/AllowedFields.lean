import TableService.Filter.Parse
import TableService.Proofs.GroupReading

/-!
# Allow-lists of filters

A request names fields in its filter, and they are read against a list of the fields it may name.
What comes out of reading

> **names no field that is not on its list.**

There are three ways in: a key of the query, a term of a group, and a term of a group inside of a
group. The groups are taken from their grammar, where a term is a field of the list or a connective,
so nothing of the reader's slots is needed here. What a sort specification names is
`Proofs.SortSpecifications`.
-/

namespace TableService

namespace Filter

theorem leaves_merge (fs : List Filter) : (merge fs).leaves = leavesOf fs := by
  match fs with
  | [] => rfl
  | [f] => exact (List.append_nil _).symm
  | _ :: _ :: _ => rfl

theorem leavesOf_append (fs gs : List Filter) :
    leavesOf (fs ++ gs) = leavesOf fs ++ leavesOf gs := by
  induction fs with
  | nil => rfl
  | cons f fs ih => rw [List.cons_append, leavesOf, leavesOf, ih, List.append_assoc]

/-- Whether a filter asks about no other fields than those of a list. -/
def Within (allowed : List Text) (f : Filter) : Prop := ∀ leaf ∈ f.leaves, leaf.1 ∈ allowed

/-- Whether several filters ask about no other fields than those of a list. -/
def AllWithin (allowed : List Text) (fs : List Filter) : Prop :=
  ∀ leaf ∈ leavesOf fs, leaf.1 ∈ allowed

variable {allowed : List Text}

theorem AllWithin.nil : AllWithin allowed [] := fun _ h => absurd h List.not_mem_nil

theorem AllWithin.cons {f : Filter} {fs : List Filter} (hf : f.Within allowed)
    (hfs : AllWithin allowed fs) : AllWithin allowed (f :: fs) := by
  intro leaf h
  rcases List.mem_append.mp h with h | h
  · exact hf leaf h
  · exact hfs leaf h

theorem AllWithin.append {fs gs : List Filter} (hfs : AllWithin allowed fs)
    (hgs : AllWithin allowed gs) : AllWithin allowed (fs ++ gs) := by
  intro leaf h
  rw [leavesOf_append] at h
  rcases List.mem_append.mp h with h | h
  · exact hfs leaf h
  · exact hgs leaf h

theorem AllWithin.merge {fs : List Filter} (h : AllWithin allowed fs) :
    (Filter.merge fs).Within allowed := by
  intro leaf hleaf
  rw [leaves_merge] at hleaf
  exact h leaf hleaf

end Filter

namespace Group

open TableService.Filter

variable {allowed : List Text}

/-- Whether the fields of a term, those of its groups included, are on a list. -/
inductive Term.Within (allowed : List Text) : Term → Prop where
  | field {name value : Text} (h : name ∈ allowed) : Within allowed (.field name value)
  | group {kind : Connective} {parts : List Term} (h : ∀ x ∈ parts, Within allowed x) :
      Within allowed (.group kind parts)

/-- What a nonterminal carries has its fields on the list of the grammar. -/
def Phrase.Within (allowed : List Text) : Phrase → Prop
  | .group xs | .terms xs => ∀ x ∈ xs, x.Within allowed
  | .term x => x.Within allowed

theorem within_of_derives {φ : Phrase} {t : Text} (h : Derives allowed φ t) :
    φ.Within allowed := by
  induction h with
  | group _ ih => exact ih
  | last _ ih =>
    intro x hx
    obtain rfl := List.mem_singleton.mp hx
    exact ih
  | more _ _ ihx ihxs =>
    intro x hx
    rcases List.mem_cons.mp hx with rfl | hx
    · exact ihx
    · exact ihxs x hx
  | nested _ _ _ ih => exact .group ih
  | bare _ hfield => exact .field hfield.mem
  | valued _ hfield _ => exact .field hfield.mem

theorem within_of_leaf? {name value : Text} {f : Filter} (hname : name ∈ allowed)
    (h : leaf? name value = some f) : f.Within allowed := by
  obtain ⟨p, -, rfl⟩ := Option.map_eq_some_iff.mp h
  intro leaf hleaf
  obtain rfl := List.mem_singleton.mp hleaf
  exact hname

theorem allWithin_of_mapM_leaf? {name : Text} (hname : name ∈ allowed) :
    ∀ {values : List Text} {fs : List Filter}, values.mapM (leaf? name) = some fs →
      AllWithin allowed fs
  | [], fs, h => by
    obtain rfl : [] = fs := by simpa using h
    exact AllWithin.nil
  | value :: values, fs, h => by
    rw [List.mapM_cons] at h
    obtain ⟨f, hf, h⟩ := Option.bind_eq_some_iff.mp h
    obtain ⟨gs, hgs, h⟩ := Option.bind_eq_some_iff.mp h
    cases h
    exact AllWithin.cons (within_of_leaf? hname hf) (allWithin_of_mapM_leaf? hname hgs)

theorem within_of_fieldFilter? {name : Text} {values : List Text} {f : Filter}
    (hname : name ∈ allowed) (h : fieldFilter? name values = some f) : f.Within allowed := by
  unfold fieldFilter? at h
  split at h
  · cases h
  · obtain ⟨fs, hfs, rfl⟩ := Option.map_eq_some_iff.mp h
    exact AllWithin.merge (allWithin_of_mapM_leaf? hname hfs)

theorem within_grouped (kind : Connective) {fs : List Filter} (h : AllWithin allowed fs) :
    (grouped kind fs).Within allowed := by
  cases kind with
  | and => exact h
  | or => exact h
  | not => exact AllWithin.merge h

mutual

theorem Term.within_of_nested? : ∀ (x : Term) {f : Filter}, x.Within allowed →
    x.nested? = some f → f.Within allowed
  | .field _ _, f, _, h => by
    cases h
  | .group kind parts, f, hx, h => by
    obtain ⟨fs, hfs, rfl⟩ := Option.map_eq_some_iff.mp h
    cases hx with
    | group hparts => exact within_grouped kind (allWithin_of_filters? parts hparts hfs)

theorem allWithin_of_filters? : ∀ (xs : List Term) {seen : List Text} {fs : List Filter},
    (∀ x ∈ xs, x.Within allowed) → filters? seen xs = some fs → AllWithin allowed fs
  | [], _, fs, _, h => by
    cases h
    exact AllWithin.nil
  | .field name value :: xs, seen, fs, hxs, h => by
    obtain ⟨hx, hrest⟩ := List.forall_mem_cons.mp hxs
    rw [filters?] at h
    split at h
    · exact allWithin_of_filters? xs hrest h
    · obtain ⟨f, hf, h⟩ := Option.bind_eq_some_iff.mp h
      obtain ⟨gs, hgs, h⟩ := Option.bind_eq_some_iff.mp h
      cases h
      cases hx with
      | field hname =>
        exact AllWithin.cons (within_of_fieldFilter? hname hf) (allWithin_of_filters? xs hrest hgs)
  | .group kind parts :: xs, seen, fs, hxs, h => by
    obtain ⟨hx, hrest⟩ := List.forall_mem_cons.mp hxs
    rw [filters?] at h
    obtain ⟨f, hf, h⟩ := Option.bind_eq_some_iff.mp h
    obtain ⟨gs, hgs, h⟩ := Option.bind_eq_some_iff.mp h
    cases h
    exact AllWithin.cons (Term.within_of_nested? (.group kind parts) hx hf)
      (allWithin_of_filters? xs hrest hgs)

end

/-- What is read as a group asks about fields of the allow-list only. -/
theorem within_of_read {kind : Connective} {t : Text} {f : Filter}
    (h : read allowed kind t = .ok f) : f.Within allowed := by
  obtain ⟨xs, hxs, htree⟩ := derives_of_read h
  exact Term.within_of_nested? (.group kind xs) (.group (within_of_derives hxs)) htree

end Group

namespace Filter

variable {allowed : List Text}

theorem allWithin_of_readOccurrences {field : Text} (hfield : field ∈ allowed) :
    ∀ {xs : List Occurrence} {fs : List Filter}, readOccurrences field xs = .ok fs →
      AllWithin allowed fs
  | [], fs, h => by
    cases h
    exact AllWithin.nil
  | .other v :: _, fs, h => by
    cases h
  | .text raw :: xs, fs, h => by
    rw [readOccurrences] at h
    split at h
    · cases h
    · split at h
      · cases h
      · next gs hgs =>
        cases h
        refine AllWithin.cons (fun leaf hleaf => ?_) (allWithin_of_readOccurrences hfield hgs)
        obtain rfl := List.mem_singleton.mp hleaf
        exact hfield

theorem within_of_ofOccurrences {field : Text} {xs : List Occurrence} {f : Filter}
    (hfield : field ∈ allowed) (h : ofOccurrences field xs = .ok f) : f.Within allowed := by
  unfold ofOccurrences at h
  split at h
  · cases h
  · cases h
  · next fs _ hfs =>
    cases h
    exact AllWithin.merge (allWithin_of_readOccurrences hfield hfs)

theorem allWithin_of_ofFields : ∀ {ps : Params} {fs : List Filter},
    ofFields allowed ps = .ok fs → AllWithin allowed fs
  | [], fs, h => by
    cases h
    exact AllWithin.nil
  | (key, p) :: ps, fs, h => by
    rw [ofFields] at h
    split at h
    · exact allWithin_of_ofFields h
    · split at h
      · cases h
      · next hkey =>
        split at h
        · cases h
        · next f hf =>
          split at h
          · cases h
          · next gs hgs =>
            cases h
            exact AllWithin.cons (within_of_ofOccurrences (Decidable.not_not.mp hkey) hf)
              (allWithin_of_ofFields hgs)

theorem allWithin_of_ofGroups {kind : Connective} : ∀ {xs : List Occurrence} {fs : List Filter},
    ofGroups allowed kind xs = .ok fs → AllWithin allowed fs
  | [], fs, h => by
    cases h
    exact AllWithin.nil
  | .other _ :: _, fs, h => by
    cases h
  | .text t :: xs, fs, h => by
    rw [ofGroups] at h
    split at h
    · cases h
    · next f hf =>
      split at h
      · cases h
      · next gs hgs =>
        cases h
        exact AllWithin.cons (Group.within_of_read hf) (allWithin_of_ofGroups hgs)

theorem allWithin_of_ofConnectives {ps : Params} : ∀ {ks : List Connective} {fs : List Filter},
    ofConnectives allowed ps ks = .ok fs → AllWithin allowed fs
  | [], fs, h => by
    cases h
    exact AllWithin.nil
  | k :: ks, fs, h => by
    rw [ofConnectives] at h
    split at h
    · cases h
    · next gs hgs =>
      split at h
      · cases h
      · next hs hhs =>
        cases h
        exact AllWithin.append (allWithin_of_ofGroups hgs) (allWithin_of_ofConnectives hhs)

/-- **The filter of a request asks about fields of the allow-list only.** -/
theorem within_of_parse {ps : Params} {f : Filter} (h : parse allowed ps = .ok (some f)) :
    f.Within allowed := by
  unfold parse at h
  split at h
  · cases h
  · next fs hfs =>
    split at h
    · cases h
    · next gs hgs =>
      split at h
      · cases h
      · cases h
        exact AllWithin.append (allWithin_of_ofFields hfs) (allWithin_of_ofConnectives hgs)

end Filter

end TableService
