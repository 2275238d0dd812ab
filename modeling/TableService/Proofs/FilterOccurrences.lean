import TableService.Proofs.AllowedFields
import TableService.Proofs.FilterSources
import TableService.Proofs.GroupUnambiguous
import TableService.Proofs.Spelling

/-!
# Nothing of a filter is lost

A value that is sent to filter by is a leaf of the filter, and no leaf comes from anywhere else.
Said for all leaves at once, from left to right:

> **the leaves of a filter, each spelled again, are what was written**, source by source.

What a field wrote is its values in order. What a group wrote is its terms from left to right, a
nested group in the place where it stands, but a field that is repeated in a level has all its
values where it stands first. That order is `gathered`; it is said of terms, without filters, and
it is **a permutation of the terms as they stand** (`gathered_perm`).

The leaves are spelled, so the law rests on `Predicate.spell_of_read`. The rest is one induction
over the terms of a level, whose first term of a field answers for all of them.
-/

namespace TableService
namespace Group

/-! ## 1. The terms of a group, gathered -/

mutual

/-- The fields and values of a term. -/
def Term.gathered : Term → List (Text × Text)
  | .field name value => [(name, value)]
  | .group _ parts => gathered [] parts
termination_by structural x => x

/-- The fields and values of a level, but for the fields in `seen`: a repeated field has its values
where it stands first, and a nested group is opened where it stands. -/
def gathered (seen : List Text) : List Term → List (Text × Text)
  | [] => []
  | .field name value :: xs =>
    if name ∈ seen then gathered seen xs
    else (value :: valuesOf name xs).map (name, ·) ++ gathered (name :: seen) xs
  | .group kind parts :: xs => Term.gathered (.group kind parts) ++ gathered seen xs
termination_by structural xs => xs

end

mutual

/-- The fields and values of a term, from left to right. -/
def Term.inOrder : Term → List (Text × Text)
  | .field name value => [(name, value)]
  | .group _ parts => inOrder parts
termination_by structural x => x

/-- The fields and values of a level as they stand, from left to right. -/
def inOrder : List Term → List (Text × Text)
  | [] => []
  | x :: xs => Term.inOrder x ++ inOrder xs
termination_by structural xs => xs

end

/-- Whether a term is not one of the fields in `seen`. -/
def isRemaining (seen : List Text) : Term → Bool
  | .field name _ => name ∉ seen
  | .group _ _ => true

/-- What a level holds beside the fields in `seen`, from left to right. -/
def inOrderBeside (seen : List Text) (xs : List Term) : List (Text × Text) :=
  inOrder (xs.filter (isRemaining seen))

theorem inOrderBeside_nil (xs : List Term) : inOrderBeside [] xs = inOrder xs := by
  rw [inOrderBeside, List.filter_eq_self.mpr]
  intro x _
  cases x <;> simp [isRemaining]

theorem inOrderBeside_field (seen : List Text) (name value : Text) (xs : List Term) :
    inOrderBeside seen (.field name value :: xs)
      = if name ∈ seen then inOrderBeside seen xs
        else (name, value) :: inOrderBeside seen xs := by
  unfold inOrderBeside
  by_cases h : name ∈ seen
  · rw [if_pos h, List.filter_cons_of_neg (by simp [isRemaining, h])]
  · rw [if_neg h, List.filter_cons_of_pos (by simp [isRemaining, h]), inOrder, Term.inOrder]
    rfl

theorem inOrderBeside_group (seen : List Text) (kind : Connective) (parts xs : List Term) :
    inOrderBeside seen (.group kind parts :: xs)
      = Term.inOrder (.group kind parts) ++ inOrderBeside seen xs := by
  rw [inOrderBeside, List.filter_cons_of_pos rfl, inOrder]
  rfl

/-- Setting a field aside takes the values of that field out of a level, and nothing else. -/
theorem inOrderBeside_perm {name : Text} {seen : List Text} (h : name ∉ seen) (xs : List Term) :
    (inOrderBeside seen xs).Perm
      ((valuesOf name xs).map (name, ·) ++ inOrderBeside (name :: seen) xs) := by
  induction xs with
  | nil => exact .nil
  | cons x xs ih =>
    cases x with
    | group kind parts =>
      rw [inOrderBeside_group, inOrderBeside_group, valuesOf]
      refine (ih.append_left _).trans ?_
      rw [← List.append_assoc, ← List.append_assoc]
      exact List.perm_append_comm.append_right _
    | field n value =>
      rw [inOrderBeside_field, inOrderBeside_field, valuesOf]
      by_cases hn : n = name
      · subst hn
        rw [if_neg h, if_pos rfl, if_pos List.mem_cons_self]
        exact ih.cons _
      · have hmem : n ∈ name :: seen ↔ n ∈ seen := by simp [hn]
        by_cases hseen : n ∈ seen
        · rw [if_pos hseen, if_neg hn, if_pos (hmem.mpr hseen)]
          exact ih
        · rw [if_neg hseen, if_neg hn, if_neg (mt hmem.mp hseen)]
          exact (ih.cons _).trans List.perm_middle.symm

mutual

theorem Term.gathered_perm : ∀ x : Term, (Term.gathered x).Perm (Term.inOrder x)
  | .field _ _ => by
    rw [Term.gathered, Term.inOrder]
  | .group _ parts => by
    rw [Term.gathered, Term.inOrder, ← inOrderBeside_nil]
    exact gathered_perm_beside [] parts

theorem gathered_perm_beside (seen : List Text) : ∀ xs : List Term,
    (gathered seen xs).Perm (inOrderBeside seen xs)
  | [] => by
    rw [gathered]
    exact .nil
  | .field name value :: xs => by
    rw [gathered, inOrderBeside_field]
    by_cases h : name ∈ seen
    · rw [if_pos h, if_pos h]
      exact gathered_perm_beside seen xs
    · rw [if_neg h, if_neg h, List.map_cons, List.cons_append]
      exact (((gathered_perm_beside (name :: seen) xs).append_left _).trans
        (inOrderBeside_perm h xs).symm).cons _
  | .group kind parts :: xs => by
    rw [gathered, inOrderBeside_group]
    exact (Term.gathered_perm (.group kind parts)).append (gathered_perm_beside seen xs)

end

/-- **Gathering moves terms, and does nothing else to them.** -/
theorem gathered_perm (xs : List Term) : (gathered [] xs).Perm (inOrder xs) := by
  rw [← inOrderBeside_nil]
  exact gathered_perm_beside [] xs

/-! ## 2. The leaves of a group -/

end Group

namespace Filter

/-- A leaf of a filter as it is spelled: its field, and the value that spells its predicate. -/
def spelled (leaf : Text × Predicate) : Text × Text := (leaf.1, leaf.2.spell)

end Filter

namespace Group

open TableService.Filter

theorem spelled_leavesOf_tests {name : Text} {values : List Text} {ps : List Predicate}
    (h : Spell name values ps) :
    (leavesOf (ps.map (.test name))).map spelled = values.map (name, ·) := by
  induction h with
  | nil => rfl
  | cons hp _ ih =>
    rw [List.map_cons, leavesOf, leaves, List.map_append, ih, List.map_cons, List.map_cons, spelled,
      Predicate.spell_of_read hp]
    rfl

theorem spelled_fieldFilter? {name : Text} {values : List Text} {f : Filter}
    (h : fieldFilter? name values = some f) : f.leaves.map spelled = values.map (name, ·) := by
  obtain ⟨-, ps, hps, rfl⟩ := fieldFilter?_eq_some.mp h
  rw [leaves_merge]
  exact spelled_leavesOf_tests hps

theorem leaves_grouped (kind : Connective) (fs : List Filter) :
    (grouped kind fs).leaves = leavesOf fs := by
  cases kind with
  | and => rfl
  | or => rfl
  | not => exact leaves_merge fs

mutual

theorem Term.spelled_nested? : ∀ (x : Term) {f : Filter}, x.nested? = some f →
    f.leaves.map spelled = x.gathered
  | .field _ _, f, h => by
    cases h
  | .group kind parts, f, h => by
    obtain ⟨fs, hfs, rfl⟩ := Option.map_eq_some_iff.mp h
    rw [leaves_grouped, Term.gathered]
    exact spelled_filters? parts hfs

/-- The leaves of a level are its terms, gathered: the first term of a field stands for the later
ones, which the level passes over. -/
theorem spelled_filters? : ∀ (xs : List Term) {seen : List Text} {fs : List Filter},
    filters? seen xs = some fs → (leavesOf fs).map spelled = gathered seen xs
  | [], _, fs, h => by
    cases h
    rw [gathered]
    rfl
  | .field name value :: xs, seen, fs, h => by
    rw [filters?] at h
    rw [gathered]
    split at h
    · next hseen =>
      rw [if_pos hseen]
      exact spelled_filters? xs h
    · next hseen =>
      obtain ⟨f, hf, h⟩ := Option.bind_eq_some_iff.mp h
      obtain ⟨gs, hgs, h⟩ := Option.bind_eq_some_iff.mp h
      cases h
      rw [if_neg hseen, leavesOf, List.map_append, spelled_fieldFilter? hf,
        spelled_filters? xs hgs]
  | .group kind parts :: xs, seen, fs, h => by
    rw [filters?] at h
    obtain ⟨f, hf, h⟩ := Option.bind_eq_some_iff.mp h
    obtain ⟨gs, hgs, h⟩ := Option.bind_eq_some_iff.mp h
    cases h
    rw [gathered, leavesOf, List.map_append, Term.spelled_nested? _ hf, spelled_filters? xs hgs]

end

end Group

namespace Filter

variable {allowed : List Text}

/-! ## 3. The leaves of a filter -/

/-- What a source writes: the values of a field in order, or the terms of a group, gathered. -/
inductive Source.Writes (allowed : List Text) : Source → List (Text × Text) → Prop where
  | field {name : Text} {sent : List Occurrence} {values : List Text}
      (hsent : sent = values.map .text) : Writes allowed (.field name sent) (values.map (name, ·))
  | group {kind : Connective} {t : Text} {xs : List Group.Term}
      (h : Group.Derives allowed (.group xs) t) :
      Writes allowed (.group kind (.text t)) (Group.gathered [] xs)

/-- A source writes one thing only. -/
theorem Source.Writes.unique : Relator.RightUnique (Source.Writes allowed) := by
  intro x written other h h'
  cases h with
  | field hsent =>
    cases h' with
    | field hsent' =>
      rw [Occurrence.map_text_injective (hsent.symm.trans hsent')]
  | group hxs =>
    cases h' with
    | group hxs' => rw [Group.derives_unique hxs hxs']

/-- A source that is read has written the leaves of what was read. -/
theorem Source.Reads.writes {x : Source} {f : Filter} (h : x.Reads allowed f) :
    x.Writes allowed (f.leaves.map spelled) := by
  cases h with
  | field _ hsent h =>
    rw [Group.spelled_fieldFilter? h]
    exact .field hsent
  | group h =>
    obtain ⟨xs, hxs, htree⟩ := Group.derives_of_read h
    rw [Group.Term.spelled_nested? (.group _ xs) htree, Group.Term.gathered]
    exact .group hxs

theorem spelled_leavesOf (fs : List Filter) :
    (leavesOf fs).map spelled = (fs.map fun f => f.leaves.map spelled).flatten := by
  induction fs with
  | nil => rfl
  | cons f fs ih =>
    rw [leavesOf, List.map_append, ih]
    rfl

/-- **No occurrence is lost, doubled or moved.** -/
theorem spelled_leaves_of_parse {ps : Params} {f : Option Filter} (h : parse allowed ps = .ok f) :
    (∃ written, List.Forall₂ (Source.Writes allowed) (sources ps) written) ∧
      ∀ written, List.Forall₂ (Source.Writes allowed) (sources ps) written →
        (f.elim [] leaves).map spelled = written.flatten := by
  obtain ⟨parts, hparts, rfl⟩ := parse_eq_ok.mp h
  have hwritten : List.Forall₂ (Source.Writes allowed) (sources ps)
      (parts.map fun f => f.leaves.map spelled) :=
    List.forall₂_map_right_iff.mpr (hparts.imp fun _ _ h => h.writes)
  refine ⟨⟨_, hwritten⟩, fun written hw => ?_⟩
  rw [List.right_unique_forall₂' Source.Writes.unique hw hwritten, ← spelled_leavesOf]
  cases parts with
  | nil => rfl
  | cons part parts => rfl

/-- A page, a field with two values, and a group in which a field is repeated around a group. -/
def sifted : Params := [
  (['p', 'a', 'g', 'e'], .one (.text ['2'])),
  (['b'], .many [.text ['>', '1'], .text []]),
  (['n', 'o', 't'], .one (.text
    ['(', 'a', '=', '1', '|', 'o', 'r', '=', '(', 'b', '|', 'a', '=', '~', 'x', ')',
      '|', 'a', '=', '2', '.', '.', '3', ')']))]

theorem spelled_leaves_of_parse_sifted :
    ∃ f, parse [['a'], ['b']] sifted = .ok f ∧
      (f.elim [] leaves).map spelled = [
        (['b'], ['>', '1']), (['b'], []), (['a'], ['1']), (['a'], ['2', '.', '.', '3']),
        (['b'], []), (['a'], ['~', 'x'])] ∧
      (∃ written, List.Forall₂ (Source.Writes [['a'], ['b']]) (sources sifted) written) ∧
        ∀ written, List.Forall₂ (Source.Writes [['a'], ['b']]) (sources sifted) written →
          (f.elim [] leaves).map spelled = written.flatten :=
  ⟨_, rfl, rfl, spelled_leaves_of_parse rfl⟩

end Filter
end TableService
