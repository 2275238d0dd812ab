import Mathlib.Data.List.Forall2
import TableService.Sql.Compile
import TableService.Sql.Meaning
import TableService.Proofs.Outcomes

/-!
# What a filter means, and that compiling it keeps the meaning

A filter is read here **without its condition**: a predicate is a null test or a comparison of the
cell with its operands as they are bound, and the groups are the strong connectives over their
parts. The condition that the filter becomes has another shape: groups of one part are gone, groups
of one kind are spliced, and a negation has turned a test into its opposite. The main fact is

> a condition has **the truth value of its filter**, on every row and under every reading of cells.

Each of the three rewritings gets one lemma about truth values (`truth_conj`, `truth_disj`,
`truth_negate`), and the theorem is an induction over the tree that uses one of them at each node.

Not every filter becomes a condition. An order comparison and a pattern have no test with a null or
a boolean for an operand, unless the column is one of text, where an operand is a token
(`Predicate.IsTestable`); a filter that has such a predicate anywhere is an error as a whole.
-/

namespace TableService

open Sql

variable {κ : Type}

/-! ## 1. What a filter means -/

namespace Predicate

/-- For a predicate that asks about null, whether the cell has to be null. An equality with null
asks for it, an inequality with null against it. -/
def nullTest? : Predicate → Option Bool
  | .null holds => some holds
  | .compare .eq x => if x.literal = .null then some true else none
  | .compare .ne x => if x.literal = .null then some false else none
  | _ => none

/-- A predicate on a cell that is not null: the comparison with its operands as the column binds
them. A negated form is the negation of the form without it. -/
def compared (R : Reading κ) (c : Column) (x : κ) (p : Predicate) : Truth :=
  let bound := Sql.bind c.type.bindsText
  match p with
  | .null holds => .ofBool !holds
  | .compare r y => R.relate c x r (bound y)
  | .pattern caseless negated y =>
    if bound y = .null then .unknown
    else .negateIf negated (.ofBool (R.matchesPattern caseless c x (bound y)))
  | .among negated ys =>
    .negateIf negated (.any ((R.beside c (ys.map bound)).map (R.relate c x .eq)))
  | .between negated low high =>
    .negateIf negated ((R.relate c x .ge (bound low)).and (R.relate c x .le (bound high)))
  | .array t ys => .ofBool (R.array t c x (ys.map bound))

/-- The truth value of a predicate on a cell. Only a null test knows anything of a null cell. -/
def truth (R : Reading κ) (c : Column) (x : κ) (p : Predicate) : Truth :=
  match p.nullTest? with
  | some asked => .ofBool (R.isNull x == asked)
  | none => if R.isNull x then .unknown else p.compared R c x

/-- The operand that an order comparison or a pattern compares with. -/
def comparand? : Predicate → Option Operand
  | .compare .eq _ | .compare .ne _ => none
  | .compare _ x | .pattern _ _ x => some x
  | _ => none

/-- Whether a predicate has a test on a column that binds texts or not. -/
def IsTestable (text : Bool) (p : Predicate) : Prop :=
  ∀ x ∈ p.comparand?, text = true ∨ x.kind ∉ [Kind.null, .boolean]

instance (text : Bool) (p : Predicate) : Decidable (p.IsTestable text) :=
  inferInstanceAs (Decidable (∀ x ∈ p.comparand?, _))

end Predicate

namespace Filter

/-- Whether a table has a column for every field of a filter. -/
def Fits (table : Table) (f : Filter) : Prop :=
  ∀ leaf ∈ f.leaves, (table.column? leaf.1).isSome

instance (table : Table) (f : Filter) : Decidable (f.Fits table) :=
  inferInstanceAs (Decidable (∀ leaf ∈ f.leaves, (table.column? leaf.1).isSome))

/-- Whether every predicate of a filter has a test on its column. -/
def IsTestable (table : Table) (f : Filter) : Prop :=
  ∀ leaf ∈ f.leaves, ∀ c ∈ table.column? leaf.1, leaf.2.IsTestable c.type.bindsText

instance (table : Table) (f : Filter) : Decidable (f.IsTestable table) :=
  inferInstanceAs (Decidable (∀ leaf ∈ f.leaves, ∀ c ∈ table.column? leaf.1, _))

mutual

/-- The truth value of a filter on a row. A field without a column leaves its predicate unknown. -/
def truth (R : Reading κ) (table : Table) (row : Column → κ) : Filter → Truth
  | .test field p =>
    match table.column? field with
    | some c => p.truth R c (row c)
    | none => .unknown
  | .all parts => .all (truths R table row parts)
  | .any parts => .any (truths R table row parts)
  | .not part => (truth R table row part).not

/-- The truth values of several filters on a row. -/
def truths (R : Reading κ) (table : Table) (row : Column → κ) : List Filter → List Truth
  | [] => []
  | f :: fs => truth R table row f :: truths R table row fs

end

end Filter

namespace Sql

/-! ## 2. Opposites

`Test.opposite?` changes the operator and leaves the operands, so each arm has its own reason: an
order comparison has a complement because any two values stand in an order, and the others carry
their negation as a flag. -/

theorem holds_opposite (r : Relation) (o : Ordering) :
    (opposite r).holds o = !r.holds o := by
  cases r <;> cases o <;> rfl

@[simp] theorem Truth.negateIf_not (negated : Bool) (t : Truth) :
    Truth.negateIf (!negated) t = (Truth.negateIf negated t).not := by
  cases negated with
  | false => rfl
  | true => exact (Truth.not_not t).symm

theorem relate_opposite (R : Reading κ) (c : Column) (x : κ) (r : Relation) (l : Literal) :
    R.relate c x (opposite r) l = (R.relate c x r l).not := by
  unfold Reading.relate
  by_cases hl : l = .null
  · rw [if_pos hl, if_pos hl]
    rfl
  · rw [if_neg hl, if_neg hl, holds_opposite, Truth.not_ofBool]

/-- On a cell that is not null, the opposite of a test has the negated truth value. -/
theorem present_opposite {R : Reading κ} {c : Column} {x : κ} {t u : Test}
    (h : t.opposite? = some u) : R.present c x u = (R.present c x t).not := by
  cases t with
  | isNull negated =>
    cases h
    simp only [Reading.present, Truth.not_ofBool]
  | compare r l =>
    cases h
    exact relate_opposite R c x r l
  | equalsConstant negated b =>
    cases h
    cases negated with
    | false => exact relate_opposite R c x .eq (.boolean b)
    | true => exact relate_opposite R c x .ne (.boolean b)
  | among negated ls =>
    cases h
    exact Truth.negateIf_not negated _
  | between negated low high =>
    cases h
    exact Truth.negateIf_not negated _
  | like caseless negated l =>
    cases h
    simp only [Reading.present]
    split
    · rfl
    · rw [Truth.not_ofBool]
      congr 1
      cases negated <;> cases R.matchesPattern caseless c x l <;> rfl
  | array t ls => cases h

/-- **The opposite of a test is its negation**, on null cells too: there a null test flips and
every other test stays unknown. -/
theorem test_opposite {R : Reading κ} {c : Column} {x : κ} {t u : Test}
    (h : t.opposite? = some u) : R.test c x u = (R.test c x t).not := by
  unfold Reading.test
  cases hx : R.isNull x with
  | false => exact present_opposite h
  | true =>
    cases t with
    | isNull negated =>
      cases h
      exact (Truth.not_ofBool _).symm
    | array t ls => cases h
    -- No other test, and no opposite of one, knows anything of a null cell.
    | _ =>
      cases h
      rfl

/-! ## 3. The normal form

`Condition.conj`, `Condition.disj` and `Condition.negate` build another tree than the filter's, and
none of them changes a truth value. -/

namespace Condition

variable {R : Reading κ} {row : Column → κ}

theorem truthAll_eq (cs : List Condition) :
    truthAll R row cs = Truth.all (cs.map (truth R row)) := by
  induction cs with
  | nil => rfl
  | cons c cs ih =>
    rw [truthAll, ih]
    rfl

theorem truthAny_eq (cs : List Condition) :
    truthAny R row cs = Truth.any (cs.map (truth R row)) := by
  induction cs with
  | nil => rfl
  | cons c cs ih =>
    rw [truthAny, ih]
    rfl

/-- What a condition contributes to a conjunction says the same as the condition. -/
theorem all_conjuncts (c : Condition) :
    Truth.all (c.conjuncts.map (truth R row)) = truth R row c := by
  cases c with
  | all parts => rw [conjuncts, truth, truthAll_eq]
  | _ => exact Truth.and_yes _

theorem any_disjuncts (c : Condition) :
    Truth.any (c.disjuncts.map (truth R row)) = truth R row c := by
  cases c with
  | any parts => rw [disjuncts, truth, truthAny_eq]
  | _ => exact Truth.or_no _

/-- Splicing keeps the conjunction. -/
theorem all_flatMap_conjuncts (cs : List Condition) :
    Truth.all ((cs.flatMap conjuncts).map (truth R row)) = Truth.all (cs.map (truth R row)) := by
  induction cs with
  | nil => rfl
  | cons c cs ih =>
    rw [List.flatMap_cons, List.map_append, Truth.all_append, all_conjuncts, ih]
    rfl

theorem any_flatMap_disjuncts (cs : List Condition) :
    Truth.any ((cs.flatMap disjuncts).map (truth R row)) = Truth.any (cs.map (truth R row)) := by
  induction cs with
  | nil => rfl
  | cons c cs ih =>
    rw [List.flatMap_cons, List.map_append, Truth.any_append, any_disjuncts, ih]
    rfl

theorem truth_conj (cs : List Condition) :
    truth R row (conj cs) = Truth.all (cs.map (truth R row)) := by
  unfold conj
  split
  -- A single part stands for its group; otherwise the parts are spliced.
  · next c => exact (Truth.and_yes _).symm
  · rw [truth, truthAll_eq, all_flatMap_conjuncts]

theorem truth_disj (cs : List Condition) :
    truth R row (disj cs) = Truth.any (cs.map (truth R row)) := by
  unfold disj
  split
  · next c => exact (Truth.or_no _).symm
  · rw [truth, truthAny_eq, any_flatMap_disjuncts]

theorem truth_negate (c : Condition) : truth R row c.negate = (truth R row c).not := by
  cases c with
  | test column t =>
    rw [negate]
    split
    · next u hu =>
      exact test_opposite hu
    · rfl
  | _ => rfl

end Condition

/-! ## 4. Compiling -/

/-- An equality or inequality with an operand that is not null: a comparison with the bound operand,
since a constant is only another way to write a boolean, and unknown of a null cell. -/
theorem test_equality_of_ne_null {R : Reading κ} {c : Column} {x : κ} {text negated : Bool}
    {y : Operand} (hy : y.literal ≠ .null) :
    R.test c x (equality text negated y)
      = if R.isNull x then .unknown
        else R.relate c x (if negated then .ne else .eq) (bind text y) := by
  unfold equality Reading.test
  rw [if_neg hy]
  cases R.isNull x with
  | true => cases bind text y <;> rfl
  | false => cases bind text y <;> rfl

/-- The test of an equality or inequality, whatever its operand. -/
theorem test_equality (R : Reading κ) (c : Column) (x : κ) (negated : Bool) (y : Operand) :
    R.test c x (equality c.type.bindsText negated y)
      = (Predicate.compare (if negated then .ne else .eq) y).truth R c x := by
  -- An equality with null asks about null on both sides; every other one compares.
  by_cases hy : y.literal = .null
  · rw [equality, if_pos hy]
    cases negated <;> cases hx : R.isNull x <;>
      simp [Reading.test, Reading.present, Predicate.truth, Predicate.nullTest?, hy, hx]
  · have hasked : (Predicate.compare (if negated then .ne else .eq) y).nullTest? = none := by
      cases negated <;> simp [Predicate.nullTest?, hy]
    rw [test_equality_of_ne_null hy, Predicate.truth, hasked]
    rfl

theorem kind_mem_iff {x : Operand} :
    x.kind ∈ [Kind.null, .boolean] ↔ x.literal = .null ∨ ∃ b, x.literal = .boolean b := by
  unfold Operand.kind Literal.kind
  cases x.literal with
  | integer n => by_cases hn : n.natAbs > maxSafeInteger <;> simp [hn]
  | _ => simp

/-- An operand to compare with is bound as any other, unless it is null or a boolean beside a column
that is none of text. -/
theorem comparand_eq (text : Bool) (x : Operand) :
    comparand text x = if text = true ∨ x.kind ∉ [Kind.null, .boolean] then .ok (bind text x)
      else .error .incomparable := by
  unfold comparand
  cases text with
  | true => rw [if_pos (.inl rfl)]; rfl
  | false =>
    have hbind : bind false x = x.literal := rfl
    rw [hbind]
    cases hx : x.literal with
    | null => rw [if_neg (by simp [kind_mem_iff.mpr (.inl hx)])]
    | boolean b => rw [if_neg (by simp [kind_mem_iff.mpr (.inr ⟨b, hx⟩)])]
    | _ => rw [if_pos (.inr (by rw [kind_mem_iff, hx]; simp))]

/-- A predicate becomes a test exactly if it has one. -/
theorem compilePredicate_testable (text : Bool) (p : Predicate) :
    (p.IsTestable text → ∃ t, compilePredicate text p = .ok t) ∧
      (¬ p.IsTestable text → compilePredicate text p = .error .incomparable) := by
  have hcomparand (x : Operand) (f : Literal → Test) :
      ((∀ y ∈ some x, text = true ∨ y.kind ∉ [Kind.null, .boolean]) →
          ∃ t, (comparand text x).map f = .ok t) ∧
        (¬ (∀ y ∈ some x, text = true ∨ y.kind ∉ [Kind.null, .boolean]) →
          (comparand text x).map f = .error .incomparable) := by
    have hsome : (∀ y ∈ some x, text = true ∨ y.kind ∉ [Kind.null, .boolean]) ↔
        (text = true ∨ x.kind ∉ [Kind.null, .boolean]) := by simp
    rw [comparand_eq, hsome]
    split
    · next h => exact ⟨fun _ => ⟨_, rfl⟩, fun hnot => absurd h hnot⟩
    · next h => exact ⟨fun htest => absurd htest h, fun _ => rfl⟩
  have htestable (hnone : p.comparand? = none) : p.IsTestable text := by
    simp [Predicate.IsTestable, hnone]
  cases p with
  | compare r x =>
    cases r with
    | eq => exact ⟨fun _ => ⟨_, rfl⟩, fun h => absurd (htestable rfl) h⟩
    | ne => exact ⟨fun _ => ⟨_, rfl⟩, fun h => absurd (htestable rfl) h⟩
    | _ => exact hcomparand x _
  | pattern caseless negated x => exact hcomparand x _
  | _ => exact ⟨fun _ => ⟨_, rfl⟩, fun h => absurd (htestable rfl) h⟩

theorem map_comparand_eq_ok {text : Bool} {x : Operand} {f : Literal → Test} {t : Test}
    (h : (comparand text x).map f = .ok t) : t = f (bind text x) := by
  rw [comparand_eq] at h
  split at h
  · cases h
    rfl
  · cases h

/-- **The test that a predicate becomes has the truth value of the predicate.** Equality and
inequality are where the two differ in form; the other shapes keep theirs. -/
theorem test_compilePredicate (R : Reading κ) (c : Column) (x : κ) {p : Predicate} {t : Test}
    (h : compilePredicate c.type.bindsText p = .ok t) : R.test c x t = p.truth R c x := by
  cases p with
  | null holds =>
    cases h
    cases holds <;> cases hx : R.isNull x <;>
      simp [Reading.test, Reading.present, Predicate.truth, Predicate.nullTest?, hx]
  | compare r y =>
    cases r with
    | eq =>
      cases h
      exact test_equality R c x false y
    | ne =>
      cases h
      exact test_equality R c x true y
    | _ =>
      rw [map_comparand_eq_ok h]
      rfl
  | pattern caseless negated y =>
    rw [map_comparand_eq_ok h]
    unfold Predicate.truth Reading.test
    cases R.isNull x with
    | true => rfl
    | false =>
      simp only [Reading.present, Predicate.nullTest?, Predicate.compared]
      cases negated <;> cases R.matchesPattern caseless c x (bind c.type.bindsText y) <;> rfl
  | among negated ys =>
    cases h
    rfl
  | between negated low high =>
    cases h
    rfl
  | array test ys =>
    cases h
    rfl

end Sql

/-! ## 5. The whole tree -/

namespace Filter

theorem fits_test {table : Table} {field : Text} {p : Predicate} :
    (test field p).Fits table ↔ ∃ c, table.column? field = some c := by
  simp [Fits, leaves, Option.isSome_iff_exists]

theorem compile_all (table : Table) (fs : List Filter) :
    Sql.compile table (.all fs) = (Sql.compileAll table fs).map Condition.conj := by
  rw [Sql.compile]
  cases Sql.compileAll table fs <;> rfl

theorem compile_any (table : Table) (fs : List Filter) :
    Sql.compile table (.any fs) = (Sql.compileAll table fs).map Condition.disj := by
  rw [Sql.compile]
  cases Sql.compileAll table fs <;> rfl

theorem compile_not (table : Table) (f : Filter) :
    Sql.compile table (.not f) = (Sql.compile table f).map Condition.negate := by
  rw [Sql.compile]
  cases Sql.compile table f <;> rfl

/-- What holds of filters and the conditions that they become, if it does so node by node. -/
structure IsInductive (table : Table) (P : Filter → Condition → Prop) : Prop where
  test {field : Text} {p : Predicate} {c : Column} {t : Test} (hc : table.column? field = some c)
    (ht : compilePredicate c.type.bindsText p = .ok t) : P (.test field p) (.test c t)
  all {fs : List Filter} {cs : List Condition} (h : List.Forall₂ P fs cs) :
    P (.all fs) (Condition.conj cs)
  any {fs : List Filter} {cs : List Condition} (h : List.Forall₂ P fs cs) :
    P (.any fs) (Condition.disj cs)
  not {f : Filter} {c : Condition} (h : P f c) : P (.not f) c.negate

mutual

theorem IsInductive.of_compile {table : Table} {P : Filter → Condition → Prop}
    (hP : IsInductive table P) : ∀ (f : Filter) {c : Condition},
      Sql.compile table f = .ok c → P f c
  | .test field p, c, h => by
    rw [Sql.compile] at h
    split at h
    · cases h
    · next column hcolumn =>
      obtain ⟨t, ht, rfl⟩ := Outcome.map_eq_ok.mp h
      exact hP.test hcolumn ht
  | .all parts, c, h => by
    rw [Sql.compile] at h
    split at h
    · cases h
    · next cs hcs =>
      cases h
      exact hP.all (hP.of_compileAll parts hcs)
  | .any parts, c, h => by
    rw [Sql.compile] at h
    split at h
    · cases h
    · next cs hcs =>
      cases h
      exact hP.any (hP.of_compileAll parts hcs)
  | .not part, c, h => by
    rw [Sql.compile] at h
    split at h
    · cases h
    · next d hd =>
      cases h
      exact hP.not (hP.of_compile part hd)

theorem IsInductive.of_compileAll {table : Table} {P : Filter → Condition → Prop}
    (hP : IsInductive table P) : ∀ (fs : List Filter) {cs : List Condition},
      Sql.compileAll table fs = .ok cs → List.Forall₂ P fs cs
  | [], cs, h => by
    cases h
    exact .nil
  | f :: fs, cs, h => by
    rw [Sql.compileAll] at h
    split at h
    · cases h
    · next c hc =>
      split at h
      · cases h
      · next ds hds =>
        cases h
        exact .cons (hP.of_compile f hc) (hP.of_compileAll fs hds)

end

/-- **What a filter compiled to has its truth value.** At a leaf this is the lemma about tests, at a
node the lemma about the constructor of conditions that the node calls. -/
theorem truth_of_compile (R : Reading κ) {table : Table} (row : Column → κ) (f : Filter)
    {c : Condition} (h : Sql.compile table f = .ok c) : c.truth R row = f.truth R table row := by
  have hparts {fs : List Filter} {cs : List Condition}
      (h : List.Forall₂ (fun f c => Condition.truth R row c = f.truth R table row) fs cs) :
      cs.map (Condition.truth R row) = truths R table row fs := by
    induction h with
    | nil => rfl
    | cons hf _ ih => rw [List.map_cons, hf, ih, truths]
  have hP : IsInductive table fun f c => Condition.truth R row c = f.truth R table row := {
    test := fun {field p c t} hc ht => by
      rw [truth, hc, Condition.truth]
      exact test_compilePredicate R c (row c) ht
    all := fun h => by rw [Condition.truth_conj, hparts h, truth]
    any := fun h => by rw [Condition.truth_disj, hparts h, truth]
    not := fun h => by rw [Condition.truth_negate, h, truth] }
  exact hP.of_compile f h

/-- What is decided by a property is decided by it after a further step, too. -/
theorem decided_map {α β : Type} {A : Prop} {x : Except QueryFault α} {e : QueryFault} (f : α → β)
    (h : (A → ∃ a, x = .ok a) ∧ (¬ A → x = .error e)) :
    (A → ∃ b, x.map f = .ok b) ∧ (¬ A → x.map f = .error e) := by
  refine ⟨fun hA => ?_, fun hA => ?_⟩
  · obtain ⟨a, ha⟩ := h.1 hA
    exact ⟨f a, by rw [ha]; rfl⟩
  · rw [h.2 hA]
    rfl

mutual

/-- On a table that has its columns, a filter compiles exactly if every predicate has a test. -/
theorem compile_testable {table : Table} : ∀ f : Filter, f.Fits table →
    (f.IsTestable table → ∃ c, Sql.compile table f = .ok c) ∧
      (¬ f.IsTestable table → Sql.compile table f = .error .incomparable)
  | .test field p, h => by
    obtain ⟨c, hc⟩ := fits_test.mp h
    have htestable : (test field p).IsTestable table ↔ p.IsTestable c.type.bindsText := by
      simp [IsTestable, leaves, hc]
    rw [htestable, Sql.compile, hc]
    exact decided_map _ (compilePredicate_testable c.type.bindsText p)
  | .all parts, h => compile_all table parts ▸ decided_map _ (compileAll_testable parts h)
  | .any parts, h => compile_any table parts ▸ decided_map _ (compileAll_testable parts h)
  | .not part, h => compile_not table part ▸ decided_map _ (compile_testable part h)

theorem compileAll_testable {table : Table} : ∀ fs : List Filter,
    (∀ leaf ∈ leavesOf fs, (table.column? leaf.1).isSome) →
      ((∀ leaf ∈ leavesOf fs, ∀ c ∈ table.column? leaf.1, leaf.2.IsTestable c.type.bindsText) →
        ∃ cs, Sql.compileAll table fs = .ok cs) ∧
      (¬ (∀ leaf ∈ leavesOf fs, ∀ c ∈ table.column? leaf.1,
          leaf.2.IsTestable c.type.bindsText) →
        Sql.compileAll table fs = .error .incomparable)
  | [], _ => ⟨fun _ => ⟨[], rfl⟩, fun h => absurd (fun _ hl => absurd hl List.not_mem_nil) h⟩
  | f :: fs, h => by
    obtain ⟨hf, hfs⟩ := List.forall_mem_append.mp h
    obtain ⟨hok, herror⟩ := compile_testable f hf
    obtain ⟨hokAll, herrorAll⟩ := compileAll_testable fs hfs
    rw [leavesOf, List.forall_mem_append, Sql.compileAll]
    constructor
    · rintro ⟨hfirst, hrest⟩
      obtain ⟨c, hc⟩ := hok hfirst
      obtain ⟨cs, hcs⟩ := hokAll hrest
      exact ⟨c :: cs, by rw [hc, hcs]⟩
    -- The first predicate without a test is met in the first filter, or it is met in the others.
    · intro hnot
      by_cases hfirst : f.IsTestable table
      · obtain ⟨c, hc⟩ := hok hfirst
        rw [hc, herrorAll fun hrest => hnot ⟨hfirst, hrest⟩]
      · rw [herror hfirst]

end

/-- **Compiling keeps the meaning.** Take a table with the columns of a filter. If every predicate
of the filter has a test on its column, the filter becomes a condition, and under every reading of
cells the condition has on every row the truth value that the filter has there by itself. If a
predicate has none, the filter becomes nothing, and that is the error. -/
theorem compile_preserves_truth {table : Table} {f : Filter} (h : f.Fits table) :
    (f.IsTestable table → ∃ c, Sql.compile table f = .ok c ∧
      ∀ (κ : Type) (R : Reading κ) (row : Column → κ), c.truth R row = f.truth R table row) ∧
    (¬ f.IsTestable table → Sql.compile table f = .error .incomparable) := by
  obtain ⟨hok, herror⟩ := compile_testable f h
  refine ⟨fun htestable => ?_, herror⟩
  obtain ⟨c, hc⟩ := hok htestable
  exact ⟨c, hc, fun _ R row => truth_of_compile R row f hc⟩

/-- A table with a number column and a text column. -/
def ledger : Table where
  name := ['l']
  columns := [
    ⟨['n'], .integer, false, true, none, none, none, false⟩,
    ⟨['t'], .text, false, true, none, none, none, false⟩]

/-- A negated disjunction in which a group of one part, a group to splice and two null tests
meet. -/
def tangled : Filter :=
  .not (.any [
    .all [.not (.test ['n'] (.compare .gt ⟨.integer 5, ['5']⟩))],
    .any [.test ['t'] (.compare .ne ⟨.null, ['N', 'U', 'L', 'L']⟩), .test ['n'] (.null true)]])

/-- A token that spells a boolean is compared with the text column, and the boolean with the other
one. -/
def mixedUp : Filter :=
  let yes : Operand := ⟨.boolean true, ['t', 'r', 'u', 'e']⟩
  .all [.test ['t'] (.compare .gt yes), .test ['n'] (.pattern true false yes)]

theorem compile_preserves_truth_tangled :
    ((tangled.Fits ledger ∧ tangled.IsTestable ledger) ∧ ∃ c, Sql.compile ledger tangled = .ok c ∧
      ∀ (κ : Type) (R : Reading κ) (row : Column → κ),
        c.truth R row = tangled.truth R ledger row) ∧
    (mixedUp.Fits ledger ∧ ¬ mixedUp.IsTestable ledger) ∧
      Sql.compile ledger mixedUp = .error .incomparable :=
  ⟨⟨by decide, (compile_preserves_truth (by decide)).1 (by decide)⟩, by decide,
    (compile_preserves_truth (by decide)).2 (by decide)⟩

end Filter
end TableService
