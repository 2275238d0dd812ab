import Mathlib.Data.List.Forall2
import TableService.Proofs.FilterMeaning
import TableService.Sql.Statement

/-!
# The text of a statement

A filter comes from a request, and the statement it is printed as goes to the store. This file is
about the text of that statement:

> filters of **one shape** are printed as one text, in each dialect and on every table.

The shape is what is left of a filter when no more is kept of an operand than its kind, and of a
boolean which of the two it is, because a boolean may be printed as a constant. A null test has a
boolean operand too: whether the column has to be null.

The proof goes through blanks. A condition whose literals are blanked out is the same for filters
of one shape, since the smart constructors splice and flip without a look at a literal; and printing
looks at no more of a literal than whether it is null, which an array writes out.
-/

namespace TableService

open Sql

/-! ## 1. Shapes -/

namespace Operand

/-- Which boolean an operand is, if it is one. -/
def boolean? (x : Operand) : Option Bool :=
  match x.literal with
  | .boolean b => some b
  | _ => none

/-- Two operands of one kind; booleans are equal. -/
def Alike (x y : Operand) : Prop := x.kind = y.kind ∧ x.boolean? = y.boolean?

instance (x y : Operand) : Decidable (x.Alike y) :=
  inferInstanceAs (Decidable (_ ∧ _))

theorem kind_eq_null_iff {x : Operand} : x.kind = .null ↔ x.literal = .null := by
  unfold kind Literal.kind
  cases x.literal with
  | integer n => by_cases hn : n.natAbs > maxSafeInteger <;> simp [hn]
  | _ => simp

theorem Alike.null_iff {x y : Operand} (h : x.Alike y) : x.literal = .null ↔ y.literal = .null := by
  rw [← kind_eq_null_iff, h.1, kind_eq_null_iff]

theorem boolean?_eq_some_iff {x : Operand} {b : Bool} :
    x.boolean? = some b ↔ x.literal = .boolean b := by
  unfold boolean?
  cases x.literal <;> simp

end Operand

/-- Two predicates with the same operator, on as many operands, which are pairwise alike. What a
null test asks for is its operand. -/
inductive Predicate.SameShape : Predicate → Predicate → Prop where
  | null (holds : Bool) : SameShape (.null holds) (.null holds)
  | compare (r : Relation) {x y : Operand} (h : x.Alike y) :
      SameShape (.compare r x) (.compare r y)
  | pattern (caseless negated : Bool) {x y : Operand} (h : x.Alike y) :
      SameShape (.pattern caseless negated x) (.pattern caseless negated y)
  | among (negated : Bool) {xs ys : List Operand} (h : List.Forall₂ Operand.Alike xs ys) :
      SameShape (.among negated xs) (.among negated ys)
  | between (negated : Bool) {x y x' y' : Operand} (low : x.Alike y) (high : x'.Alike y') :
      SameShape (.between negated x x') (.between negated y y')
  | array (test : ArrayTest) {xs ys : List Operand} (h : List.Forall₂ Operand.Alike xs ys) :
      SameShape (.array test xs) (.array test ys)

namespace Filter

mutual

/-- Two filters with the same connectives, fields and operators, and operands that are alike. -/
def SameShape : Filter → Filter → Prop
  | .test field p, .test field' q => field = field' ∧ p.SameShape q
  | .all fs, .all gs => SameShapes fs gs
  | .any fs, .any gs => SameShapes fs gs
  | .not f, .not g => SameShape f g
  | _, _ => False

/-- Filters that have pairwise the same shape. -/
def SameShapes : List Filter → List Filter → Prop
  | [], [] => True
  | f :: fs, g :: gs => SameShape f g ∧ SameShapes fs gs
  | _, _ => False

end

end Filter

/-! ## 2. Blanks -/

/-- A literal of which only whether it is null is left. -/
def Literal.blank (x : Literal) : Literal := if x = .null then .null else .boolean false

theorem Literal.blank_eq_null_iff {x : Literal} : x.blank = .null ↔ x = .null := by
  unfold blank
  split
  · next h => simp [h]
  · next h => simp [h]

namespace Sql

/-- A test with its literals blanked out. -/
def Test.blank : Test → Test
  | .compare r x => .compare r x.blank
  | .among negated xs => .among negated (xs.map Literal.blank)
  | .between negated low high => .between negated low.blank high.blank
  | .like caseless negated x => .like caseless negated x.blank
  | .array t xs => .array t (xs.map Literal.blank)
  | .isNull negated => .isNull negated
  | .equalsConstant negated b => .equalsConstant negated b

theorem Test.opposite?_blank (t : Test) : t.blank.opposite? = t.opposite?.map Test.blank := by
  cases t <;> rfl

/-- A piece with its literal blanked out. -/
def Piece.blank : Piece → Piece
  | .slot x => .slot x.blank
  | p => p

namespace Condition

mutual

/-- A condition with its literals blanked out. -/
def blank : Condition → Condition
  | .test c t => .test c t.blank
  | .all parts => .all (blanks parts)
  | .any parts => .any (blanks parts)
  | .not part => .not (blank part)

/-- Conditions with their literals blanked out. -/
def blanks : List Condition → List Condition
  | [] => []
  | c :: cs => blank c :: blanks cs

end

theorem blanks_eq_map (cs : List Condition) : blanks cs = cs.map blank := by
  induction cs with
  | nil => rfl
  | cons c cs ih => rw [blanks, ih, List.map_cons]

theorem conjuncts_blank (c : Condition) : c.blank.conjuncts = c.conjuncts.map blank := by
  cases c with
  | all parts => rw [blank, conjuncts, conjuncts, blanks_eq_map]
  | _ => rfl

theorem disjuncts_blank (c : Condition) : c.blank.disjuncts = c.disjuncts.map blank := by
  cases c with
  | any parts => rw [blank, disjuncts, disjuncts, blanks_eq_map]
  | _ => rfl

/-- Splicing and blanking out commute. -/
theorem blanks_flatMap_conjuncts (cs : List Condition) :
    blanks (cs.flatMap conjuncts) = (cs.map blank).flatMap conjuncts := by
  induction cs with
  | nil => rfl
  | cons c cs ih =>
    rw [List.flatMap_cons, blanks_eq_map, List.map_append, ← blanks_eq_map (cs.flatMap _), ih,
      ← conjuncts_blank, List.map_cons, List.flatMap_cons]

theorem blanks_flatMap_disjuncts (cs : List Condition) :
    blanks (cs.flatMap disjuncts) = (cs.map blank).flatMap disjuncts := by
  induction cs with
  | nil => rfl
  | cons c cs ih =>
    rw [List.flatMap_cons, blanks_eq_map, List.map_append, ← blanks_eq_map (cs.flatMap _), ih,
      ← disjuncts_blank, List.map_cons, List.flatMap_cons]

theorem blank_conj : ∀ cs : List Condition, (conj cs).blank = conj (cs.map blank)
  | [] => rfl
  | [_] => rfl
  | c :: c' :: cs => congrArg Condition.all (blanks_flatMap_conjuncts (c :: c' :: cs))

theorem blank_disj : ∀ cs : List Condition, (disj cs).blank = disj (cs.map blank)
  | [] => rfl
  | [_] => rfl
  | c :: c' :: cs => congrArg Condition.any (blanks_flatMap_disjuncts (c :: c' :: cs))

theorem blank_negate (c : Condition) : c.negate.blank = c.blank.negate := by
  cases c with
  | test column t =>
    rw [negate, blank, negate, Test.opposite?_blank]
    cases t.opposite? <;> rfl
  | _ => rfl

mutual

theorem hasArrayTest_blank : ∀ c : Condition, c.blank.hasArrayTest = c.hasArrayTest
  | .test c t => by cases t <;> rfl
  | .all parts => by rw [blank, hasArrayTest, hasArrayTest, anyHasArrayTest_blanks]
  | .any parts => by rw [blank, hasArrayTest, hasArrayTest, anyHasArrayTest_blanks]
  | .not part => by rw [blank, hasArrayTest, hasArrayTest, hasArrayTest_blank]

theorem anyHasArrayTest_blanks :
    ∀ cs : List Condition, anyHasArrayTest (blanks cs) = anyHasArrayTest cs
  | [] => rfl
  | c :: cs => by
    rw [blanks, anyHasArrayTest, anyHasArrayTest, hasArrayTest_blank, anyHasArrayTest_blanks]

end

end Condition

theorem supports_blank (d : Dialect) (c : Condition) : d.supports c.blank = d.supports c := by
  cases d with
  | postgresql => rfl
  | sqlite => exact congrArg (!·) (Condition.hasArrayTest_blank c)

/-! ## 3. Filters of one shape become conditions that are equal up to blanks -/

theorem blank_bind_of_alike {text : Bool} {x y : Operand} (h : x.Alike y) :
    (bind text x).blank = (bind text y).blank := by
  cases text with
  | true => rfl
  | false =>
    show x.literal.blank = y.literal.blank
    unfold Literal.blank
    by_cases hx : x.literal = .null
    · rw [if_pos hx, if_pos (h.null_iff.mp hx)]
    · rw [if_neg hx, if_neg (mt h.null_iff.mpr hx)]

theorem blanks_bind_of_alike {text : Bool} {xs ys : List Operand}
    (h : List.Forall₂ Operand.Alike xs ys) :
    (xs.map (bind text)).map Literal.blank = (ys.map (bind text)).map Literal.blank := by
  induction h with
  | nil => rfl
  | cons hxy _ ih =>
    rw [List.map_cons, List.map_cons, List.map_cons, List.map_cons, blank_bind_of_alike hxy, ih]

/-- An equality as a comparison, unless its operand is null or is printed as a constant. -/
theorem equality_of_ne_boolean {text negated : Bool} {x : Operand} (hnull : x.literal ≠ .null)
    (hbool : text = true ∨ x.boolean? = none) :
    equality text negated x = .compare (if negated then .ne else .eq) (bind text x) := by
  unfold equality
  rw [if_neg hnull]
  cases text with
  | true => rfl
  | false =>
    have hx : x.boolean? = none := by simpa using hbool
    unfold Operand.boolean? at hx
    show (match x.literal with
      | .boolean b => Test.equalsConstant negated b
      | l => .compare (if negated then .ne else .eq) l) = .compare _ x.literal
    cases hl : x.literal with
    | boolean b => simp [hl] at hx
    | _ => rfl

theorem equality_of_boolean {negated b : Bool} {x : Operand} (h : x.boolean? = some b) :
    equality false negated x = .equalsConstant negated b := by
  have hx : x.literal = .boolean b := Operand.boolean?_eq_some_iff.mp h
  unfold equality
  rw [if_neg (by rw [hx]; simp)]
  show (match x.literal with
    | .boolean b => Test.equalsConstant negated b
    | l => .compare (if negated then .ne else .eq) l) = _
  rw [hx]

theorem blank_equality_of_alike {text negated : Bool} {x y : Operand} (h : x.Alike y) :
    (equality text negated x).blank = (equality text negated y).blank := by
  by_cases hx : x.literal = .null
  · have hy : y.literal = .null := h.null_iff.mp hx
    rw [equality, equality, if_pos hx, if_pos hy]
  · have hy : y.literal ≠ .null := mt h.null_iff.mpr hx
    by_cases hbool : text = true ∨ x.boolean? = none
    · have hbool' : text = true ∨ y.boolean? = none := h.2 ▸ hbool
      rw [equality_of_ne_boolean hx hbool, equality_of_ne_boolean hy hbool', Test.blank, Test.blank,
        blank_bind_of_alike h]
    · obtain ⟨htext, hsome⟩ := not_or.mp hbool
      obtain ⟨b, hb⟩ := Option.ne_none_iff_exists'.mp hsome
      have htext : text = false := by simpa using htext
      subst htext
      rw [equality_of_boolean hb, equality_of_boolean (h.2 ▸ hb)]

/-- Operands that are alike are both compared with, or neither is. -/
theorem blank_comparand_of_alike {text : Bool} {x y : Operand} {f : Literal → Test}
    (hf : ∀ {l l' : Literal}, l.blank = l'.blank → (f l).blank = (f l').blank) (h : x.Alike y) :
    ((comparand text x).map f).map Test.blank = ((comparand text y).map f).map Test.blank := by
  rw [comparand_eq, comparand_eq, h.1]
  split
  · exact congrArg Except.ok (hf (blank_bind_of_alike h))
  · rfl

/-- Predicates of one shape become tests that are equal up to blanks, or neither becomes one. -/
theorem blank_compilePredicate {text : Bool} {p q : Predicate} (h : p.SameShape q) :
    (compilePredicate text p).map Test.blank = (compilePredicate text q).map Test.blank := by
  cases h with
  | null holds => rfl
  | compare r h =>
    cases r with
    | eq => exact congrArg Except.ok (blank_equality_of_alike h)
    | ne => exact congrArg Except.ok (blank_equality_of_alike h)
    | _ => exact blank_comparand_of_alike (fun hl => congrArg (Test.compare _) hl) h
  | pattern caseless negated h =>
    exact blank_comparand_of_alike (fun hl => congrArg (Test.like caseless negated) hl) h
  | among negated h =>
    exact congrArg (Except.ok ∘ Test.among negated) (blanks_bind_of_alike h)
  | between negated low high =>
    exact congrArg Except.ok
      (congrArg₂ (Test.between negated) (blank_bind_of_alike low) (blank_bind_of_alike high))
  | array test h => exact congrArg (Except.ok ∘ Test.array test) (blanks_bind_of_alike h)

end Sql

namespace Filter

/-- What commutes with blanking out does so inside an answer. -/
theorem map_map_of_comm {α β : Type} {f : α → β} {g : α → α} {g' : β → β}
    (h : ∀ a, g' (f a) = f (g a)) (x : Except QueryFault α) :
    (x.map f).map g' = (x.map g).map f := by
  cases x with
  | error e => rfl
  | ok a => exact congrArg Except.ok (h a)

mutual

/-- **Filters of one shape become conditions that are equal up to blanks**, or none of them
becomes one, for the same reason. -/
theorem blank_compile (table : Table) :
    ∀ f g : Filter, f.SameShape g →
      (Sql.compile table f).map Condition.blank = (Sql.compile table g).map Condition.blank
  | .test field p, .test field' q, h => by
    obtain ⟨rfl, hpq⟩ := h
    rw [Sql.compile, Sql.compile]
    cases table.column? field with
    | none => rfl
    | some c =>
      have hmap (x : Except QueryFault Test) :
          (x.map (Condition.test c)).map Condition.blank
            = (x.map Test.blank).map (Condition.test c) := by cases x <;> rfl
      dsimp only
      rw [hmap, hmap, blank_compilePredicate hpq]
  | .all fs, .all gs, h => by
    rw [compile_all, compile_all, map_map_of_comm Condition.blank_conj,
      map_map_of_comm Condition.blank_conj, blank_compileAll table fs gs h]
  | .any fs, .any gs, h => by
    rw [compile_any, compile_any, map_map_of_comm Condition.blank_disj,
      map_map_of_comm Condition.blank_disj, blank_compileAll table fs gs h]
  | .not f, .not g, h => by
    rw [compile_not, compile_not, map_map_of_comm Condition.blank_negate,
      map_map_of_comm Condition.blank_negate, blank_compile table f g h]

theorem blank_compileAll (table : Table) :
    ∀ fs gs : List Filter, SameShapes fs gs →
      (Sql.compileAll table fs).map (List.map Condition.blank)
        = (Sql.compileAll table gs).map (List.map Condition.blank)
  | [], [], _ => rfl
  | f :: fs, g :: gs, ⟨hfg, hrest⟩ => by
    have head := blank_compile table f g hfg
    have tail := blank_compileAll table fs gs hrest
    rw [Sql.compileAll, Sql.compileAll]
    cases hf : Sql.compile table f <;> cases hg : Sql.compile table g <;> rw [hf, hg] at head
    · exact congrArg Except.error (Except.error.inj head)
    · cases head
    · cases head
    · have hblank := Except.ok.inj head
      cases hfs : Sql.compileAll table fs <;> cases hgs : Sql.compileAll table gs <;>
        rw [hfs, hgs] at tail
      · exact congrArg Except.error (Except.error.inj tail)
      · cases tail
      · cases tail
      · exact congrArg Except.ok (congrArg₂ List.cons hblank (Except.ok.inj tail))

end

end Filter

/-! ## 4. Printing sees no more than blanks -/

namespace Sql

theorem map_blank_separated (sep : String) : ∀ pss : List (List Piece),
    (separated sep pss).map Piece.blank = separated sep (pss.map (List.map Piece.blank))
  | [] => rfl
  | [_] => rfl
  | ps :: qs :: pss => by
    rw [separated, List.map_append, List.map_append, map_blank_separated sep (qs :: pss)]
    rfl

theorem map_blank_slots (xs : List Literal) :
    (slots xs).map Piece.blank = slots (xs.map Literal.blank) := by
  unfold slots
  rw [map_blank_separated, List.map_map, List.map_map]
  rfl

theorem map_blank_arraySlots (xs : List Literal) :
    (arraySlots xs).map Piece.blank = arraySlots (xs.map Literal.blank) := by
  unfold arraySlots
  rw [map_blank_separated, List.map_map, List.map_map]
  congr 2
  funext x
  by_cases hx : x = .null
  · simp [hx, Literal.blank, w, Piece.blank]
  · have hb : x.blank ≠ .null := mt Literal.blank_eq_null_iff.mp hx
    simp [hx, hb, Piece.blank]

theorem testPieces_blank (d : Dialect) {x : List Piece} (hx : x.map Piece.blank = x) (t : Test) :
    testPieces d x t.blank = (testPieces d x t).map Piece.blank := by
  cases t with
  | isNull negated => cases negated <;> simp [Test.blank, testPieces, hx, w, Piece.blank]
  | compare r l => simp [Test.blank, testPieces, hx, w, Piece.blank]
  | equalsConstant negated b => simp [Test.blank, testPieces, hx, w, Piece.blank]
  | among negated ls =>
    cases negated <;> simp [Test.blank, testPieces, hx, w, Piece.blank, map_blank_slots]
  | between negated low high =>
    cases negated <;> simp [Test.blank, testPieces, hx, w, Piece.blank]
  | like caseless negated l =>
    cases caseless <;> cases negated <;> cases d <;>
      simp [Test.blank, testPieces, hx, w, Piece.blank]
  | array t ls =>
    cases t <;> simp [Test.blank, testPieces, hx, w, Piece.blank, map_blank_arraySlots]

theorem needsParens_blank (p : Position) (c : Condition) :
    needsParens p c.blank = needsParens p c := by
  cases c with
  | test column t => cases t <;> rfl
  | _ => rfl

mutual

/-- A condition without its literals is printed as the condition is, without them. -/
theorem barePieces_blank (d : Dialect) (table : Table) :
    ∀ c : Condition, barePieces d table c.blank = (barePieces d table c).map Piece.blank
  | .test c t => by
    rw [Condition.blank, barePieces, barePieces]
    exact testPieces_blank d rfl t
  | .all parts => by
    rw [Condition.blank, barePieces, barePieces, operands_blanks, map_blank_separated]
  | .any parts => by
    rw [Condition.blank, barePieces, barePieces, operands_blanks, map_blank_separated]
  | .not part => by
    rw [Condition.blank, barePieces, barePieces, barePieces_blank]
    simp [w, Piece.blank]

theorem operands_blanks (d : Dialect) (table : Table) (p : Position) :
    ∀ cs : List Condition,
      operands d table p (Condition.blanks cs) = (operands d table p cs).map (List.map Piece.blank)
  | [] => rfl
  | c :: cs => by
    rw [Condition.blanks, operands, operands, needsParens_blank, barePieces_blank, operands_blanks]
    cases needsParens p c <;> simp [w, Piece.blank]

end

/-- What stands in a slot is no part of the text. -/
theorem textOf_map_blank (d : Dialect) (ps : List Piece) :
    textOf d (ps.map Piece.blank) = textOf d ps := by
  unfold textOf
  rw [List.flatMap_map]
  congr 1
  funext p
  cases p <;> rfl

/-- The text of a condition, if the dialect has a form for it. -/
def Condition.text? (d : Dialect) (table : Table) (c : Condition) : Option Text :=
  if d.supports c then some (textOf d (conditionPieces d table c)) else none

theorem Condition.text?_blank (d : Dialect) (table : Table) (c : Condition) :
    c.blank.text? d table = c.text? d table := by
  unfold text? conditionPieces
  rw [supports_blank, barePieces_blank, textOf_map_blank]

end Sql

namespace Filter

/-- The text a filter is printed as on a table, unless a field of it has no column. There is none
in a dialect without a form for the filter. -/
def text? (d : Sql.Dialect) (table : Table) (f : Filter) : Except QueryFault (Option Text) :=
  (Sql.compile table f).map (Condition.text? d table)

/-- **Filters of one shape have one text.** -/
theorem text?_eq_of_sameShape (d : Sql.Dialect) (table : Table) {f g : Filter}
    (h : f.SameShape g) : f.text? d table = g.text? d table := by
  have hblank (x : Except QueryFault Condition) :
      x.map (Condition.text? d table) = (x.map Condition.blank).map (Condition.text? d table) := by
    cases x with
    | error e => rfl
    | ok c => exact congrArg Except.ok (Condition.text?_blank d table c).symm
  unfold text?
  rw [hblank, blank_compile table f g h, ← hblank]

end Filter
end TableService
