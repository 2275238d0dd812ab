import TableService.Proofs.StatementShape

/-!
# The parameters of a statement

What the operands of a filter spell is found in the parameters of its statement:

> the parameters are, **leaf by leaf and operand by operand**, the token on a text column and the
> literal on any other, without the operands that are printed as words.

Three kinds of operands are printed as words: a null beside an equality, which becomes a null test;
a boolean beside an equality on a column that is no text column, which becomes a constant; and a
null in an array of such a column. On a text column a token is a token, also `true` or `null`.

Two readings meet at the literals of a condition. They are what is found in the slots of the printed
condition, and they are what the leaves of the filter send, because splicing and negating move no
literal.
-/

namespace TableService

open Sql

/-! ## 1. What a filter sends -/

namespace Predicate

/-- Whether an operand of a predicate is printed as words. -/
def omits (text : Bool) (p : Predicate) (x : Operand) : Bool :=
  match p with
  | .compare .eq _ | .compare .ne _ => x.kind == .null || (!text && x.kind == .boolean)
  | .array _ _ => !text && x.kind == .null
  | _ => false

/-- What a predicate sends of its operands, for a column that binds texts or not. -/
def sent (text : Bool) (p : Predicate) : List Literal :=
  (p.operands.filter fun x => !p.omits text x).map fun x =>
    if text then .text x.token else x.literal

end Predicate

namespace Filter

/-- What a leaf of a filter sends. -/
def sentBy (table : Table) (leaf : Text × Predicate) : List Literal :=
  match table.column? leaf.1 with
  | some c => leaf.2.sent c.type.bindsText
  | none => []

/-- What a filter sends of its operands, leaf by leaf. -/
def sent (table : Table) (f : Filter) : List Literal := f.leaves.flatMap (sentBy table)

end Filter

namespace Sql

/-! ## 2. Parameters of conditions -/

/-- The literals of a test that go into slots. -/
def Test.literals : Test → List Literal
  | .isNull _ | .equalsConstant _ _ => []
  | .compare _ x | .like _ _ x => [x]
  | .among _ xs => xs
  | .between _ low high => [low, high]
  | .array _ xs => xs.filter (· ≠ .null)

theorem Test.literals_of_opposite? {t u : Test} (h : t.opposite? = some u) :
    u.literals = t.literals := by
  cases t <;> cases h <;> rfl

theorem parametersOf_append (ps qs : List Piece) :
    parametersOf (ps ++ qs) = parametersOf ps ++ parametersOf qs :=
  List.filterMap_append

theorem parametersOf_w (s : String) : parametersOf (w s) = [] := rfl

theorem parametersOf_separated (sep : String) : ∀ pss : List (List Piece),
    parametersOf (separated sep pss) = pss.flatMap parametersOf
  | [] => rfl
  | [ps] => (List.append_nil _).symm
  | ps :: qs :: pss => by
    rw [separated, parametersOf_append, parametersOf_append, parametersOf_w, List.append_nil,
      parametersOf_separated sep (qs :: pss)]
    rfl

theorem parametersOf_slots (xs : List Literal) : parametersOf (slots xs) = xs := by
  unfold slots
  rw [parametersOf_separated, List.flatMap_map]
  exact List.flatMap_singleton' xs

theorem parametersOf_arraySlots (xs : List Literal) :
    parametersOf (arraySlots xs) = xs.filter (· ≠ .null) := by
  unfold arraySlots
  rw [parametersOf_separated, List.flatMap_map]
  induction xs with
  | nil => rfl
  | cons x xs ih =>
    rw [List.flatMap_cons, ih]
    by_cases hx : x = .null
    · rw [if_pos hx, List.filter_cons_of_neg (by simpa using hx)]
      rfl
    · rw [if_neg hx, List.filter_cons_of_pos (by simpa using hx)]
      rfl

/-- A test is printed with its literals in its slots. -/
theorem parametersOf_testPieces (d : Dialect) {x : List Piece} (hx : parametersOf x = [])
    (t : Test) : parametersOf (testPieces d x t) = t.literals := by
  cases t with
  | isNull negated =>
    cases negated <;> simp [testPieces, parametersOf_append, hx, parametersOf_w, Test.literals]
  | compare r l =>
    rw [testPieces, parametersOf_append, parametersOf_append, hx, parametersOf_w]
    rfl
  | equalsConstant negated b =>
    rw [testPieces, parametersOf_append, parametersOf_append, hx, parametersOf_w]
    rfl
  | among negated ls =>
    cases negated <;>
      simp [testPieces, parametersOf_append, hx, parametersOf_w, parametersOf_slots, Test.literals]
  | between negated low high =>
    cases negated <;>
      simp [testPieces, parametersOf_append, hx, parametersOf_w, Test.literals] <;> rfl
  | like caseless negated l =>
    cases caseless <;> cases negated <;> cases d <;>
      simp [testPieces, parametersOf_append, hx, parametersOf_w, Test.literals] <;> rfl
  | array t ls =>
    cases t <;>
      simp [testPieces, parametersOf_append, hx, parametersOf_w, parametersOf_arraySlots,
        Test.literals]

namespace Condition

mutual

/-- The literals of a condition that go into slots, from left to right. -/
def literals : Condition → List Literal
  | .test _ t => t.literals
  | .all parts => literalsOf parts
  | .any parts => literalsOf parts
  | .not part => literals part

/-- The literals of several conditions. -/
def literalsOf : List Condition → List Literal
  | [] => []
  | c :: cs => literals c ++ literalsOf cs

end

theorem literalsOf_append (cs ds : List Condition) :
    literalsOf (cs ++ ds) = literalsOf cs ++ literalsOf ds := by
  induction cs with
  | nil => rfl
  | cons c cs ih => rw [List.cons_append, literalsOf, literalsOf, ih, List.append_assoc]

theorem literalsOf_conjuncts (c : Condition) : literalsOf c.conjuncts = c.literals := by
  cases c with
  | all parts => rfl
  | _ => exact List.append_nil _

theorem literalsOf_disjuncts (c : Condition) : literalsOf c.disjuncts = c.literals := by
  cases c with
  | any parts => rfl
  | _ => exact List.append_nil _

theorem literalsOf_flatMap {split : Condition → List Condition}
    (h : ∀ c, literalsOf (split c) = c.literals) (cs : List Condition) :
    literalsOf (cs.flatMap split) = literalsOf cs := by
  induction cs with
  | nil => rfl
  | cons c cs ih => rw [List.flatMap_cons, literalsOf_append, h, ih, literalsOf]

/-- Splicing moves no literal. -/
theorem literals_conj : ∀ cs : List Condition, (conj cs).literals = literalsOf cs
  | [] => rfl
  | [_] => (List.append_nil _).symm
  | c :: c' :: cs => literalsOf_flatMap literalsOf_conjuncts (c :: c' :: cs)

theorem literals_disj : ∀ cs : List Condition, (disj cs).literals = literalsOf cs
  | [] => rfl
  | [_] => (List.append_nil _).symm
  | c :: c' :: cs => literalsOf_flatMap literalsOf_disjuncts (c :: c' :: cs)

/-- Negating moves no literal. -/
theorem literals_negate (c : Condition) : c.negate.literals = c.literals := by
  cases c with
  | test column t =>
    rw [negate]
    split
    · next u hu => exact Test.literals_of_opposite? hu
    · rfl
  | _ => rfl

mutual

theorem parametersOf_barePieces (d : Dialect) (table : Table) :
    ∀ c : Condition, parametersOf (barePieces d table c) = c.literals
  | .test c t => parametersOf_testPieces d rfl t
  | .all parts => by
    rw [barePieces, parametersOf_separated, parametersOf_operands, literals]
  | .any parts => by
    rw [barePieces, parametersOf_separated, parametersOf_operands, literals]
  | .not part => by
    rw [barePieces, parametersOf_append, parametersOf_append, parametersOf_w, parametersOf_w,
      parametersOf_barePieces, literals, List.nil_append, List.append_nil]

theorem parametersOf_operands (d : Dialect) (table : Table) (p : Position) :
    ∀ cs : List Condition, (operands d table p cs).flatMap parametersOf = literalsOf cs
  | [] => rfl
  | c :: cs => by
    rw [operands, List.flatMap_cons, parametersOf_operands, literalsOf]
    congr 1
    cases needsParens p c with
    | false => exact parametersOf_barePieces d table c
    | true =>
      rw [if_pos rfl, parametersOf_append, parametersOf_append, parametersOf_w, parametersOf_w,
        parametersOf_barePieces, List.nil_append, List.append_nil]

end

end Condition

/-! ## 3. From the leaves of a filter to its parameters -/

theorem kind_eq_boolean_iff {x : Operand} : x.kind = .boolean ↔ x.boolean? ≠ none := by
  unfold Operand.kind Literal.kind Operand.boolean?
  cases x.literal with
  | integer n => by_cases hn : n.natAbs > maxSafeInteger <;> simp [hn]
  | _ => simp

/-- What a predicate on one operand sends. -/
theorem sent_of_operand {text : Bool} {p : Predicate} {x : Operand} (h : p.operands = [x]) :
    p.sent text = if p.omits text x then [] else [bind text x] := by
  unfold Predicate.sent
  rw [h]
  cases homits : p.omits text x with
  | true => rw [List.filter_cons_of_neg (by simp [homits])]; rfl
  | false => rw [List.filter_cons_of_pos (by simp [homits])]; rfl

/-- An equality sends its operand unless that is null or becomes a constant. -/
theorem literals_equality (text negated : Bool) (x : Operand) :
    (equality text negated x).literals
      = (Predicate.compare (if negated then .ne else .eq) x).sent text := by
  have homits : (Predicate.compare (if negated then .ne else .eq) x).omits text x
      = (x.kind == .null || (!text && x.kind == .boolean)) := by cases negated <;> rfl
  rw [sent_of_operand rfl, homits]
  -- Null is tested with a word of its own, and a boolean too unless the column is one of text.
  by_cases hnull : x.literal = .null
  · rw [equality, if_pos hnull, Operand.kind_eq_null_iff.mpr hnull]
    rfl
  · have hkind : x.kind ≠ .null := mt Operand.kind_eq_null_iff.mp hnull
    by_cases hbool : text = true ∨ x.boolean? = none
    · have hword : (x.kind == .null || (!text && x.kind == .boolean)) = false := by
        rcases hbool with htext | hx
        · simp [hkind, htext]
        · have hkind' : x.kind ≠ .boolean := mt kind_eq_boolean_iff.mp (not_not.mpr hx)
          simp [hkind, hkind']
      rw [equality_of_ne_boolean hnull hbool, hword]
      rfl
    · obtain ⟨htext, hsome⟩ := not_or.mp hbool
      obtain ⟨b, hb⟩ := Option.ne_none_iff_exists'.mp hsome
      have htext : text = false := by simpa using htext
      subst htext
      rw [equality_of_boolean hb, kind_eq_boolean_iff.mpr hsome]
      rfl

/-- What a predicate without a word among its operands sends. -/
theorem sent_of_not_omits {text : Bool} {p : Predicate}
    (h : ∀ x ∈ p.operands, p.omits text x = false) :
    p.sent text = p.operands.map (bind text) := by
  unfold Predicate.sent
  rw [List.filter_eq_self.mpr (fun x hx => by simp [h x hx])]
  rfl

/-- An array sends its elements unless they are null, which no token is. -/
theorem filter_map_bind (text : Bool) (xs : List Operand) :
    (xs.map (bind text)).filter (· ≠ .null)
      = (xs.filter fun x => !(!text && x.kind == .null)).map (bind text) := by
  rw [List.filter_map]
  congr 1
  refine List.filter_congr fun x _ => ?_
  cases text with
  | true => simp [bind]
  | false =>
    by_cases hx : x.literal = .null
    · simp [bind, hx, Operand.kind_eq_null_iff.mpr hx]
    · simp [bind, hx, mt Operand.kind_eq_null_iff.mp hx]

theorem literals_compilePredicate {text : Bool} {p : Predicate} {t : Test}
    (h : compilePredicate text p = .ok t) : t.literals = p.sent text := by
  cases p with
  | null holds =>
    cases h
    rfl
  | compare r x =>
    cases r with
    | eq =>
      cases h
      exact literals_equality text false x
    | ne =>
      cases h
      exact literals_equality text true x
    | _ =>
      rw [map_comparand_eq_ok h, sent_of_not_omits fun _ _ => by rfl]
      rfl
  | pattern caseless negated x =>
    rw [map_comparand_eq_ok h, sent_of_not_omits fun _ _ => by rfl]
    rfl
  | array test xs =>
    cases h
    exact filter_map_bind text xs
  | _ =>
    cases h
    rw [sent_of_not_omits fun _ _ => by rfl]
    rfl

end Sql

namespace Filter

/-- **A condition has the literals that the leaves of its filter send**, in their order. -/
theorem literals_of_compile {table : Table} (f : Filter) {c : Condition}
    (h : Sql.compile table f = .ok c) : c.literals = f.sent table := by
  have hparts {fs : List Filter} {cs : List Condition}
      (h : List.Forall₂ (fun f c => Condition.literals c = f.sent table) fs cs) :
      Condition.literalsOf cs = (leavesOf fs).flatMap (sentBy table) := by
    induction h with
    | nil => rfl
    | cons hf _ ih =>
      rw [Condition.literalsOf, hf, ih, leavesOf, List.flatMap_append]
      rfl
  have hP : IsInductive table fun f c => Condition.literals c = f.sent table := {
    test := fun {field p c t} hc ht => by
      rw [Condition.literals, literals_compilePredicate ht, sent, leaves, List.flatMap_singleton]
      simp only [sentBy, hc]
    all := fun h => (Condition.literals_conj _).trans (hparts h)
    any := fun h => (Condition.literals_disj _).trans (hparts h)
    not := fun h => (Condition.literals_negate _).trans h }
  exact hP.of_compile f h

end Filter

end TableService
