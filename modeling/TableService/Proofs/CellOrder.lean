import Mathlib.Algebra.Order.Field.Basic
import Mathlib.Algebra.Order.Ring.Rat
import Mathlib.Data.Rat.Cast.Order
import Mathlib.Order.Compare
import TableService.Store.Query

/-!
# The order of cells, and of rows

Cells of all kinds stand in one order. It is read off three keys of a cell: its kind, its value if
it is a number, and its code points if it is a text; of these the first that differ decide. So the
order of cells is transitive and total, **also across integers and binary64 numbers**, which are
compared by exact value, and so is the order of rows that sort keys make of it.

Rows with equal keys stay in the order of the store. Together with the order of rows this gives the
fact that the modules on listings rest on:

> to sort the rows that pass a test is to **take those that pass out of the sorted rows**.
-/

namespace TableService

/-! ## 1. Keys of cells -/

theorem Text.compareText_eq (s t : Text) :
    compareText s t = compare (s.map Char.toNat) (t.map Char.toNat) := by
  induction s generalizing t with
  | nil => cases t <;> rfl
  | cons c s ih =>
    cases t with
    | nil => rfl
    | cons d t =>
      rw [compareText, ih, List.map_cons, List.map_cons, List.compare_cons_cons]

/-- Quotients are compared by cross-multiplication. -/
theorem compare_mul_eq_compare_div (a c : Int) {b d : Nat} (hb : 0 < b) (hd : 0 < d) :
    compare (a * d) (c * b) = compare ((a : ℚ) / b) ((c : ℚ) / d) := by
  have hb : (0 : ℚ) < b := by exact_mod_cast hb
  have hd : (0 : ℚ) < d := by exact_mod_cast hd
  have hlt : a * d < c * b ↔ (a : ℚ) / b < (c : ℚ) / d := by
    rw [div_lt_div_iff₀ hb hd]
    exact_mod_cast Iff.rfl
  have heq : a * d = c * b ↔ (a : ℚ) / b = (c : ℚ) / d := by
    rw [div_eq_div_iff hb.ne' hd.ne']
    exact_mod_cast Iff.rfl
  rw [LinearOrder.compare_eq_compareOfLessAndEq, LinearOrder.compare_eq_compareOfLessAndEq]
  simp only [compareOfLessAndEq, hlt, heq]

namespace Binary64

theorem denominator_pos (s : Bool) (m : Nat) (q : Int) : 0 < (signedRatio s m q).2 := by
  show 0 < (ratio m q).2
  unfold ratio
  split
  · exact Nat.one_pos
  · exact Nat.pow_pos (by decide)

/-- The value of a finite number. -/
def value (s : Bool) (m : Nat) (q : Int) : ℚ :=
  ((signedRatio s m q).1 : ℚ) / (signedRatio s m q).2

theorem compareValue_finite (s t : Bool) (m n : Nat) (q r : Int) :
    compareValue (.finite s m q) (.finite t n r) = compare (value s m q) (value t n r) :=
  compare_mul_eq_compare_div _ _ (denominator_pos s m q) (denominator_pos t n r)

theorem compareInt_finite (k : Int) (s : Bool) (m : Nat) (q : Int) :
    compareInt k (.finite s m q) = compare (k : ℚ) (value s m q) := by
  have h := compare_mul_eq_compare_div k (signedRatio s m q).1 Nat.one_pos (denominator_pos s m q)
  simpa [compareInt, value] using h

end Binary64

namespace Store
namespace Cell

/-- The kind of a cell in the order of kinds. Numbers that have no value stand at either end of the
numbers. -/
def rank : Cell → Nat
  | null => 0
  | real .nan => 1
  | real (.infinite true) => 2
  | integer _ | real (.finite ..) => 3
  | real (.infinite false) => 4
  | text _ => 5

/-- The value of a number. -/
def number : Cell → ℚ
  | integer n => n
  | real (.finite s m q) => Binary64.value s m q
  | _ => 0

/-- The code points of a text. -/
def codes : Cell → List Nat
  | text t => t.map Char.toNat
  | _ => []

/-- Two numbers of one rank stand in the order of their values. -/
theorem compare_finite {r : Nat} {x y : ℚ} :
    (Ord.compare r r).then ((Ord.compare x y).then (Ord.compare ([] : List Nat) []))
      = Ord.compare x y := by
  rw [compare_eq_iff_eq.mpr rfl]
  cases Ord.compare x y <;> rfl

/-- The order of two cells is that of the first of their keys that differ. -/
theorem compare_eq (a b : Cell) :
    a.compare b = (Ord.compare a.rank b.rank).then
      ((Ord.compare a.number b.number).then (Ord.compare a.codes b.codes)) := by
  -- Finite numbers and texts have more keys than their rank; for all other cells it is enough.
  cases a with
  | null => rcases b with _ | _ | (_ | (_ | _) | _) | _ <;> rfl
  | integer m =>
    rcases b with _ | n | (_ | (_ | _) | ⟨t, l, r⟩) | _
    case integer =>
      have hints := compare_mul_eq_compare_div m n Nat.one_pos Nat.one_pos
      refine Eq.trans ?_ compare_finite.symm
      simpa [compare, number] using hints
    case real.finite => exact (Binary64.compareInt_finite m t l r).trans compare_finite.symm
    all_goals rfl
  | real x =>
    rcases x with _ | (_ | _) | ⟨s, k, q⟩
    case finite =>
      rcases b with _ | n | (_ | (_ | _) | ⟨t, l, r⟩) | _
      case integer =>
        have hswap : (Ord.compare (n : ℚ) (Binary64.value s k q)).swap
            = Ord.compare (Binary64.value s k q) n := Std.OrientedOrd.eq_swap.symm
        rw [compare, Binary64.compareInt_finite, hswap]
        exact compare_finite.symm
      case real.finite =>
        exact (Binary64.compareValue_finite s t k l q r).trans compare_finite.symm
      all_goals rfl
    all_goals rcases b with _ | _ | (_ | (_ | _) | _) | _ <;> rfl
  | text s =>
    rcases b with _ | _ | (_ | (_ | _) | _) | t
    case text => exact Text.compareText_eq s t
    all_goals rfl

/-- The order of cells is total and transitive. -/
instance : Std.TransCmp Cell.compare := by
  have h : Cell.compare
      = compareLex (compareOn rank) (compareLex (compareOn number) (compareOn codes)) :=
    funext fun a => funext (compare_eq a)
  rw [h]
  infer_instance

end Cell

/-! ## 2. The order of rows -/

/-- The order of two rows under sort keys. -/
def compareRows : List Sql.SortKey → Row → Row → Ordering
  | [], _, _ => .eq
  | k :: ks, a, b =>
    let o := (a.cell k.column).compare (b.cell k.column)
    (if k.descending then o.swap else o).then (compareRows ks a b)

theorem mayPrecede_eq (ks : List Sql.SortKey) (a b : Row) :
    mayPrecede ks a b = (compareRows ks a b).isLE := by
  induction ks with
  | nil => rfl
  | cons k ks ih =>
    rw [mayPrecede, compareRows, ih]
    split <;> next h => rw [h]; rfl

/-- The order of rows is total and transitive, whichever way each key sorts. -/
instance transCmp_compareRows : ∀ ks : List Sql.SortKey, Std.TransCmp (compareRows ks)
  | [] => { eq_swap := rfl, isLE_trans := fun _ _ => rfl }
  | k :: ks => by
    have hrest := transCmp_compareRows ks
    let byColumn : Row → Row → Ordering := fun a b =>
      (a.cell k.column).compare (b.cell k.column)
    have hcolumn : Std.TransCmp byColumn :=
      { eq_swap := fun {a b} => @Std.OrientedCmp.eq_swap _ Cell.compare _ _ _
        isLE_trans := fun {a b c} => @Std.TransCmp.isLE_trans _ Cell.compare _ _ _ _ }
    cases hdescending : k.descending with
    | false =>
      have h : compareRows (k :: ks) = compareLex byColumn (compareRows ks) := by
        funext a b
        rw [compareRows, hdescending]
        rfl
      rw [h]
      infer_instance
    | true =>
      have h : compareRows (k :: ks)
          = compareLex (fun a b => byColumn b a) (compareRows ks) := by
        funext a b
        rw [compareRows, hdescending, if_pos rfl, ← Std.OrientedCmp.eq_swap]
        rfl
      rw [h]
      infer_instance

variable {ks : List Sql.SortKey}

theorem mayPrecede_trans (a b c : Row) (hab : mayPrecede ks a b = true)
    (hbc : mayPrecede ks b c = true) : mayPrecede ks a c = true := by
  rw [mayPrecede_eq] at hab hbc ⊢
  exact Std.TransCmp.isLE_trans hab hbc

theorem mayPrecede_total (a b : Row) : (mayPrecede ks a b || mayPrecede ks b a) = true := by
  rw [mayPrecede_eq, mayPrecede_eq, @Std.OrientedCmp.eq_swap _ (compareRows ks) _ b a]
  cases compareRows ks a b <;> rfl

/-! ## 3. Sorting the rows that pass a test -/

/-- A list is cut in one place only into elements with a property and elements without it. -/
theorem append_eq_of_split {α : Type} {q : α → Bool} {xs ys us vs : List α}
    (h : xs ++ ys = us ++ vs) (hxs : ∀ a ∈ xs, q a = true) (hys : ∀ a ∈ ys, q a = false)
    (hus : ∀ a ∈ us, q a = true) (hvs : ∀ a ∈ vs, q a = false) : xs = us ∧ ys = vs := by
  have hcut : ∀ {l r : List α}, (∀ a ∈ l, q a = true) → (∀ a ∈ r, q a = false) →
      (l ++ r).takeWhile q = l := by
    intro l r hl hr
    rw [List.takeWhile_append_of_pos hl]
    cases r with
    | nil => simp
    | cons a r => simp [hr a List.mem_cons_self]
  have hleft : xs = us := by rw [← hcut hxs hys, h, hcut hus hvs]
  exact ⟨hleft, by rw [hleft] at h; exact List.append_cancel_left h⟩

/-- In sorted rows, a row may precede all that stand behind it. -/
theorem mayPrecede_of_mergeSort {a : Row} {rows before behind : List Row}
    (h : rows.mergeSort (mayPrecede ks) = before ++ a :: behind) :
    ∀ b ∈ behind, (!mayPrecede ks a b) = false := by
  intro b hb
  have hpairs := List.pairwise_mergeSort (@mayPrecede_trans ks) mayPrecede_total rows
  rw [h] at hpairs
  have hbehind := (List.pairwise_append.mp hpairs).2.1
  rw [(List.pairwise_cons.mp hbehind).1 b hb]
  rfl

/-- **Sorting keeps apart what a test keeps apart**: the rows that pass are sorted as they stand
among all rows. -/
theorem mergeSort_filter (ks : List Sql.SortKey) (p : Row → Bool) (rows : List Row) :
    (rows.filter p).mergeSort (mayPrecede ks) = (rows.mergeSort (mayPrecede ks)).filter p := by
  induction rows with
  | nil => rw [List.filter_nil, List.mergeSort_nil, List.filter_nil]
  | cons a rows ih =>
    obtain ⟨l₁, l₂, hl, hrest, hbefore⟩ :=
      List.mergeSort_cons mayPrecede_trans mayPrecede_total a rows
    rw [hrest, List.filter_append] at ih
    rw [hl, List.filter_append]
    cases ha : p a with
    | false =>
      rw [List.filter_cons_of_neg (by simp [ha]), List.filter_cons_of_neg (by simp [ha]), ih]
    | true =>
      rw [List.filter_cons_of_pos ha, List.filter_cons_of_pos ha]
      obtain ⟨m₁, m₂, hm, hmrest, hmbefore⟩ :=
        List.mergeSort_cons mayPrecede_trans mayPrecede_total a (rows.filter p)
      -- The row stands behind those that it may not precede, on both sides.
      obtain ⟨hleft, hright⟩ := append_eq_of_split (hmrest.symm.trans ih) hmbefore
        (mayPrecede_of_mergeSort hm)
        (fun b hb => hbefore b (List.mem_filter.mp hb).1)
        (fun b hb => mayPrecede_of_mergeSort hl b (List.mem_filter.mp hb).1)
      rw [hm, hleft, hright]

theorem mem_sortRows {rows : List Row} {r : Row} : r ∈ sortRows ks rows ↔ r ∈ rows := by
  unfold sortRows
  split
  · exact Iff.rfl
  · exact List.mem_mergeSort

theorem pairwise_sortRows (ks : List Sql.SortKey) (rows : List Row) :
    (sortRows ks rows).Pairwise fun a b => mayPrecede ks a b = true := by
  unfold sortRows
  split
  · exact List.pairwise_of_forall fun _ _ => rfl
  · exact List.pairwise_mergeSort mayPrecede_trans mayPrecede_total rows

/-- Two rows are swapped unless the first may precede the second. -/
theorem sortRows_pair (ks : List Sql.SortKey) (a b : Row) :
    sortRows ks [a, b] = if mayPrecede ks a b then [a, b] else [b, a] := by
  unfold sortRows
  split
  · rfl
  · rw [List.mergeSort]
    simp [List.MergeSort.Internal.splitInTwo, List.merge]

theorem sortRows_filter (ks : List Sql.SortKey) (p : Row → Bool) (rows : List Row) :
    sortRows ks (rows.filter p) = (sortRows ks rows).filter p := by
  unfold sortRows
  split
  · rfl
  · exact mergeSort_filter _ p rows

end Store
end TableService
