import Mathlib.Data.List.Forall2
import TableService.Store.Write
import TableService.Proofs.Outcomes

/-!
# What a write does

A write to the store that succeeds does one thing: an insertion puts one row at its place, an update
replaces the rows that its condition takes and sorts again, a deletion keeps the rows that are not
taken. The structures here say that once, checks included, and everything about later stores is
taken from them.

The first thing that is taken is the order of rows: **in every store that can be reached the rows
stand in ascending order of their numbers.** With it, a write that takes no row changes nothing.
-/

namespace TableService
namespace Store

/-! ## 1. What succeeded -/

theorem requireFilled_eq_ok {t : Table} {r : Row} :
    requireFilled t r = .ok () ↔ unfilled? t r = none := by
  unfold requireFilled
  cases unfilled? t r <;> simp

theorem requireAllFilled_eq_ok {t : Table} {ms : List (Bool × Row)} :
    requireAllFilled t ms = .ok () ↔ ∀ m ∈ ms, unfilled? t m.2 = none := by
  induction ms with
  | nil => simp [requireAllFilled]
  | cons m ms ih =>
    rw [requireAllFilled, List.forall_mem_cons, ← ih, ← requireFilled_eq_ok]
    cases requireFilled t m.2 <;> simp

/-- A row that was inserted: its cells are those that were given or filled in, it has a cell
wherever one is asked for, and it clashes with no other row. -/
structure Inserted (s : Store) (values : Members) (r : Row) (s' : Store) : Prop where
  present : s.isDropped = false
  made : ∃ parameters cells,
    bindAll (values ++ s.table.columns.filterMap (fallbackOf values)) s.table.columns
        = .ok parameters ∧
      cellsOf parameters = .ok cells ∧
      numbered? s.table s.nextNumber ⟨0, fill s.table (storedAll cells)⟩ = some r
  filled : unfilled? s.table r = none
  distinct : ∀ x ∈ s.rows, clash s.table r x = false
  after : s' = { s with rows := place r s.rows }

theorem inserted_of_insert {s s' : Store} {values : Members} {r : Row}
    (h : s.insert values = .ok (r, s')) : Inserted s values r s' := by
  obtain ⟨parameters, hbind, h⟩ := Outcome.bind_eq_ok.mp h
  obtain ⟨_, htable, h⟩ := Outcome.bind_eq_ok.mp h
  obtain ⟨cells, hcells, h⟩ := Outcome.bind_eq_ok.mp h
  split at h
  · cases h
  · next row hrow =>
    obtain ⟨_, hfilled, h⟩ := Outcome.bind_eq_ok.mp h
    split at h
    · cases h
    · next hclash =>
      cases h
      exact ⟨requireTable_eq_ok.mp htable, ⟨parameters, cells, hbind, hcells, hrow⟩,
        requireFilled_eq_ok.mp hfilled, by simpa using hclash, rfl⟩

/-- Nothing else can keep a row from being inserted. -/
theorem insert_of_inserted {s s' : Store} {values : Members} {r : Row}
    (h : Inserted s values r s') : s.insert values = .ok (r, s') := by
  obtain ⟨parameters, cells, hbind, hcells, hrow⟩ := h.made
  have htable := requireTable_eq_ok.mpr h.present
  have hclash : s.rows.any (clash s.table r) = false := by simpa using h.distinct
  rw [insert, h.after]
  simp only [hbind, htable, hcells, hrow, requireFilled_eq_ok.mpr h.filled, hclash, bind,
    Except.bind, pure, Except.pure, Bool.false_eq_true, if_false]

/-- What becomes of a row in an update: it is taken and replaced, or it is left. -/
inductive Marks (t : Table) (condition : Sql.Condition) (cells : List (Text × Cell)) :
    Row → Bool × Row → Prop where
  | taken {r r' : Row} (h : takes (some condition) r = true) (hr : r.updated? t cells = some r') :
    Marks t condition cells r (true, r')
  | left {r : Row} (h : takes (some condition) r = false) : Marks t condition cells r (false, r)

theorem forall₂_marks {t : Table} {condition : Sql.Condition} {cells : List (Text × Cell)}
    {rows : List Row} {marked : List (Bool × Row)}
    (h : rows.mapM (fun r =>
      if takes (some condition) r then (r.updated? t cells).map fun r' => (true, r')
      else some (false, r)) = some marked) :
    List.Forall₂ (Marks t condition cells) rows marked := by
  induction rows generalizing marked with
  | nil =>
    cases h
    exact .nil
  | cons r rows ih =>
    rw [List.mapM_cons] at h
    obtain ⟨m, hm, h⟩ := Option.bind_eq_some_iff.mp h
    obtain ⟨ms, hms, h⟩ := Option.bind_eq_some_iff.mp h
    cases h
    refine .cons ?_ (ih hms)
    split at hm
    · next htakes =>
      obtain ⟨r', hr', rfl⟩ := Option.map_eq_some_iff.mp hm
      exact .taken htakes hr'
    · next htakes =>
      cases hm
      exact .left (Bool.eq_false_iff.mpr htakes)

/-- An update that was carried out: what became of each row, and that the rows after it break no
rule of the table. -/
structure Updated (s : Store) (condition : Except StoreFault Sql.Condition) (values : Members)
    (first : Option Row) (s' : Store) : Prop where
  present : s.isDropped = false
  made : ∃ parameters cells c marked,
    bindAll values s.table.columns = .ok parameters ∧ cellsOf parameters = .ok cells ∧
      condition = .ok c ∧ List.Forall₂ (Marks s.table c (storedAll cells)) s.rows marked ∧
      requireAllFilled s.table ((inOrder marked).filter (·.1)) = .ok () ∧
      noClash s.table ((inOrder marked).map (·.2)) = true ∧
      first = ((inOrder marked).find? (·.1)).map (·.2) ∧
      s' = { s with rows := (inOrder marked).map (·.2) }

theorem updated_of_update {s s' : Store} {condition : Except StoreFault Sql.Condition}
    {values : Members} {first : Option Row} (h : s.update condition values = .ok (first, s')) :
    Updated s condition values first s' := by
  obtain ⟨parameters, hbind, h⟩ := Outcome.bind_eq_ok.mp h
  obtain ⟨_, htable, h⟩ := Outcome.bind_eq_ok.mp h
  obtain ⟨cells, hcells, h⟩ := Outcome.bind_eq_ok.mp h
  obtain ⟨c, hc, h⟩ := Outcome.bind_eq_ok.mp h
  obtain ⟨_, _, h⟩ := Outcome.bind_eq_ok.mp h
  split at h
  · cases h
  · next marked hmarked =>
    obtain ⟨_, hfilled, h⟩ := Outcome.bind_eq_ok.mp h
    split at h
    · next hclash =>
      cases h
      exact ⟨requireTable_eq_ok.mp htable, parameters, cells, c, marked, hbind, hcells, hc,
        forall₂_marks hmarked, hfilled, hclash, rfl, rfl⟩
    · cases h

/-- Where each row that a condition takes can be replaced, all of them are marked. -/
theorem updatedRows?_eq {s : Store} {condition : Sql.Condition} {cells : List (Text × Cell)}
    {f : Row → Row}
    (h : ∀ r ∈ s.rows, takes (some condition) r = true → r.updated? s.table cells = some (f r)) :
    s.updatedRows? condition cells = some (s.rows.map fun r =>
      if takes (some condition) r then (true, f r) else (false, r)) := by
  rw [updatedRows?]
  generalize s.rows = rows at h
  induction rows with
  | nil => rfl
  | cons r rows ih =>
    obtain ⟨hr, hrows⟩ := List.forall_mem_cons.mp h
    rw [List.mapM_cons, ih hrows, List.map_cons]
    cases htakes : takes (some condition) r with
    | false => rfl
    | true =>
      rw [hr htakes]
      rfl

section

variable {s s' : Store} {c : Sql.Condition} {values : Members} {ps : List (Column × Parameter)}
  {cells : List (Column × Cell)} {marked : List (Bool × Row)} {first : Option Row}
  (hbind : bindAll values s.table.columns = .ok ps) (htable : s.requireTable = .ok ())
  (hcells : cellsOf ps = .ok cells) (hoperands : requireBindable (s.operandsOf c) = .ok ())
  (hmarked : s.updatedRows? c (storedAll cells) = some marked)
include hbind htable hcells hoperands hmarked

/-- Rows that are marked are put in order, if they break no rule of the table. -/
theorem update_of_marked
    (hfilled : requireAllFilled s.table ((inOrder marked).filter (·.1)) = .ok ())
    (hclash : noClash s.table ((inOrder marked).map (·.2)) = true) :
    s.update (.ok c) values = .ok (((inOrder marked).find? (·.1)).map (·.2),
      { s with rows := (inOrder marked).map (·.2) }) := by
  simp only [update, hbind, htable, hcells, hoperands, hmarked, hfilled, hclash, bind, Except.bind,
    if_true]
  rfl

/-- Where the rows stay in order, an update puts each where it was. -/
theorem update_of_marks (hordered : marked.Pairwise fun a b => a.2.id ≤ b.2.id)
    (hfilled : requireAllFilled s.table (marked.filter (·.1)) = .ok ())
    (hclash : noClash s.table (marked.map (·.2)) = true)
    (hfirst : (marked.find? (·.1)).map (·.2) = first)
    (hafter : { s with rows := marked.map (·.2) } = s') :
    s.update (.ok c) values = .ok (first, s') := by
  have hkept : inOrder marked = marked :=
    List.mergeSort_of_pairwise (hordered.imp decide_eq_true)
  have hupdate := update_of_marked hbind htable hcells hoperands hmarked
  rw [hkept] at hupdate
  rw [hupdate hfilled hclash, hfirst, hafter]

end

/-- A deletion that was carried out. -/
structure Deleted (s : Store) (condition : Except StoreFault Sql.Condition) (first : Option Row)
    (s' : Store) : Prop where
  present : s.isDropped = false
  made : ∃ c, condition = .ok c ∧ first = s.rows.find? (takes (some c)) ∧
    s' = { s with rows := s.rows.filter fun r => !takes (some c) r }

theorem deleted_of_delete {s s' : Store} {condition : Except StoreFault Sql.Condition}
    {first : Option Row} (h : s.delete condition = .ok (first, s')) :
    Deleted s condition first s' := by
  obtain ⟨_, htable, h⟩ := Outcome.bind_eq_ok.mp h
  obtain ⟨c, hc, h⟩ := Outcome.bind_eq_ok.mp h
  obtain ⟨_, _, h⟩ := Outcome.bind_eq_ok.mp h
  cases h
  exact ⟨requireTable_eq_ok.mp htable, c, hc, rfl, rfl⟩

/-! ## 2. The order of rows -/

/-- Whether the rows stand in ascending order of their numbers. -/
def Ordered (s : Store) : Prop := s.rows.Pairwise fun a b => a.id ≤ b.id

theorem perm_place (r : Row) (rows : List Row) : (place r rows).Perm (r :: rows) := by
  induction rows with
  | nil => exact .refl _
  | cons x rows ih =>
    rw [place]
    split
    · exact .refl _
    · exact (ih.cons x).trans (.swap r x rows)

theorem pairwise_place (r : Row) {rows : List Row} (h : rows.Pairwise fun a b => a.id ≤ b.id) :
    (place r rows).Pairwise fun a b => a.id ≤ b.id := by
  induction rows with
  | nil => exact List.pairwise_singleton _ _
  | cons x rows ih =>
    obtain ⟨hx, hrows⟩ := List.pairwise_cons.mp h
    rw [place]
    split
    · next hlt =>
      refine List.pairwise_cons.mpr ⟨fun y hy => ?_, h⟩
      rcases List.mem_cons.mp hy with rfl | hy
      · omega
      · exact Int.le_trans (Int.le_of_lt hlt) (hx y hy)
    · next hlt =>
      refine List.pairwise_cons.mpr ⟨fun y hy => ?_, ih hrows⟩
      rcases List.mem_cons.mp ((perm_place r rows).mem_iff.mp hy) with rfl | hy
      · omega
      · exact hx y hy

theorem pairwise_inOrder (marked : List (Bool × Row)) :
    (inOrder marked).Pairwise fun a b => a.2.id ≤ b.2.id := by
  refine (List.pairwise_mergeSort (fun a b c hab hbc => ?_) (fun a b => ?_) marked).imp
    of_decide_eq_true
  · rw [decide_eq_true_eq] at hab hbc ⊢
    exact Int.le_trans hab hbc
  · simpa using Int.le_total a.2.id b.2.id

theorem Ordered.insert {s s' : Store} {values : Members} {r : Row} (h : s.Ordered)
    (hs : Inserted s values r s') : s'.Ordered := by
  rw [hs.after]
  exact pairwise_place r h

theorem Ordered.update {s s' : Store} {condition : Except StoreFault Sql.Condition}
    {values : Members} {first : Option Row} (hs : Updated s condition values first s') :
    s'.Ordered := by
  obtain ⟨_, _, _, marked, _, _, _, _, _, _, _, rfl⟩ := hs.made
  exact List.pairwise_map.mpr (pairwise_inOrder marked)

theorem Ordered.delete {s s' : Store} {condition : Except StoreFault Sql.Condition}
    {first : Option Row} (h : s.Ordered) (hs : Deleted s condition first s') : s'.Ordered := by
  obtain ⟨_, _, _, rfl⟩ := hs.made
  exact List.Pairwise.filter _ h

/-- The stores that writes can make, from a table without rows on. -/
inductive Reachable : Store → Prop where
  | created {t : Table} {s : Store} (h : Store.create t = .ok s) : Reachable s
  | inserted {s s' : Store} {values : Members} {r : Row} (hs : Reachable s)
    (h : s.insert values = .ok (r, s')) : Reachable s'
  | updated {s s' : Store} {condition : Except StoreFault Sql.Condition} {values : Members}
    {first : Option Row} (hs : Reachable s) (h : s.update condition values = .ok (first, s')) :
    Reachable s'
  | deleted {s s' : Store} {condition : Except StoreFault Sql.Condition} {first : Option Row}
    (hs : Reachable s) (h : s.delete condition = .ok (first, s')) : Reachable s'
  | dropped {s : Store} (hs : Reachable s) : Reachable { s with isDropped := true }

/-- **The rows of every reachable store are in order.** -/
theorem Reachable.ordered {s : Store} (h : Reachable s) : s.Ordered := by
  induction h with
  | created h =>
    unfold Store.create at h
    split at h
    · cases h
      exact .nil
    · cases h
  | inserted _ h ih => exact ih.insert (inserted_of_insert h)
  | updated _ h _ => exact Ordered.update (updated_of_update h)
  | deleted _ h ih => exact ih.delete (deleted_of_delete h)
  | dropped _ ih => exact ih

/-! ## 3. Writes that take no row -/

/-- Rows that are in order stay as they stand. -/
theorem inOrder_left {rows : List Row} (h : rows.Pairwise fun a b => a.id ≤ b.id) :
    inOrder (rows.map fun r => (false, r)) = rows.map fun r => (false, r) := by
  refine List.mergeSort_of_pairwise ?_
  rw [List.pairwise_map]
  exact h.imp decide_eq_true

theorem inOrder_of_none_taken {t : Table} {condition : Sql.Condition} {cells : List (Text × Cell)}
    {rows : List Row} {marked : List (Bool × Row)}
    (h : List.Forall₂ (Marks t condition cells) rows marked)
    (hordered : rows.Pairwise fun a b => a.id ≤ b.id) (hnone : ∀ m ∈ marked, m.1 = false) :
    (inOrder marked).map (·.2) = rows := by
  have hmarked : marked = rows.map fun r => (false, r) := by
    clear hordered
    induction h with
    | nil => rfl
    | cons hm _ ih =>
      obtain ⟨hfalse, hrest⟩ := List.forall_mem_cons.mp hnone
      cases hm with
      | taken _ _ => cases hfalse
      | left _ => rw [List.map_cons, ← ih hrest]
  rw [hmarked, inOrder_left hordered, List.map_map]
  exact List.map_id rows

/-- An update that took no row changes nothing. -/
theorem eq_of_updated_none {s s' : Store} {condition : Except StoreFault Sql.Condition}
    {values : Members} (hs : s.Ordered) (h : Updated s condition values none s') : s' = s := by
  obtain ⟨_, _, _, marked, _, _, _, hmarks, _, _, hnone, rfl⟩ := h.made
  have hnone : ∀ m ∈ marked, m.1 = false := by
    intro m hm
    have := List.find?_eq_none.mp (Option.map_eq_none_iff.mp hnone.symm) m
      ((List.mergeSort_perm _ _).mem_iff.mpr hm)
    exact Bool.eq_false_iff.mpr this
  rw [inOrder_of_none_taken hmarks hs hnone]

/-- A deletion that took no row changes nothing. -/
theorem eq_of_deleted_none {s s' : Store} {condition : Except StoreFault Sql.Condition}
    (h : Deleted s condition none s') : s' = s := by
  obtain ⟨c, _, hnone, rfl⟩ := h.made
  have hkept : s.rows.filter (fun r => !takes (some c) r) = s.rows := by
    rw [List.filter_eq_self]
    intro r hr
    simpa using List.find?_eq_none.mp hnone.symm r hr
  rw [hkept]

end Store
end TableService
