import Mathlib.Data.List.Perm.Basic
import TableService.Proofs.CellOrder
import TableService.Proofs.Directory

/-!
# Stores that keep the rules of their table

Whatever a table asks of its rows holds in every store that can be reached: **the rows stand in
order, each has a cell in every column and none where null is not allowed, and no two of them agree
on a key.** This holds of tables of any kind, with one key column, several or none.

Two things are taken from it. An update that gives no values changes nothing, since all that it
checks holds already. And a value that is looked up in a column which is a key by itself is found in
one row at most, for rows that are equal to one operand are equal to each other.
-/

namespace TableService
namespace Store

variable {t : Table} {s s' : Store} {r q : Row} {values : Members}
  {condition : Except StoreFault Sql.Condition} {first : Option Row}

/-! ## 1. The rules -/

theorem agree_comm (cs : List Column) (a b : Row) : agree cs a b = agree cs b a := by
  unfold agree
  refine congrArg cs.all (funext fun c => ?_)
  have hswap := @Std.OrientedCmp.eq_swap _ Cell.compare _ (a.cell c) (b.cell c)
  cases hcompare : (b.cell c).compare (a.cell c) with
  | eq =>
    rw [hcompare] at hswap
    rw [hswap]
    -- Cells that compare equal are both null, or neither is.
    cases ha : a.cell c <;> cases hb : b.cell c <;> rw [ha, hb] at hswap <;>
      first | rfl | cases hswap
  | lt =>
    rw [hcompare] at hswap
    rw [hswap]
    simp
  | gt =>
    rw [hcompare] at hswap
    rw [hswap]
    simp

theorem clash_comm (t : Table) (a b : Row) : clash t a b = clash t b a :=
  congrArg (uniqueKeys t).any (funext fun cs => agree_comm cs a b)

/-- Whether a row is one that a table may have by itself: it has a cell in every column, and not
null where that is not allowed. -/
structure Row.Fits (t : Table) (r : Row) : Prop where
  complete : ∀ c ∈ t.columns, (r.cells.lookup c.name).isSome = true
  filled : unfilled? t r = none

/-- Whether the rows of a store keep the rules of its table. -/
structure IsLawful (s : Store) : Prop where
  ordered : s.Ordered
  fits : ∀ r ∈ s.rows, r.Fits s.table
  distinct : s.rows.Pairwise fun a b => clash s.table a b = false

/-! ## 2. Every store keeps them -/

theorem IsLawful.inserted (hs : s.IsLawful) (h : Inserted s values r s') : s'.IsLawful := by
  have hordered := hs.ordered.insert h
  have hr : r.Fits s.table := ⟨fun c hc => isSome_lookup_of_inserted h hc, h.filled⟩
  rw [h.after] at hordered ⊢
  refine ⟨hordered, fun x hx => ?_, ?_⟩
  · rcases mem_place.mp hx with rfl | hx
    · exact hr
    · exact hs.fits x hx
  · have hsymm : ∀ {a b : Row}, clash s.table a b = false → clash s.table b a = false :=
      fun {a b} hab => (clash_comm s.table b a).trans hab
    exact ((perm_place r s.rows).pairwise_iff hsymm).mpr (.cons h.distinct hs.distinct)

theorem IsLawful.updated (hs : s.IsLawful) (h : Updated s condition values first s') :
    s'.IsLawful := by
  have hordered := Ordered.update h
  obtain ⟨ps, cells, c, marked, -, -, -, hmarks, hfilled, hclash, -, rfl⟩ := h.made
  refine ⟨hordered, fun x hx => ?_, pairwise_of_noClash hclash⟩
  obtain ⟨m, hm, rfl⟩ := List.mem_map.mp hx
  obtain ⟨q, hq, hmark⟩ := exists_of_mem_right hmarks ((List.mergeSort_perm _ _).mem_iff.mp hm)
  cases hmark with
  | taken _ hnew =>
    exact ⟨fun c hc => isSome_lookup_of_updated hnew ((hs.fits q hq).complete c hc),
      requireAllFilled_eq_ok.mp hfilled _ (List.mem_filter.mpr ⟨hm, rfl⟩)⟩
  | left _ => exact hs.fits _ hq

theorem IsLawful.deleted (hs : s.IsLawful) (h : Deleted s condition first s') : s'.IsLawful := by
  have hordered := hs.ordered.delete h
  obtain ⟨c, -, -, rfl⟩ := h.made
  exact ⟨hordered, fun x hx => hs.fits x (List.mem_filter.mp hx).1, hs.distinct.filter _⟩

/-- **Every store that can be reached keeps the rules of its table.** -/
theorem Reachable.isLawful (h : s.Reachable) : s.IsLawful := by
  induction h with
  | created h =>
    unfold Store.create at h
    split at h
    · cases h
      exact ⟨.nil, fun _ hr => absurd hr List.not_mem_nil, .nil⟩
    · cases h
  | inserted _ h ih => exact ih.inserted (inserted_of_insert h)
  | updated _ h ih => exact ih.updated (updated_of_update h)
  | deleted _ h ih => exact ih.deleted (deleted_of_delete h)
  | dropped _ ih => exact ⟨ih.ordered, ih.fits, ih.distinct⟩

/-! ## 3. Updates without values -/

theorem bindAll_nil (cs : List Column) : bindAll [] cs = .ok [] := by
  induction cs with
  | nil => rfl
  | cons c cs ih => exact ih

theorem Row.set_nil (r : Row) : r.set [] = r := by
  have hcells : r.cells.map (fun p => (p.1, ([].lookup p.1).getD p.2)) = r.cells := List.map_id _
  rw [Row.set]
  exact congrArg (Row.mk r.id) hcells

/-- Where no column holds the numbers, an update without values marks the rows that it takes and
leaves them as they are. -/
theorem updatedRows?_nil (hnumber : numberColumn? s.table = none) (c : Sql.Condition) :
    s.updatedRows? c [] = some (s.rows.map fun r => (takes (some c) r, r)) := by
  have hrow : ∀ r : Row, (if takes (some c) r then (r.updated? s.table []).map fun r' => (true, r')
      else some (false, r)) = some (takes (some c) r, r) := by
    intro r
    rw [Row.updated?, Row.set_nil, hnumber]
    cases takes (some c) r <;> rfl
  rw [updatedRows?, funext hrow]
  exact List.mapM_pure

/-- **An update without values is a lookup.** -/
theorem update_nil (hs : s.IsLawful) (hnumber : numberColumn? s.table = none)
    (condition : Except StoreFault Sql.Condition) :
    s.update condition [] = (s.first? condition).map fun first => (first, s) := by
  have hbind := bindAll_nil s.table.columns
  cases htable : s.requireTable with
  | error f => simp only [update, first?, hbind, htable, bind, Except.bind, Except.map]
  | ok _ =>
    cases condition with
    | error f => simp only [update, first?, hbind, htable, cellsOf, bind, Except.bind, Except.map]
    | ok c =>
      cases hoperands : requireBindable (s.operandsOf c) with
      | error f =>
        simp only [update, first?, hbind, htable, cellsOf, hoperands, bind, Except.bind, Except.map]
      | ok _ =>
        have hrows : (s.rows.map fun r => (takes (some c) r, r)).map (·.2) = s.rows := by
          rw [List.map_map]
          exact List.map_id _
        have hfirst : ((s.rows.map fun r => (takes (some c) r, r)).find? (·.1)).map (·.2)
            = s.rows.find? (takes (some c)) := by
          rw [List.find?_map, Option.map_map]
          exact Option.map_id'
        rw [update_of_marks hbind htable rfl hoperands (updatedRows?_nil hnumber c)
          (List.pairwise_map.mpr hs.ordered) (requireAllFilled_eq_ok.mpr fun m hm => ?_)
          (hrows.symm ▸ noClash_of_pairwise hs.distinct) hfirst
          (congrArg (fun rows => { s with rows := rows }) hrows)]
        · simp only [first?, htable, hoperands, bind, Except.bind]
          rfl
        · obtain ⟨r, hr, rfl⟩ := List.mem_map.mp (List.mem_filter.mp hm).1
          exact (hs.fits r hr).filled

/-! ## 4. Keys of one column -/

theorem mem_columns_of_uniqueKeys {key : Column} (h : [key] ∈ uniqueKeys t) : key ∈ t.columns := by
  rcases List.mem_append.mp h with h | h
  · split at h
    · cases h
    · have hkey : key ∈ t.primaryKey := List.mem_singleton.mp h ▸ List.mem_cons_self
      exact (List.mem_filter.mp hkey).1
  · obtain ⟨c, hc, heq⟩ := List.mem_map.mp h
    obtain rfl := (List.cons.inj heq).1
    exact (List.mem_filter.mp hc).1

/-- What is equal to a value that is not null is equal to one operand, and not null. -/
theorem exists_operand_of_equals {key : Column} {x : Value} {c : Sql.Condition}
    (h : Service.equals key x = .ok c) (hx : x.isNull = false) :
    ∃ l, ∀ r : Row, takes (some c) r = true →
      (r.cell key).isNull = false ∧ (r.cell key).compare (Cell.operand key l) = .eq := by
  obtain ⟨test, htest, rfl⟩ := Outcome.map_eq_ok.mp h
  obtain ⟨l, hl⟩ : ∃ l, ∀ y : Cell, reading.test key y test
      = if y.isNull then .unknown else reading.relate key y .eq l := by
    unfold Service.equalTest at htest
    split at htest
    · cases hx
    · cases htest
      exact ⟨_, fun _ => rfl⟩
    · cases htest
      exact ⟨.null, fun _ => rfl⟩
    · cases htest
      exact ⟨_, fun _ => rfl⟩
    · cases htest
      exact ⟨_, fun _ => rfl⟩
    · cases htest
    · split at htest
      · cases htest
        exact ⟨_, fun _ => rfl⟩
      · cases htest
  refine ⟨l, fun r hr => ?_⟩
  rw [takes, Sql.Condition.truth, hl] at hr
  cases hnull : (r.cell key).isNull with
  | true =>
    rw [hnull] at hr
    cases hr
  | false =>
    refine ⟨rfl, ?_⟩
    rw [hnull, if_neg Bool.false_ne_true, Sql.Reading.relate] at hr
    split at hr
    · cases hr
    · rw [Sql.Truth.holds_ofBool] at hr
      exact eq_of_beq hr

/-- Where null is looked up, the rows without a value are taken. -/
theorem cell_of_equals_null {key : Column} {x : Value} {c : Sql.Condition}
    (h : Service.equals key x = .ok c) (hx : x.isNull = true) (hr : takes (some c) r = true) :
    r.cell key = .null := by
  obtain rfl := Value.eq_null_of_isNull hx
  cases h
  refine Cell.eq_null_of_isNull ?_
  rw [takes, Sql.Condition.truth, Sql.Reading.test] at hr
  cases hnull : (r.cell key).isNull with
  | true => rfl
  | false =>
    rw [show reading.isNull (r.cell key) = false from hnull] at hr
    cases hr

/-- Whether at most one row can be found under a value of a column: the column is a key by itself,
and null stands for no row in it, or is not looked up. -/
structure IsIdentifying (t : Table) (key : Column) (x : Value) : Prop where
  unique : [key] ∈ uniqueKeys t
  filled : key.nullable = false ∨ x.isNull = false

/-- **A key finds one row at most.** If a column is a key of the table by itself, two rows that are
found under one value agree on it, so they clash; and null is found nowhere in a column that may not
be null. -/
theorem taken_of_identifying (hs : s.IsLawful) {key : Column} {x : Value}
    (hkey : IsIdentifying s.table key x) {c : Sql.Condition}
    (h : Service.equals key x = .ok c) (hfound : s.rows.find? (takes (some c)) = some r) :
    s.rows.filter (takes (some c)) = [r] := by
  have hvalue : x.isNull = false := by
    rcases hkey.filled with hnullable | hvalue
    · refine Bool.eq_false_iff.mpr fun hnull => ?_
      have hcell := cell_of_equals_null h hnull (List.find?_some hfound)
      have hfits := hs.fits r (List.mem_of_find?_eq_some hfound)
      have hmem := mem_columns_of_uniqueKeys hkey.unique
      rcases unfilled?_eq_none hfits.filled hmem with hnullable' | hne
      · rw [hnullable] at hnullable'
        cases hnullable'
      · exact hne hcell
    · exact hvalue
  obtain ⟨l, hl⟩ := exists_operand_of_equals h hvalue
  have hclash : ∀ {a b : Row}, takes (some c) a = true → takes (some c) b = true →
      clash s.table a b = true := by
    intro a b ha hb
    obtain ⟨hnull, hleft⟩ := hl a ha
    have hequal := Std.TransCmp.eq_trans hleft (Std.OrientedCmp.eq_symm (hl b hb).2)
    refine List.any_eq_true.mpr ⟨[key], hkey.unique, ?_⟩
    rw [agree, List.all_cons, hnull, hequal]
    rfl
  have hdistinct := hs.distinct.filter (takes (some c))
  rw [← List.head?_filter] at hfound
  have htakes : ∀ q ∈ s.rows.filter (takes (some c)), takes (some c) q = true :=
    fun q hq => (List.mem_filter.mp hq).2
  -- The rows that are taken clash with each other, so there is no second one.
  cases hrows : s.rows.filter (takes (some c)) with
  | nil =>
    rw [hrows] at hfound
    cases hfound
  | cons a rest =>
    rw [hrows] at hfound hdistinct htakes
    obtain rfl : a = r := Option.some.inj hfound
    cases rest with
    | nil => rfl
    | cons b rest =>
      have hapart := (List.pairwise_cons.mp hdistinct).1 b List.mem_cons_self
      rw [hclash (htakes a List.mem_cons_self)
        (htakes b (List.mem_cons_of_mem a List.mem_cons_self))] at hapart
      cases hapart

end Store
end TableService
