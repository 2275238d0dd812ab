import TableService.Proofs.FiniteMap

/-!
# Which writes succeed

A step of a directory may be a refusal, so a service that refused every write would run a finite map
as well. Here is what it does not refuse, of the bodies that its schemas take:

> a creation succeeds **exactly if** every value that is meant for a column has a cell there, no
> column is left empty that has to be filled, and no row has the key.

Of an update of a row that is there the same is asked of what the row would become, which may keep
its key; and it has to assign something. Other rows are in the way by their keys and by nothing
else.
-/

namespace TableService
namespace Store

open Codec

variable {t : Table} {key : Column} {k : Literal} {s s' : Store} {r r' : Row} {values : Members}

/-! ## 1. Insertions -/

/-- In a column of a plain type, null is read where there is no cell and nowhere else. -/
theorem eq_null_iff_of_decode {c : Column} (hc : c.type.isPlain = true) {w : Value}
    (hread : decode c.type (r.cell c) = .ok w) : r.cell c = .null ↔ w = .null := by
  constructor
  · intro hnull
    rw [hnull] at hread
    exact (Except.ok.inj hread).symm
  · rintro rfl
    exact eq_null_of_decode hc hread

/-- What an insertion of values into a keyed table needs.

* Every value that is meant for a column has a cell there.
* No column is left empty that has to be filled.
* No row has the key of the new one. -/
structure CanInsert (t : Table) (key : Column) (s : Store) (values : Members) : Prop where
  bound : ∀ c ∈ t.columns, ∀ v, meant values c = some v → ∃ x, cellFor c v = .ok x
  filled : ∀ c ∈ t.columns, c.nullable = true ∨ created key s.nextNumber values c ≠ .null
  free : ∀ k, created key s.nextNumber values key = .literal k → s.directory key k = none

theorem canInsert_of_inserted (ht : t.IsKeyed key) (hs : s.IsDirectory t key)
    (hvalues : AreTyped t values) (h : Inserted s values r s') : CanInsert t key s values := by
  have htable := hs.table_eq
  obtain ⟨ps, cells, hbind, hcells, -⟩ := h.made
  rw [htable] at hbind
  refine ⟨fun c hc v hv => ?_, fun c hc => ?_, fun k hk => ?_⟩
  · exact exists_cells_iff.mp ⟨ps, cells, hbind, hcells⟩ c hc v
      ((lookup_withFallbacks ht.names values hc).trans hv)
  · have hread := (decode_created ht htable hvalues h hc).1
    exact (unfilled?_eq_none (htable ▸ h.filled) hc).imp id
      (mt (eq_null_iff_of_decode (ht.plain c hc) hread).mpr)
  · have hkey := (created_key ht htable hvalues h).2
    obtain rfl := Value.literal.inj (hkey.symm.trans hk)
    exact directory_eq_none.mpr fun x hx => (key_ne_of_inserted ht hs hvalues h x hx).symm

/-- **What can be inserted is inserted.** -/
theorem exists_inserted (ht : t.IsKeyed key) (hs : s.IsDirectory t key)
    (hvalues : AreTyped t values) (h : CanInsert t key s values) :
    ∃ r s', Inserted s values r s' := by
  obtain ⟨ps, cells, hbind, hcells⟩ : ∃ ps cells,
      bindAll (values ++ t.columns.filterMap (fallbackOf values)) t.columns = .ok ps ∧
        cellsOf ps = .ok cells :=
    exists_cells_iff.mpr fun c hc v hv =>
      h.bound c hc v ((lookup_withFallbacks ht.names values hc).symm.trans hv)
  obtain ⟨r, hrow⟩ := exists_numbered ht hvalues hbind hcells s.nextNumber
  have hread {c : Column} (hc : c ∈ t.columns) :=
    decode_numbered ht hvalues hbind hcells hrow hc
  have hfilled : unfilled? t r = none := unfilled?_eq_none_iff.mpr fun c hc =>
    (h.filled c hc).imp id (mt (eq_null_iff_of_decode (ht.plain c hc) (hread hc).1).mp)
  obtain ⟨hkey, hcreated⟩ := hasKey_of_decode ht hfilled (hread ht.mem).1 (hread ht.mem).2
  have hfree := directory_eq_none.mp (h.free _ hcreated)
  have htable := hs.table_eq
  refine ⟨r, { s with rows := place r s.rows }, ?_⟩
  exact {
    present := hs.present
    made := ⟨ps, cells, htable.symm ▸ hbind, hcells, htable.symm ▸ hrow⟩
    filled := htable.symm ▸ hfilled
    distinct := fun x hx => by
      rw [htable, ← Bool.not_eq_true, clash_iff ht hkey (hs.entries x hx).hasKey]
      exact (hfree x hx).symm
    after := rfl }

/-! ## 2. Updates -/

/-- Whether values leave no column of a row empty that has to be filled: neither by what is given for
it, nor as it was. -/
def Row.StaysFilled (t : Table) (values : Members) (r : Row) : Prop :=
  ∀ c ∈ t.columns, c.nullable = true ∨
    (∀ v, values.lookup c.name = some v → v.storedForm ≠ .null) ∧
      (values.lookup c.name = none → r.cell c ≠ .null)

/-- Whether the key that values give to a row, if they give one, is its own or one that no row
has. -/
def Row.StaysApart (key : Column) (s : Store) (values : Members) (r : Row) : Prop :=
  ∀ k, (values.lookup key.name).map Value.storedForm = some (.literal k) →
    k = r.key key ∨ s.directory key k = none

/-- What an update of a row of a keyed table by values needs, each of which has to have a cell in
its column. -/
structure CanAssign (t : Table) (key : Column) (s : Store) (values : Members) (r : Row) : Prop where
  bound : ∀ c ∈ t.columns, ∀ v, values.lookup c.name = some v → ∃ x, cellFor c v = .ok x
  filled : r.StaysFilled t values
  free : r.StaysApart key s values

section Assignment

variable {ps : List (Column × Parameter)} {cells : List (Column × Cell)}
  (ht : t.IsKeyed key) (hvalues : AreTyped t values) (hbind : bindAll values t.columns = .ok ps)
  (hcells : cellsOf ps = .ok cells)
include ht hvalues hbind hcells

/-- A row that has its number can be updated, unless its number column would be left empty. -/
theorem exists_updated (hr : r.IsEntry t key)
    (hfilled : ∀ v, values.lookup key.name = some v → v.storedForm ≠ .null) :
    ∃ r', r.updated? t (storedAll cells) = some r' := by
  rw [Row.updated?, ht.numberColumn?]
  by_cases htype : key.type = .integer
  · obtain ⟨n, hcell⟩ : ∃ n, (r.set (storedAll cells)).cell key = .integer n := by
      rw [cell_set ht.names hbind hcells ht.mem (hr.complete key ht.mem)]
      cases hv : values.lookup key.name with
      | none =>
        rw [given?, hv]
        exact ⟨r.id, hr.numbered htype⟩
      | some v =>
        obtain ⟨hholds, x, hx, hread⟩ := decode_given ht.isPlain hvalues hbind hcells ht.mem hv
        rw [hx, Option.getD_some]
        refine (cell_of_decode_integer (htype ▸ hread)
          (htype ▸ ColumnType.holds_storedForm hholds)).resolve_left ?_
        rintro rfl
        exact hfilled v hv (Except.ok.inj hread).symm
    rw [if_pos htype]
    simp only [hcell]
    exact ⟨_, rfl⟩
  · rw [if_neg htype]
    exact ⟨_, rfl⟩

/-- A row that was updated is filled exactly if nothing is left empty that has to be filled. -/
theorem unfilled?_updated (hr : r.IsEntry t key) (h : r.updated? t (storedAll cells) = some r') :
    unfilled? t r' = none ↔ r.StaysFilled t values := by
  rw [unfilled?_eq_none_iff]
  refine forall₂_congr fun c hc => or_congr_right ?_
  obtain ⟨hgiven, hleft⟩ :=
    decode_updated ht.isPlain hvalues hbind hcells h hc (hr.complete c hc)
  cases hv : values.lookup c.name with
  | none => simp [hleft hv]
  | some v => simp [eq_null_iff_of_decode (ht.plain c hc) (hgiven v hv).2]

/-- The key of a row that was updated is the one that is given for it, else the one it had. -/
theorem key_updated (hr : r.IsEntry t key) (h : r.updated? t (storedAll cells) = some r')
    (hfilled : unfilled? t r' = none) :
    key.type.HasKey (r'.key key) ∧
      match values.lookup key.name with
      | some v => v.storedForm = .literal (r'.key key)
      | none => r'.key key = r.key key := by
  obtain ⟨hgiven, hleft⟩ :=
    decode_updated ht.isPlain hvalues hbind hcells h ht.mem (hr.complete key ht.mem)
  cases hv : values.lookup key.name with
  | none =>
    have hkey : r'.key key = r.key key := by rw [Row.key, hleft hv, Row.key]
    exact ⟨hkey ▸ hr.hasKey, hkey⟩
  | some v =>
    obtain ⟨hholds, hread⟩ := hgiven v hv
    exact hasKey_of_decode ht hfilled hread (ColumnType.holds_storedForm hholds)

/-- The key of a row that was updated is free exactly if the one that is given for it is. -/
theorem free_updated (hr : r.IsEntry t key) (h : r.updated? t (storedAll cells) = some r')
    (hfilled : unfilled? t r' = none) :
    (r'.key key = r.key key ∨ s.directory key (r'.key key) = none) ↔
      r.StaysApart key s values := by
  have hkey := (key_updated ht hvalues hbind hcells hr h hfilled).2
  unfold Row.StaysApart
  cases hv : values.lookup key.name with
  | none =>
    rw [hv] at hkey
    simp [hkey]
  | some v =>
    rw [hv] at hkey
    simp [hkey]

end Assignment

/-- Some rows, each with whether it has a key, where a row stands in the place of one that has. -/
def replaceKey (key : Column) (k : Literal) (r' : Row) (rows : List Row) : List (Bool × Row) :=
  rows.map fun q => if q.key key = k then (true, r') else (false, q)

theorem eq_of_mem_replaceKey {rows : List Row} {m : Bool × Row}
    (hm : m ∈ replaceKey key k r' rows) (htaken : m.1 = true) : m = (true, r') := by
  obtain ⟨q, -, rfl⟩ := List.mem_map.mp hm
  by_cases hkey : q.key key = k
  · rw [if_pos hkey]
  · rw [if_neg hkey] at htaken
    cases htaken

section Replacing

variable (hs : s.IsDirectory t key) (hr : r ∈ s.rows)
include hs hr

/-- The row with a key is the only one that an update under the key marks. -/
theorem updatedRows?_key {cells : List (Text × Cell)} (hr' : r.updated? t cells = some r') :
    s.updatedRows? (.test key (.compare .eq (r.key key))) cells
      = some (replaceKey key (r.key key) r' s.rows) := by
  have htakes : ∀ q ∈ s.rows, takes (some (.test key (.compare .eq (r.key key)))) q
      = decide (q.key key = r.key key) := fun q hq => hs.takes (hs.entries r hr).hasKey hq
  rw [updatedRows?_eq (f := fun _ => r')]
  · exact congrArg some (List.map_congr_left fun q hq => by simp [htakes q hq])
  · intro q hq htaken
    rw [htakes q hq, decide_eq_true_eq] at htaken
    rw [List.inj_on_of_nodup_map hs.distinct hq hr htaken, hs.table_eq, hr']

variable {marked : List (Bool × Row)} (hperm : marked.Perm (replaceKey key (r.key key) r' s.rows))
include hperm

omit hs hr in
theorem requireAllFilled_of_perm_replaceKey (hfilled : unfilled? t r' = none) :
    requireAllFilled t (marked.filter (·.1)) = .ok () := by
  refine requireAllFilled_eq_ok.mpr fun m hm => ?_
  obtain ⟨hm, htaken⟩ := List.mem_filter.mp hm
  rw [eq_of_mem_replaceKey (hperm.mem_iff.mp hm) htaken]
  exact hfilled

omit hs in
theorem find?_of_perm_replaceKey : marked.find? (·.1) = some (true, r') := by
  cases hfound : marked.find? (·.1) with
  | none =>
    have hmem : (true, r') ∈ marked :=
      hperm.mem_iff.mpr (List.mem_map.mpr ⟨r, hr, by rw [if_pos rfl]⟩)
    exact absurd rfl (List.find?_eq_none.mp hfound _ hmem)
  | some m =>
    have hm := hperm.mem_iff.mp (List.mem_of_find?_eq_some hfound)
    rw [eq_of_mem_replaceKey hm (List.find?_some hfound)]

/-- Beside a new row whose key is free, or as it was, no row is in the way. -/
theorem noClash_of_perm_replaceKey (ht : t.IsKeyed key) (hkey : key.type.HasKey (r'.key key))
    (hfree : r'.key key = r.key key ∨ s.directory key (r'.key key) = none) :
    noClash t (marked.map (·.2)) = true := by
  have hsnd : (replaceKey key (r.key key) r' s.rows).map (·.2)
      = s.rows.map fun q => if q.key key = r.key key then r' else q := by
    rw [replaceKey, List.map_map]
    refine List.map_congr_left fun q _ => ?_
    rw [Function.comp_apply]
    split <;> rfl
  have hrows : (marked.map (·.2)).Perm
      (r' :: s.rows.filter fun q => decide (q.key key ≠ r.key key)) :=
    (hperm.map _).trans (hsnd ▸ perm_replace hs.distinct hr rfl r')
  refine noClash_of_distinct ht (fun q hq => ?_) ?_
  · rcases List.mem_cons.mp (hrows.mem_iff.mp hq) with rfl | hq
    · exact hkey
    · exact (hs.entries q (List.mem_filter.mp hq).1).hasKey
  · rw [(hrows.map _).nodup_iff, List.map_cons, List.nodup_cons]
    refine ⟨fun hmem => ?_, hs.distinct.sublist (List.filter_sublist.map _)⟩
    obtain ⟨q, hq, heq⟩ := List.mem_map.mp hmem
    obtain ⟨hq, hne⟩ := List.mem_filter.mp hq
    rcases hfree with hsame | habsent
    · exact of_decide_eq_true hne (heq.trans hsame)
    · exact directory_eq_none.mp habsent q hq heq

end Replacing

/-- **A row that can be replaced is replaced**, by an update under its key. -/
theorem exists_update (ht : t.IsKeyed key) (hs : s.IsDirectory t key)
    (hvalues : AreTyped t values) (hr : r ∈ s.rows) (hb : bindable (r.key key) = true)
    (h : CanAssign t key s values r) :
    ∃ r' s', s.update (Service.equals key (.literal (r.key key))) values = .ok (some r', s') := by
  have hentry := hs.entries r hr
  obtain ⟨ps, cells, hbind, hcells⟩ := exists_cells_iff.mpr h.bound
  have hkeyFilled := (h.filled key ht.mem).resolve_left (by simp [ht.keyFilled])
  obtain ⟨r', hr'⟩ := exists_updated ht hvalues hbind hcells hentry hkeyFilled.1
  have hfilled := (unfilled?_updated ht hvalues hbind hcells hentry hr').mpr h.filled
  have hfree := (free_updated ht hvalues hbind hcells hentry hr' hfilled).mpr h.free
  have hkey := (key_updated ht hvalues hbind hcells hentry hr' hfilled).1
  have hmarked := updatedRows?_key hs hr hr'
  have hperm : (inOrder (replaceKey key (r.key key) r' s.rows)).Perm _ := List.mergeSort_perm _ _
  have hallFilled := requireAllFilled_of_perm_replaceKey hperm hfilled
  have hclash := noClash_of_perm_replaceKey hs hr hperm ht hkey hfree
  rw [← hs.table_eq] at hbind hallFilled hclash
  rw [equals_key hentry.hasKey, update_of_marked hbind (requireTable_eq hs) hcells
    (requireBindable_key s hb) hmarked hallFilled hclash, find?_of_perm_replaceKey hr hperm]
  exact ⟨r', _, rfl⟩

theorem canAssign_of_replaced (ht : t.IsKeyed key) (hs : s.IsDirectory t key)
    (hvalues : AreTyped t values) (h : Replaced t key s k values r r' s') :
    CanAssign t key s values r := by
  obtain ⟨ps, cells, hbind, hcells, hr'⟩ := h.made
  have hr := hs.entries r h.mem
  refine ⟨exists_cells_iff.mp ⟨ps, cells, hbind, hcells⟩,
    (unfilled?_updated ht hvalues hbind hcells hr hr').mp h.filled,
    (free_updated ht hvalues hbind hcells hr hr' h.filled).mp ?_⟩
  rw [h.key_eq]
  exact key_free_of_replaced ht hs hvalues h

end Store

namespace Service

open Store

variable {v : Service} {t : Table} {key : Column} {s : Store} {r : Request} {k : Literal}
  {values : Members}

/-! ## 3. Requests -/

/-- **When a creation succeeds.** -/
theorem createRow_succeeds_iff (hv : v.Keeps t key) (hs : s.IsDirectory t key)
    (hbody : v.bodyValues v.binding.schemas.create r = .ok values) :
    (∃ a, (v.createRow s r).1 = .ok a) ↔ CanInsert t key s values := by
  have ht := hv.keyed
  have hvalues := (of_bodyValues ht.isPlain hv.table_eq hv.schemas.create hbody).2
  constructor
  · rintro ⟨a, ha⟩
    rcases v.createRow_cases s r with
      ⟨e, hrun⟩ | ⟨values', row, s', shown, hbody', hinsert, -, -⟩
    · rw [hrun] at ha
      cases ha
    · obtain rfl := Except.ok.inj (hbody'.symm.trans hbody)
      exact canInsert_of_inserted ht hs hvalues (inserted_of_insert hinsert)
  · intro h
    obtain ⟨row, s', hinserted⟩ := exists_inserted ht hs hvalues h
    have hshown : row.values t.columns = .ok (t.columns.map fun c => (c.name, row.read c)) :=
      Row.values_eq_ok.mpr ⟨fun c hc =>
        ⟨_, (decode_created ht hs.table_eq hvalues hinserted hc).1⟩, rfl⟩
    have hanswer := creationAnswer_eq ht.isPlain hv.schemas
      (Row.isReadable_of_inserted ht.isPlain hs.table_eq hvalues hinserted)
    simp only [createRow, hbody, insert_of_inserted hinserted, hv.table_eq, hshown]
    exact ⟨_, hanswer⟩

/-- A book without a number is added, and one under a number that is taken is not. -/
example :
    (∃ a, (bookService.createRow oneBook (bookRequest [] [(['t'], .text ['b'])])).1 = .ok a) ∧
      ∃ e, (bookService.createRow oneBook
        (bookRequest [] [(['i', 'd'], .integer 3), (['t'], .text ['b'])])).1 = .error e :=
  ⟨⟨_, rfl⟩, _, rfl⟩

/-- **When an update succeeds** of a row that is there. -/
theorem updateRow_succeeds_iff (hv : v.Keeps t key) (hs : Content t key s) {row : Row}
    (hrow : row ∈ s.rows) (hr : Addresses key r (row.key key))
    (hbody : v.bodyValues v.binding.schemas.update r = .ok values) :
    (∃ a, (v.updateRow s r).1 = .ok a) ↔ values ≠ [] ∧ CanAssign t key s values row := by
  have ht := hv.keyed
  have hvalues := (of_bodyValues ht.isPlain hv.table_eq hv.schemas.update hbody).2
  constructor
  · rintro ⟨a, ha⟩
    rcases updateRow_cases_of_keeps hv hs.directory hr with
      ⟨e, -, -, hrun⟩ | ⟨values', first, s', hbody', hne, hupdate, hrun⟩
    · rw [hrun] at ha
      cases ha
    · obtain rfl := Except.ok.inj (hbody'.symm.trans hbody)
      have hupdated := updated_of_update hupdate
      cases first with
      | none =>
        rw [hrun] at ha
        cases ha
      | some row' =>
        obtain ⟨old, h⟩ := replaced_of_updated hs.directory (hr.hasKey ht) hupdated
        obtain rfl := List.inj_on_of_nodup_map hs.directory.distinct h.mem hrow h.key_eq
        exact ⟨hne, canAssign_of_replaced ht hs.directory hvalues h⟩
  · rintro ⟨hne, h⟩
    obtain ⟨row', s', hupdate⟩ := exists_update ht hs.directory hvalues hrow hr.bindable h
    have hreadable := (IsReadable.updated ht.isPlain ⟨hs.directory.table_eq, hs.readable⟩ hvalues
      (updated_of_update hupdate)).rows row' (mem_of_updated (updated_of_update hupdate))
    obtain ⟨shown, hshown, hpresent⟩ :=
      Outcome.bind_eq_ok.mp (rowAnswer_eq ht hv.table_eq hv.schemas hreadable)
    have hempty : values.isEmpty = false := by simpa using hne
    rw [updateRow_eq hv s hr hbody, hempty, hupdate]
    simp only [Bool.false_eq_true, if_false, hshown]
    exact ⟨_, hpresent⟩

end Service
end TableService
