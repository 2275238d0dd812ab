import Mathlib.Data.List.Find
import Mathlib.Data.List.Nodup
import Mathlib.Logic.Function.Basic
import TableService.Resource.Perform
import TableService.Proofs.KeyedRows
import TableService.Proofs.StatementParameters

/-!
# A table as a directory

The rows of a keyed table are the entries of a directory: a function that has, for a key, the values
that the columns of its row show, or nothing. **A write does to the directory what it says**: an
insertion sets one entry, under a key that had none; an update replaces the entry of its key,
perhaps under another key that had none; a deletion removes one.

That takes two facts about keys. The condition that the key column is equal to a key takes the rows
with that key and no others, and two rows clash exactly if they have the same key.
-/

namespace TableService

theorem Text.compareText_eq_iff {s t : Text} : Text.compareText s t = .eq ↔ s = t := by
  induction s generalizing t with
  | nil => cases t <;> simp [Text.compareText]
  | cons c s ih =>
    cases t with
    | nil => simp [Text.compareText]
    | cons d t => simp [Text.compareText, Ordering.then_eq_eq, ih, Char.toNat_inj]

namespace Store

open Codec

/-! ## 1. Keys -/

/-- The key of a row: what it holds in a column, if that is an integer or a text. -/
def Row.key (c : Column) (r : Row) : Literal :=
  match r.cell c with
  | .integer n => .integer n
  | .text t => .text t
  | _ => .null

variable {t : Table} {key : Column} {k l : Literal} {r q : Row} {s s' : Store}

theorem ne_null_of_hasKey {c : ColumnType} (hk : c.HasKey k) : k ≠ .null := by
  rintro rfl
  rcases hk.cases with ⟨-, n, hn⟩ | ⟨-, u, hu⟩
  · cases hn
  · cases hu

theorem Row.cell_of_hasKey (h : key.type.HasKey (r.key key)) :
    r.cell key = Cell.ofLiteral (r.key key) := by
  have hne := ne_null_of_hasKey h
  unfold Row.key at hne ⊢
  cases hcell : r.cell key with
  | integer n => rfl
  | text u => rfl
  | null => exact absurd (by rw [hcell]) hne
  | real x => exact absurd (by rw [hcell]) hne

theorem decode_ofLiteral {c : ColumnType} (hk : c.HasKey k) :
    decode c (Cell.ofLiteral k) = .ok (.literal k) := by
  rcases hk.cases with ⟨rfl | rfl, n, rfl⟩ | ⟨rfl | rfl, u, rfl⟩ <;> rfl

theorem decode_key (h : key.type.HasKey (r.key key)) :
    decode key.type (r.cell key) = .ok (.literal (r.key key)) := by
  rw [Row.cell_of_hasKey h, decode_ofLiteral h]

theorem isNull_ofLiteral (hk : key.type.HasKey k) : (Cell.ofLiteral k).isNull = false := by
  rcases hk.cases with ⟨-, n, rfl⟩ | ⟨-, u, rfl⟩ <;> rfl

/-- An operand that is a key is compared as it is. -/
theorem operand_key (hk : key.type.HasKey k) : Cell.operand key k = Cell.ofLiteral k := by
  have hsent : Cell.sent key k = Cell.ofLiteral k := by
    rcases hk.cases with ⟨-, n, rfl⟩ | ⟨-, u, rfl⟩ <;> cases htype : key.type <;>
      simp only [Cell.sent, htype]
  rw [Cell.operand, hsent]
  rcases hk.cases with ⟨htype | htype, n, rfl⟩ | ⟨htype | htype, u, rfl⟩ <;> rw [htype] <;> rfl

/-- Two keys of one column are equal as cells if they are the same. -/
theorem compare_ofLiteral (hk : key.type.HasKey k) (hl : key.type.HasKey l) :
    (Cell.ofLiteral k).compare (Cell.ofLiteral l) = .eq ↔ k = l := by
  rcases hk.cases with ⟨-, n, rfl⟩ | ⟨htype, u, rfl⟩ <;>
    rcases hl.cases with ⟨htype', m, rfl⟩ | ⟨-, w, rfl⟩
  · simp [Cell.ofLiteral, Cell.compare]
  · simp [Cell.ofLiteral, Cell.compare]
  · simp [Cell.ofLiteral, Cell.compare]
  · simp [Cell.ofLiteral, Cell.compare, Text.compareText_eq_iff]

theorem equals_key (hk : key.type.HasKey k) :
    Service.equals key (.literal k) = .ok (.test key (.compare .eq k)) := by
  rcases hk.cases with ⟨-, n, rfl⟩ | ⟨-, u, rfl⟩ <;> rfl

/-- The condition that a row is looked up by takes the rows with the key. -/
theorem takes_key (hk : key.type.HasKey k) (hr : key.type.HasKey (r.key key)) :
    takes (some (.test key (.compare .eq k))) r = decide (r.key key = k) := by
  have hcompare := compare_ofLiteral hr hk
  rw [← Row.cell_of_hasKey hr] at hcompare
  have hnull : reading.isNull (r.cell key) = false := by
    rw [Row.cell_of_hasKey hr]
    exact isNull_ofLiteral hr
  have htest : reading.test key (r.cell key) (.compare .eq k)
      = .ofBool (Relation.eq.holds ((r.cell key).compare (Cell.operand key k))) := by
    simp only [Sql.Reading.test, hnull, Bool.false_eq_true, if_false, Sql.Reading.present,
      Sql.Reading.relate, if_neg (ne_null_of_hasKey hk)]
    rfl
  -- Neither side is null, so the truth of the condition is the outcome of the comparison.
  rw [takes, Sql.Condition.truth, htest, operand_key hk]
  by_cases heq : r.key key = k
  · rw [hcompare.mpr heq, decide_eq_true heq]
    rfl
  · have hcell : ((r.cell key).compare (Cell.ofLiteral k) == .eq) = false :=
      beq_false_of_ne fun h => heq (hcompare.mp h)
    rw [Relation.holds, hcell, decide_eq_false heq]
    rfl

theorem requireBindable_key (s : Store) (hb : bindable k = true) :
    requireBindable (s.operandsOf (.test key (.compare .eq k))) = .ok () := by
  have hliterals : s.operandsOf (.test key (.compare .eq k)) = [k] :=
    Sql.Condition.parametersOf_barePieces .sqlite s.table _
  rw [hliterals, requireBindable, List.all_cons, hb]
  rfl

theorem clash_iff (ht : t.IsKeyed key) (hr : key.type.HasKey (r.key key))
    (hq : key.type.HasKey (q.key key)) : clash t r q = true ↔ r.key key = q.key key := by
  have hagree : agree [key] r q = true ↔ r.key key = q.key key := by
    rw [agree, List.all_cons, List.all_nil, Bool.and_true, Row.cell_of_hasKey hr,
      Row.cell_of_hasKey hq, isNull_ofLiteral hr, Bool.not_false, Bool.true_and, beq_iff_eq,
      compare_ofLiteral hr hq]
  -- A unique column can only be the key column once more.
  rw [clash, uniqueKeys, ht.primaryKey, List.any_append, Bool.or_eq_true, ← hagree]
  constructor
  · rintro (h | h)
    · simpa using h
    · obtain ⟨cs, hcs, h⟩ := List.any_eq_true.mp h
      obtain ⟨c, hc, rfl⟩ := List.mem_map.mp hcs
      obtain ⟨hmem, hunique⟩ := List.mem_filter.mp hc
      rwa [ht.eq_of_name hmem ht.mem (ht.unique c hmem hunique)] at h
  · exact fun h => .inl (by simpa using h)

/-! ## 2. Directories -/

/-- What is known of a row of a keyed table: it has a cell in every column, and a key, which is its
number if the column holds the numbers. -/
structure Row.IsEntry (t : Table) (key : Column) (r : Row) : Prop where
  complete : ∀ c ∈ t.columns, (r.cells.lookup c.name).isSome = true
  numbered : key.type = .integer → r.cell key = .integer r.id
  hasKey : key.type.HasKey (r.key key)

/-- What is known of the store of a keyed table: its rows are entries in order, and no two have the
same key. -/
structure IsDirectory (s : Store) (t : Table) (key : Column) : Prop where
  table_eq : s.table = t
  present : s.isDropped = false
  ordered : s.Ordered
  entries : ∀ r ∈ s.rows, r.IsEntry t key
  distinct : (s.rows.map (Row.key key)).Nodup

/-- The values that the columns of a row show, by name. -/
def Row.shown (t : Table) (r : Row) : Members := t.columns.map fun c => (c.name, c.shown (r.cell c))

/-- Under the name of the key column, a row shows its key. -/
theorem lookup_shown_key (ht : t.IsKeyed key) (hr : r.IsEntry t key) :
    (r.shown t).lookup key.name = some (.literal (r.key key)) := by
  have hne : r.cell key ≠ .null := by
    intro hnull
    have hcell := isNull_ofLiteral hr.hasKey
    rw [← Row.cell_of_hasKey hr.hasKey, hnull] at hcell
    cases hcell
  rw [Row.shown, lookup_map ht.names ht.mem, Column.shown,
    Column.shown?_of_decode (ht.plain key ht.mem) (decode_key hr.hasKey)
      (.inr hr.hasKey.holds) (.inr hne),
    Option.getD_some]

/-- For a key, the values of its row, if there is one. -/
abbrev Directory := Literal → Option Members

/-- The rows of a store by their keys. -/
def directory (key : Column) (s : Store) : Directory := fun k =>
  (s.rows.find? fun r => decide (r.key key = k)).map (Row.shown s.table)

/-- Among rows with different keys, the row with a key is found. -/
theorem find?_key_eq_some {rows : List Row} (h : (rows.map (Row.key key)).Nodup) :
    rows.find? (fun q => decide (q.key key = k)) = some r ↔ r ∈ rows ∧ r.key key = k := by
  constructor
  · exact fun hfound =>
      ⟨List.mem_of_find?_eq_some hfound, by simpa using List.find?_some hfound⟩
  · rintro ⟨hr, rfl⟩
    cases hfound : rows.find? fun q => decide (q.key key = r.key key) with
    | none => exact absurd (List.find?_eq_none.mp hfound r hr) (by simp)
    | some q =>
      have hkey : q.key key = r.key key := by simpa using List.find?_some hfound
      rw [List.inj_on_of_nodup_map h (List.mem_of_find?_eq_some hfound) hr hkey]

/-- So it does not matter how the store comes by the rows. -/
theorem find?_key_of_perm {rows rows' : List Row} (hperm : rows'.Perm rows)
    (h : (rows.map (Row.key key)).Nodup) :
    rows'.find? (fun q => decide (q.key key = k)) = rows.find? fun q => decide (q.key key = k) := by
  ext r
  rw [find?_key_eq_some h, find?_key_eq_some ((hperm.map _).nodup_iff.mpr h), hperm.mem_iff]

theorem directory_key (h : s.IsDirectory t key) (hr : r ∈ s.rows) :
    s.directory key (r.key key) = some (r.shown t) := by
  rw [directory, (find?_key_eq_some h.distinct).mpr ⟨hr, rfl⟩, Option.map_some, h.table_eq]

theorem directory_eq_none : s.directory key k = none ↔ ∀ r ∈ s.rows, r.key key ≠ k := by
  rw [directory, Option.map_eq_none_iff, List.find?_eq_none]
  simp

/-- A directory is known by what it has under the keys of the rows, and that it has nothing under
others. -/
theorem directory_eq {D : Directory} (h : s.IsDirectory t key)
    (hrows : ∀ r ∈ s.rows, D (r.key key) = some (r.shown t))
    (hothers : ∀ k, (∀ r ∈ s.rows, r.key key ≠ k) → D k = none) : s.directory key = D := by
  funext k
  by_cases hk : ∃ r ∈ s.rows, r.key key = k
  · obtain ⟨r, hr, rfl⟩ := hk
    rw [directory_key h hr, hrows r hr]
  · have hnone : ∀ r ∈ s.rows, r.key key ≠ k := fun r hr heq => hk ⟨r, hr, heq⟩
    rw [directory_eq_none.mpr hnone, hothers k hnone]

/-! ## 3. Lookups and deletions -/

theorem requireTable_eq (h : s.IsDirectory t key) : s.requireTable = .ok () :=
  requireTable_eq_ok.mpr h.present

theorem IsDirectory.takes (h : s.IsDirectory t key) (hk : key.type.HasKey k) (hr : r ∈ s.rows) :
    Store.takes (some (.test key (.compare .eq k))) r = decide (r.key key = k) :=
  takes_key hk (h.entries r hr).hasKey

/-- A lookup by a key finds the row with the key, whichever way the store goes. -/
theorem lookUp?_key (h : s.IsDirectory t key) (hk : key.type.HasKey k) (hb : bindable k = true)
    (columns : List Column) :
    s.lookUp? columns (Service.equals key (.literal k))
      = .ok (s.rows.find? fun r => decide (r.key key = k)) := by
  rw [equals_key hk, lookUp?, first?]
  simp only [requireTable_scanned, requireTable_eq h, requireBindable_key _ hb, bind, Except.bind,
    pure, Except.pure]
  rw [List.find?_congr fun r hr => h.takes hk (mem_scanned.mp hr),
    find?_key_of_perm (s.scanned_perm _) h.distinct]

theorem delete_key (h : s.IsDirectory t key) (hk : key.type.HasKey k) (hb : bindable k = true) :
    s.delete (Service.equals key (.literal k))
      = .ok (s.rows.find? fun r => decide (r.key key = k),
          { s with rows := s.rows.filter fun r => decide (r.key key ≠ k) }) := by
  rw [delete, equals_key hk]
  simp only [requireTable_eq h, bind, Except.bind, requireBindable_key s hb, pure, Except.pure]
  have hkept : s.rows.filter (fun r => !Store.takes (some (.test key (.compare .eq k))) r)
      = s.rows.filter fun r => decide (r.key key ≠ k) := by
    refine List.filter_congr fun r hr => ?_
    rw [h.takes hk hr, decide_not]
  rw [List.find?_congr fun r hr => h.takes hk hr, hkept]

theorem IsDirectory.deleted (h : s.IsDirectory t key) (k : Literal) :
    IsDirectory { s with rows := s.rows.filter fun r => decide (r.key key ≠ k) } t key where
  table_eq := h.table_eq
  present := h.present
  ordered := List.Pairwise.filter _ h.ordered
  entries := fun r hr => h.entries r (List.mem_filter.mp hr).1
  distinct := h.distinct.sublist (List.filter_sublist.map _)

/-- A deletion removes one entry. -/
theorem directory_deleted (h : s.IsDirectory t key) (k : Literal) :
    directory key { s with rows := s.rows.filter fun r => decide (r.key key ≠ k) }
      = Function.update (s.directory key) k none := by
  refine directory_eq (h.deleted k) (fun r hr => ?_) fun l hl => ?_
  · obtain ⟨hmem, hne⟩ := List.mem_filter.mp hr
    rw [Function.update_of_ne (of_decide_eq_true hne), directory_key h hmem]
  · by_cases hlk : l = k
    · rw [hlk, Function.update_self]
    · rw [Function.update_of_ne hlk, directory_eq_none]
      intro r hr heq
      exact hl r (List.mem_filter.mpr ⟨hr, decide_eq_true (heq ▸ hlk)⟩) heq

/-! ## 4. Insertions -/

/-- A row whose key column reads a value of its type, or null where nothing is missing, has that
value for its key. -/
theorem hasKey_of_decode (ht : t.IsKeyed key) (hfilled : unfilled? t r = none) {w : Value}
    (hread : decode key.type (r.cell key) = .ok w) (hw : w = .null ∨ key.type.Holds w) :
    key.type.HasKey (r.key key) ∧ w = .literal (r.key key) := by
  rcases hw with rfl | hw
  · -- A key column may not be null, and only null is read as null.
    rcases unfilled?_eq_none hfilled ht.mem with hnullable | hne
    · rw [ht.keyFilled] at hnullable
      cases hnullable
    · exact absurd (eq_null_of_decode (ht.plain key ht.mem) hread) hne
  · unfold Row.key
    rcases ht.type_cases with (htype | htype) | htype | htype <;> rw [htype] at hread hw ⊢ <;>
      cases hcell : r.cell key <;> rw [hcell] at hread <;> cases hread <;>
      first | exact hw.elim | exact ⟨trivial, rfl⟩

/-- The values that an insertion means for the columns of a table, by name. -/
def createdEntry (t : Table) (key : Column) (number : Int) (values : Members) : Members :=
  t.columns.map fun c => (c.name, created key number values c)

section Insertion

variable {values : Members}

theorem created_key (ht : t.IsKeyed key) (hs : s.table = t) (hvalues : AreTyped t values)
    (h : Inserted s values r s') :
    key.type.HasKey (r.key key) ∧ created key s.nextNumber values key = .literal (r.key key) := by
  obtain ⟨hread, hholds⟩ := decode_created ht hs hvalues h ht.mem
  exact hasKey_of_decode ht (hs ▸ h.filled) hread hholds

theorem shown_created (ht : t.IsKeyed key) (hs : s.table = t) (hvalues : AreTyped t values)
    (h : Inserted s values r s') : r.shown t = createdEntry t key s.nextNumber values := by
  refine List.map_congr_left fun c hc => ?_
  rw [Column.shown, shown?_created ht hs hvalues h hc]
  rfl

theorem isEntry_of_inserted (ht : t.IsKeyed key) (hs : s.table = t) (hvalues : AreTyped t values)
    (h : Inserted s values r s') : r.IsEntry t key := by
  obtain ⟨ps, cells, -, -, hrow⟩ := h.made
  rw [hs] at hrow
  exact {
    complete := fun c hc => isSome_lookup_of_inserted h (hs ▸ hc)
    numbered := (of_numbered? ht hrow).2.1
    hasKey := (created_key ht hs hvalues h).1 }

theorem mem_place {x : Row} {rows : List Row} : x ∈ place r rows ↔ x = r ∨ x ∈ rows := by
  rw [(perm_place r rows).mem_iff, List.mem_cons]

theorem key_ne_of_inserted (ht : t.IsKeyed key) (hs : s.IsDirectory t key)
    (hvalues : AreTyped t values) (h : Inserted s values r s') :
    ∀ x ∈ s.rows, r.key key ≠ x.key key := by
  intro x hx heq
  have hkey := (created_key ht hs.table_eq hvalues h).1
  have hclash := (clash_iff ht hkey (hs.entries x hx).hasKey).mpr heq
  have hdistinct := h.distinct x hx
  rw [hs.table_eq, hclash] at hdistinct
  cases hdistinct

theorem IsDirectory.inserted (ht : t.IsKeyed key) (hs : s.IsDirectory t key)
    (hvalues : AreTyped t values) (h : Inserted s values r s') : s'.IsDirectory t key := by
  have hordered := hs.ordered.insert h
  rw [h.after] at hordered ⊢
  refine ⟨hs.table_eq, hs.present, hordered, fun x hx => ?_, ?_⟩
  · rcases mem_place.mp hx with rfl | hx
    · exact isEntry_of_inserted ht hs.table_eq hvalues h
    · exact hs.entries x hx
  · rw [((perm_place r s.rows).map _).nodup_iff, List.map_cons, List.nodup_cons]
    refine ⟨fun hmem => ?_, hs.distinct⟩
    obtain ⟨x, hx, heq⟩ := List.mem_map.mp hmem
    exact key_ne_of_inserted ht hs hvalues h x hx heq.symm

/-- An insertion sets one entry. -/
theorem directory_inserted (ht : t.IsKeyed key) (hs : s.IsDirectory t key)
    (hvalues : AreTyped t values) (h : Inserted s values r s') :
    s'.directory key = Function.update (s.directory key) (r.key key)
      (some (createdEntry t key s.nextNumber values)) := by
  have hrows : s'.rows = place r s.rows := by rw [h.after]
  refine directory_eq (hs.inserted ht hvalues h) (fun x hx => ?_) fun k hk => ?_
  · rcases mem_place.mp (hrows ▸ hx) with rfl | hx
    · rw [Function.update_self, shown_created ht hs.table_eq hvalues h]
    · rw [Function.update_of_ne (key_ne_of_inserted ht hs hvalues h x hx).symm, directory_key hs hx]
  · rw [hrows] at hk
    rw [Function.update_of_ne (hk r (mem_place.mpr (.inl rfl))).symm, directory_eq_none]
    exact fun x hx => hk x (mem_place.mpr (.inr hx))

end Insertion

/-! ## 5. Updates -/

/-- A replacement of the row with a key, as an update makes it: the row with its cells set, with a
cell wherever one is asked for, stands beside the other rows and clashes with none. -/
structure Replaced (t : Table) (key : Column) (s : Store) (k : Literal) (values : Members)
    (r r' : Row) (s' : Store) : Prop where
  mem : r ∈ s.rows
  key_eq : r.key key = k
  made : ∃ parameters cells, bindAll values t.columns = .ok parameters ∧
    cellsOf parameters = .ok cells ∧ r.updated? t (storedAll cells) = some r'
  filled : unfilled? t r' = none
  distinct : noClash t s'.rows = true
  rows : s'.rows.Perm (r' :: s.rows.filter fun q => decide (q.key key ≠ k))
  after : s' = { s with rows := s'.rows }
  ordered : s'.Ordered

theorem exists_of_mem_right {α β : Type} {R : α → β → Prop} {xs : List α} {ys : List β}
    (h : List.Forall₂ R xs ys) {y : β} (hy : y ∈ ys) : ∃ x ∈ xs, R x y := by
  induction h with
  | nil => cases hy
  | @cons a b xs ys hab _ ih =>
    rcases List.mem_cons.mp hy with rfl | hy
    · exact ⟨a, List.mem_cons_self, hab⟩
    · obtain ⟨x, hx, hxy⟩ := ih hy
      exact ⟨x, List.mem_cons_of_mem a hx, hxy⟩

theorem marked_eq {condition : Sql.Condition} {cells : List (Text × Cell)} {r' : Row}
    {rows : List Row} {marked : List (Bool × Row)}
    (hmarks : List.Forall₂ (Marks t condition cells) rows marked)
    (htakes : ∀ q ∈ rows, takes (some condition) q = decide (q.key key = k))
    (hr' : ∀ q ∈ rows, q.key key = k → q.updated? t cells = some r') :
    marked.map (·.2) = rows.map fun q => if q.key key = k then r' else q := by
  induction hmarks with
  | nil => rfl
  | @cons q m rows marked hmark _ ih =>
    obtain ⟨hq, htakes⟩ := List.forall_mem_cons.mp htakes
    obtain ⟨hq', hr'⟩ := List.forall_mem_cons.mp hr'
    rw [List.map_cons, List.map_cons, ih htakes hr']
    cases hmark with
    | taken htaken hnew =>
      have hkey := of_decide_eq_true (hq.symm.trans htaken)
      rw [if_pos hkey, Option.some.inj (hnew.symm.trans (hq' hkey))]
    | left hleft => rw [if_neg (of_decide_eq_false (hq.symm.trans hleft))]

/-- A row replaced where its key stands, is the new row beside those with other keys. -/
theorem perm_replace {rows : List Row} (hnodup : (rows.map (Row.key key)).Nodup) (hr : r ∈ rows)
    (hkey : r.key key = k) (r' : Row) :
    (rows.map fun q => if q.key key = k then r' else q).Perm
      (r' :: rows.filter fun q => decide (q.key key ≠ k)) := by
  -- The keys differ, so the rows on both sides of the row are left as they are.
  obtain ⟨before, after, rfl⟩ := List.append_of_mem hr
  rw [List.map_append, List.map_cons, List.nodup_middle, List.nodup_cons,
    ← List.map_append] at hnodup
  have hothers : ∀ q ∈ before ++ after, q.key key ≠ k := fun q hq heq =>
    hnodup.1 (List.mem_map.mpr ⟨q, hq, heq.trans hkey.symm⟩)
  obtain ⟨hbefore, hafter⟩ := List.forall_mem_append.mp hothers
  have hsame : ∀ qs : List Row, (∀ q ∈ qs, q.key key ≠ k) →
      qs.map (fun q => if q.key key = k then r' else q) = qs ∧
        qs.filter (fun q => decide (q.key key ≠ k)) = qs := fun qs hqs =>
    ⟨(List.map_congr_left fun q hq => if_neg (hqs q hq)).trans (List.map_id qs),
      List.filter_eq_self.mpr fun q hq => decide_eq_true (hqs q hq)⟩
  rw [List.map_append, List.map_cons, (hsame before hbefore).1, (hsame after hafter).1, if_pos hkey,
    List.filter_append, List.filter_cons_of_neg (by simp [hkey]), (hsame before hbefore).2,
    (hsame after hafter).2]
  exact List.perm_middle

theorem replaced_of_updated (hs : s.IsDirectory t key) (hk : key.type.HasKey k) {values : Members}
    {r' : Row} (h : Updated s (Service.equals key (.literal k)) values (some r') s') :
    ∃ r, Replaced t key s k values r r' s' := by
  have hordered := Ordered.update h
  obtain ⟨ps, cells, c, marked, hbind, hcells, hc, hmarks, hfilled, hclash, hfirst, hafter⟩ :=
    h.made
  rw [hs.table_eq] at hbind hmarks hfilled hclash
  rw [equals_key hk] at hc
  cases hc
  have hperm : (inOrder marked).Perm marked := List.mergeSort_perm _ _
  have hrows : s'.rows = (inOrder marked).map (·.2) := by rw [hafter]
  obtain ⟨m, hfound, rfl⟩ := Option.map_eq_some_iff.mp hfirst.symm
  -- The first row that was taken is the one with the key, since it is the only one.
  have hm := List.mem_of_find?_eq_some hfound
  have htaken := List.find?_some hfound
  obtain ⟨r, hr, hmark⟩ := exists_of_mem_right hmarks (hperm.mem_iff.mp hm)
  cases hmark with
  | left _ => cases htaken
  | taken htakes hr' =>
    rw [hs.takes hk hr] at htakes
    have hkey := of_decide_eq_true htakes
    exact ⟨r, {
      mem := hr
      key_eq := hkey
      made := ⟨ps, cells, hbind, hcells, hr'⟩
      filled := requireAllFilled_eq_ok.mp hfilled _ (List.mem_filter.mpr ⟨hm, rfl⟩)
      distinct := hrows ▸ hclash
      rows := by
        have honly : ∀ q ∈ s.rows, q.key key = k → q = r := fun q hq heq =>
          List.inj_on_of_nodup_map hs.distinct hq hr (heq.trans hkey.symm)
        have hmarked := marked_eq hmarks (fun q hq => hs.takes hk hq) fun q hq heq =>
          honly q hq heq ▸ hr'
        rw [hrows]
        exact (hperm.map _).trans (hmarked ▸ perm_replace hs.distinct hr hkey _)
      after := hrows ▸ hafter
      ordered := hordered }⟩

/-- Values assigned to some columns of an entry, each in its stored form. -/
def assign (values entry : Members) : Members :=
  entry.map fun (name, v) => (name, ((values.lookup name).map Value.storedForm).getD v)

section Replacement

variable {values : Members} {r' : Row}

theorem shown_replaced (ht : t.IsKeyed key) (hs : s.IsDirectory t key) (hvalues : AreTyped t values)
    (h : Replaced t key s k values r r' s') : r'.shown t = assign values (r.shown t) := by
  obtain ⟨ps, cells, hbind, hcells, hr'⟩ := h.made
  rw [assign, Row.shown, Row.shown, List.map_map]
  refine List.map_congr_left fun c hc => ?_
  have hcell := (hs.entries r h.mem).complete c hc
  rw [Column.shown, shown?_updated ht hvalues hbind hcells hr' h.filled hc hcell,
    Function.comp_apply, Column.shown]
  change (c.name, _) = (c.name, ((values.lookup c.name).map Value.storedForm).getD _)
  cases values.lookup c.name <;> rfl

theorem isEntry_of_replaced (ht : t.IsKeyed key) (hs : s.IsDirectory t key)
    (hvalues : AreTyped t values) (h : Replaced t key s k values r r' s') : r'.IsEntry t key := by
  obtain ⟨ps, cells, hbind, hcells, hr'⟩ := h.made
  have hr := hs.entries r h.mem
  refine ⟨fun c hc => isSome_lookup_of_updated hr' (hr.complete c hc),
    cell_key_of_updated? ht hr', ?_⟩
  obtain ⟨hgiven, hleft⟩ :=
    decode_updated ht.isPlain hvalues hbind hcells hr' ht.mem (hr.complete key ht.mem)
  cases hv : values.lookup key.name with
  | none =>
    rw [Row.key, hleft hv]
    exact hr.hasKey
  | some v =>
    obtain ⟨hholds, hread⟩ := hgiven v hv
    exact (hasKey_of_decode ht h.filled hread (ColumnType.holds_storedForm hholds)).1

theorem pairwise_of_noClash {rows : List Row} (h : noClash t rows = true) :
    rows.Pairwise fun a b => clash t a b = false := by
  induction rows with
  | nil => exact .nil
  | cons r rows ih =>
    rw [noClash, Bool.and_eq_true, List.all_eq_true] at h
    exact .cons (fun q hq => by simpa using h.1 q hq) (ih h.2)

theorem IsDirectory.replaced (ht : t.IsKeyed key) (hs : s.IsDirectory t key)
    (hvalues : AreTyped t values) (h : Replaced t key s k values r r' s') :
    s'.IsDirectory t key := by
  have hentries : ∀ q ∈ s'.rows, q.IsEntry t key := by
    intro q hq
    rcases List.mem_cons.mp (h.rows.mem_iff.mp hq) with rfl | hq
    · exact isEntry_of_replaced ht hs hvalues h
    · exact hs.entries q (List.mem_filter.mp hq).1
  refine ⟨?_, ?_, h.ordered, hentries, ?_⟩
  · rw [h.after, hs.table_eq]
  · rw [h.after, hs.present]
  · rw [List.nodup_iff_pairwise_ne, List.pairwise_map]
    refine (pairwise_of_noClash h.distinct).imp_of_mem fun {a b} ha hb hclash heq => ?_
    rw [(clash_iff ht (hentries a ha).hasKey (hentries b hb).hasKey).mpr heq] at hclash
    cases hclash

/-- A row stays under its key, or comes to stand under one that was not there. -/
theorem key_free_of_replaced (ht : t.IsKeyed key) (hs : s.IsDirectory t key)
    (hvalues : AreTyped t values) (h : Replaced t key s k values r r' s') :
    r'.key key = k ∨ s.directory key (r'.key key) = none := by
  refine or_iff_not_imp_left.mpr fun hne => directory_eq_none.mpr fun q hq heq => ?_
  -- A row with the new key would stand beside the new row, and two rows would have one key.
  have hnodup := ((h.rows.map (Row.key key)).nodup_iff.mp (hs.replaced ht hvalues h).distinct)
  refine (List.nodup_cons.mp hnodup).1 (List.mem_map.mpr ⟨q, List.mem_filter.mpr ⟨hq, ?_⟩, heq⟩)
  exact decide_eq_true (heq ▸ hne)

/-- An update replaces one entry, perhaps under another key. -/
theorem directory_replaced (ht : t.IsKeyed key) (hs : s.IsDirectory t key)
    (hvalues : AreTyped t values) (h : Replaced t key s k values r r' s') :
    s'.directory key = Function.update (Function.update (s.directory key) k none) (r'.key key)
      (some (assign values (r.shown t))) := by
  have hafter := hs.replaced ht hvalues h
  have hnodup := (h.rows.map (Row.key key)).nodup_iff.mp hafter.distinct
  refine directory_eq hafter (fun q hq => ?_) fun l hl => ?_
  · rcases List.mem_cons.mp (h.rows.mem_iff.mp hq) with rfl | hq
    · rw [Function.update_self, shown_replaced ht hs hvalues h]
    · obtain ⟨hmem, hne⟩ := List.mem_filter.mp hq
      have hother : q.key key ≠ r'.key key := fun heq =>
        (List.nodup_cons.mp hnodup).1 (List.mem_map.mpr ⟨q, hq, heq⟩)
      rw [Function.update_of_ne hother, Function.update_of_ne (of_decide_eq_true hne),
        directory_key hs hmem]
  · have hnew : l ≠ r'.key key := fun heq =>
      hl r' (h.rows.mem_iff.mpr List.mem_cons_self) heq.symm
    rw [Function.update_of_ne hnew]
    by_cases hlk : l = k
    · rw [hlk, Function.update_self]
    · rw [Function.update_of_ne hlk, directory_eq_none]
      intro q hq heq
      refine hl q (h.rows.mem_iff.mpr (List.mem_cons_of_mem _ (List.mem_filter.mpr ⟨hq, ?_⟩))) heq
      exact decide_eq_true (heq ▸ hlk)

end Replacement

theorem noClash_of_pairwise {rows : List Row}
    (h : rows.Pairwise fun a b => clash t a b = false) : noClash t rows = true := by
  induction h with
  | nil => rfl
  | cons hr _ ih =>
    rw [noClash, ih, Bool.and_true, List.all_eq_true]
    intro q hq
    rw [hr q hq]
    rfl

/-- Rows with different keys do not clash. -/
theorem noClash_of_distinct (ht : t.IsKeyed key) {rows : List Row}
    (hkeys : ∀ r ∈ rows, key.type.HasKey (r.key key)) (hdistinct : (rows.map (Row.key key)).Nodup) :
    noClash t rows = true := by
  refine noClash_of_pairwise ?_
  refine (List.pairwise_map.mp hdistinct).imp_of_mem fun {a b} ha hb hne => ?_
  rw [← Bool.not_eq_true, clash_iff ht (hkeys a ha) (hkeys b hb)]
  exact hne

/-- An update under a key that is not there changes nothing, if its values have cells. -/
theorem update_absent (ht : t.IsKeyed key) (hs : s.IsDirectory t key) (hk : key.type.HasKey k)
    (hb : bindable k = true) (habsent : s.directory key k = none) {values : Members}
    {ps : List (Column × Parameter)} {cells : List (Column × Cell)}
    (hbind : bindAll values t.columns = .ok ps) (hcells : cellsOf ps = .ok cells) :
    s.update (Service.equals key (.literal k)) values = .ok (none, s) := by
  have hleft : ∀ r ∈ s.rows, takes (some (.test key (.compare .eq k))) r = false := fun r hr => by
    rw [hs.takes hk hr, decide_eq_false (directory_eq_none.mp habsent r hr)]
  -- No row is marked, and the checks that follow hold because they hold of the rows as they are.
  have hmarked : s.updatedRows? (.test key (.compare .eq k)) (storedAll cells)
      = some (s.rows.map fun r => (false, r)) := by
    rw [updatedRows?_eq (f := id) fun r hr htaken => by simp [hleft r hr] at htaken]
    exact congrArg some (List.map_congr_left fun r hr => by rw [hleft r hr]; rfl)
  have hkept : (s.rows.map fun r => (false, r)).map (·.2) = s.rows := by
    rw [List.map_map]
    exact List.map_id _
  have hnone : (s.rows.map fun r => (false, r)).filter (·.1) = [] := by
    rw [List.filter_map, List.map_eq_nil_iff, List.filter_eq_nil_iff]
    exact fun _ _ => Bool.false_ne_true
  have hfirst : ((s.rows.map fun r => (false, r)).find? (·.1)).map (·.2) = none := by
    rw [← List.head?_filter, hnone]
    rfl
  have hclash : noClash t s.rows = true :=
    noClash_of_distinct ht (fun r hr => (hs.entries r hr).hasKey) hs.distinct
  rw [← hs.table_eq] at hbind hclash
  rw [equals_key hk]
  exact update_of_marks hbind (requireTable_eq hs) hcells (requireBindable_key s hb) hmarked
    (List.pairwise_map.mpr hs.ordered) (by rw [hnone]; rfl) (hkept.symm ▸ hclash) hfirst
    (congrArg (fun rows => { s with rows := rows }) hkept)

/-- An update that found no row was of a key that is not there. -/
theorem directory_eq_none_of_updated (hs : s.IsDirectory t key) (hk : key.type.HasKey k)
    {values : Members} (h : Updated s (Service.equals key (.literal k)) values none s') :
    s.directory key k = none := by
  obtain ⟨_, _, c, marked, _, _, hc, hmarks, _, _, hnone, _⟩ := h.made
  rw [equals_key hk] at hc
  cases hc
  refine directory_eq_none.mpr fun r hr heq => ?_
  obtain ⟨m, hm, hmark⟩ := exists_of_mem_right hmarks.flip hr
  have hfalse := List.find?_eq_none.mp (Option.map_eq_none_iff.mp hnone.symm) m
    ((List.mergeSort_perm _ _).mem_iff.mpr hm)
  cases hmark with
  | taken _ _ => exact hfalse rfl
  | left htakes =>
    rw [hs.takes hk hr] at htakes
    exact of_decide_eq_false htakes heq

end Store
end TableService
