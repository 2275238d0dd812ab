import Mathlib.Data.List.Nodup
import TableService.Proofs.StoreWrites
import TableService.Proofs.GeneratedSchemas

/-!
# Rows by their keys

A table with a single key column and columns of plain types is a directory: **every row has a key,
no two rows have the same, and each row is an entry of the values that its columns show.** The
statements here say what one write does to the directory. They rest on what an insertion and an
update make of the cells of one row, which is said column by column first; where no key is needed
for it, of every table of plain types.
-/

namespace TableService

/-! ## 1. Plain tables and keyed tables -/

/-- Whether a literal is a key in columns of a type: an integer or a text. -/
def ColumnType.HasKey : ColumnType → Literal → Prop
  | .integer, .integer _ | .bigInteger, .integer _ => True
  | .string, .text _ | .text, .text _ => True
  | _, _ => False

theorem ColumnType.HasKey.cases {t : ColumnType} {k : Literal} (h : t.HasKey k) :
    ((t = .integer ∨ t = .bigInteger) ∧ ∃ n, k = .integer n) ∨
      ((t = .string ∨ t = .text) ∧ ∃ u, k = .text u) := by
  unfold HasKey at h
  split at h
  · exact .inl ⟨.inl rfl, _, rfl⟩
  · exact .inl ⟨.inr rfl, _, rfl⟩
  · exact .inr ⟨.inl rfl, _, rfl⟩
  · exact .inr ⟨.inr rfl, _, rfl⟩
  · exact h.elim

theorem ColumnType.HasKey.holds {t : ColumnType} {k : Literal} (h : t.HasKey k) :
    t.Holds (.literal k) := by
  rcases h.cases with ⟨rfl | rfl, n, rfl⟩ | ⟨rfl | rfl, u, rfl⟩ <;> trivial

/-- Whether a table has only columns of plain types, each under a name of its own, and whether what
fills a column is a value of its type. -/
structure Table.IsPlain (t : Table) : Prop where
  names : t.columnNames.Nodup
  plain : ∀ c ∈ t.columns, c.type.isPlain = true
  fallback : ∀ c ∈ t.columns, ∀ v, c.fallback = some v → c.type.Holds v
  serverDefault : ∀ c ∈ t.columns, ∀ d, c.serverDefault = some d →
    ∃ w, Store.Codec.decode c.type (Store.Codec.stored c (.text d)) = .ok w ∧ c.type.Holds w

/-- Whether a table is a directory by one of its columns: its key is that column alone, an integer
or a text, which like every key column has to be filled. Nothing else is unique, all columns are of
plain types, and what fills a column is a value of its type. -/
structure Table.IsKeyed (t : Table) (key : Column) : Prop where
  names : t.columnNames.Nodup
  plain : ∀ c ∈ t.columns, c.type.isPlain = true
  primaryKey : t.primaryKey = [key]
  keyType : key.type.isInteger = true ∨ key.type.bindsText = true
  keyFilled : key.nullable = false
  unique : ∀ c ∈ t.columns, c.unique = true → c.name = key.name
  fallback : ∀ c ∈ t.columns, ∀ v, c.fallback = some v → c.type.Holds v
  serverDefault : ∀ c ∈ t.columns, ∀ d, c.serverDefault = some d →
    ∃ w, Store.Codec.decode c.type (Store.Codec.stored c (.text d)) = .ok w ∧ c.type.Holds w

namespace Table

variable {t : Table} {key : Column}

theorem IsPlain.eq_of_name (h : t.IsPlain) {c d : Column} (hc : c ∈ t.columns)
    (hd : d ∈ t.columns) (heq : c.name = d.name) : c = d :=
  List.inj_on_of_nodup_map h.names hc hd heq

theorem IsKeyed.isPlain (h : t.IsKeyed key) : t.IsPlain :=
  ⟨h.names, h.plain, h.fallback, h.serverDefault⟩

theorem IsKeyed.mem (h : t.IsKeyed key) : key ∈ t.columns := by
  have hmem : key ∈ t.primaryKey := h.primaryKey ▸ List.mem_singleton.mpr rfl
  exact (List.mem_filter.mp hmem).1

theorem IsKeyed.type_cases (h : t.IsKeyed key) :
    (key.type = .integer ∨ key.type = .bigInteger) ∨ key.type = .string ∨ key.type = .text := by
  have hplain := h.plain key h.mem
  rcases h.keyType with htype | htype <;> cases hkey : key.type <;> rw [hkey] at htype hplain <;>
    first | decide | exact absurd hplain (by decide) | exact absurd htype (by decide)

theorem IsKeyed.eq_of_name (h : t.IsKeyed key) {c d : Column} (hc : c ∈ t.columns)
    (hd : d ∈ t.columns) (heq : c.name = d.name) : c = d :=
  h.isPlain.eq_of_name hc hd heq

theorem IsKeyed.numberColumn? (h : t.IsKeyed key) :
    Store.numberColumn? t = if key.type = .integer then some key else none := by
  rw [Store.numberColumn?, singleKey?, h.primaryKey]

end Table

namespace Store

open Codec

variable {t : Table} {key : Column}

/-! ## 2. What a write makes of one row -/

/-- The cell that values give to a column, if they give one. -/
def given? (values : Members) (c : Column) : Option Cell :=
  (values.lookup c.name).bind fun v => (cellFor c v).toOption

/-- What is bound becomes the cells of the columns that something is given for. -/
theorem storedAll_of_bindAll {values : Members} : ∀ {cs : List Column}
    {ps : List (Column × Parameter)} {cells : List (Column × Cell)},
    bindAll values cs = .ok ps → cellsOf ps = .ok cells →
      storedAll cells = cs.filterMap (fun c => (given? values c).map (c.name, ·)) ∧
        ∀ c ∈ cs, ∀ v, values.lookup c.name = some v → ∃ x, cellFor c v = .ok x
  | [], ps, cells, hbind, hcells => by
    cases hbind
    cases hcells
    exact ⟨rfl, fun _ hc => absurd hc List.not_mem_nil⟩
  | c :: cs, ps, cells, hbind, hcells => by
    rw [bindAll] at hbind
    split at hbind
    -- A column that no value is given for has no parameter, hence no cell.
    · next hnone =>
      obtain ⟨hstored, hall⟩ := storedAll_of_bindAll hbind hcells
      refine ⟨?_, List.forall_mem_cons.mpr ⟨fun v hv => ?_, hall⟩⟩
      · rw [hstored, List.filterMap_cons, given?, hnone]
        rfl
      · rw [hnone] at hv
        cases hv
    · next v hv =>
      split at hbind
      · cases hbind
      · next p hp =>
        obtain ⟨rest, hrest, rfl⟩ := Outcome.map_eq_ok.mp hbind
        rw [cellsOf] at hcells
        split at hcells
        · cases hcells
        · next x hx =>
          obtain ⟨cells', hcells', rfl⟩ := Outcome.map_eq_ok.mp hcells
          obtain ⟨hstored, hall⟩ := storedAll_of_bindAll hrest hcells'
          have hcell : cellFor c v = .ok (stored c x) := cellFor_eq_ok.mpr ⟨p, x, hp, hx, rfl⟩
          refine ⟨?_, List.forall_mem_cons.mpr ⟨fun w hw => ?_, hall⟩⟩
          · rw [List.filterMap_cons, given?, hv, Option.bind_some, hcell, ← hstored]
            rfl
          · rw [hv] at hw
            cases hw
            exact ⟨_, hcell⟩

/-- **Values are bound and become cells exactly if each of them has a cell in its column.** -/
theorem exists_cells_iff {values : Members} {cs : List Column} :
    (∃ ps cells, bindAll values cs = .ok ps ∧ cellsOf ps = .ok cells) ↔
      ∀ c ∈ cs, ∀ v, values.lookup c.name = some v → ∃ x, cellFor c v = .ok x := by
  constructor
  · rintro ⟨ps, cells, hbind, hcells⟩
    exact (storedAll_of_bindAll hbind hcells).2
  · intro h
    induction cs with
    | nil => exact ⟨[], [], rfl, rfl⟩
    | cons c cs ih =>
      obtain ⟨hc, hcs⟩ := List.forall_mem_cons.mp h
      obtain ⟨ps, cells, hbind, hcells⟩ := ih hcs
      cases hv : values.lookup c.name with
      | none =>
        refine ⟨ps, cells, ?_, hcells⟩
        simp only [bindAll, hv]
        exact hbind
      | some v =>
        obtain ⟨x, hx⟩ := hc v hv
        obtain ⟨p, y, hp, hy, -⟩ := cellFor_eq_ok.mp hx
        refine ⟨(c, p) :: ps, (c, y) :: cells, ?_, ?_⟩
        · simp only [bindAll, hv, hp, hbind, Except.map]
        · simp only [cellsOf, hy, hcells, Except.map]

/-- The values that an insertion binds: the given ones, and the defaults of the other columns. -/
theorem lookup_withFallbacks (hnames : t.columnNames.Nodup) (values : Members) {c : Column}
    (hc : c ∈ t.columns) :
    (values ++ t.columns.filterMap (fallbackOf values)).lookup c.name
      = (values.lookup c.name).or c.fallback := by
  have hfallbacks : t.columns.filterMap (fallbackOf values) = t.columns.filterMap fun c =>
      (if (values.lookup c.name).isSome then none else c.fallback).map (c.name, ·) := by
    refine List.filterMap_congr fun c _ => ?_
    rw [fallbackOf]
    split <;> rfl
  rw [List.lookup_append, hfallbacks, lookup_filterMap hnames hc]
  cases values.lookup c.name <;> rfl

theorem cell_fill (hnames : t.columnNames.Nodup) (n : Int) (cells : List (Text × Cell)) {c : Column}
    (hc : c ∈ t.columns) :
    (⟨n, fill t cells⟩ : Row).cell c = (cells.lookup c.name).getD (serverCell t c) := by
  rw [Row.cell, fill, lookup_map hnames hc, Option.getD_some]

/-- A number is put into an empty number column, and is taken from any other. -/
theorem of_numbered? (ht : t.IsKeyed key) {number : Int} {q r : Row}
    (h : numbered? t number q = some r) :
    (∀ n, n ≠ key.name → r.cells.lookup n = q.cells.lookup n) ∧
      (key.type = .integer → r.cell key = .integer r.id) ∧
      ((key.type = .integer ∧ q.cell key = .null ∧ r.cell key = .integer number) ∨
        (key.type = .integer → q.cell key ≠ .null) ∧ r.cells = q.cells) := by
  unfold numbered? at h
  rw [ht.numberColumn?] at h
  -- The key column holds the numbers if it is of type integer; else the row keeps its cells.
  by_cases htype : key.type = .integer
  · rw [if_pos htype] at h
    simp only at h
    cases hcell : q.cell key with
    | null =>
      rw [hcell] at h
      cases h
      have hkey : (⟨number, (key.name, .integer number) :: q.cells.filter fun x => x.1 != key.name⟩
          : Row).cell key = .integer number := by
        rw [Row.cell, List.lookup_cons_self, Option.getD_some]
      refine ⟨fun n hn => ?_, fun _ => hkey, .inl ⟨htype, rfl, hkey⟩⟩
      have hne : (n == key.name) = false := beq_false_of_ne hn
      rw [List.lookup_cons, hne]
      exact lookup_filter (q := (· != key.name)) (bne_iff_ne.mpr hn)
    | integer n =>
      rw [hcell] at h
      cases h
      exact ⟨fun _ _ => rfl, fun _ => hcell, .inr ⟨fun _ => by simp, rfl⟩⟩
    | real x =>
      rw [hcell] at h
      cases h
    | text u =>
      rw [hcell] at h
      cases h
  · rw [if_neg htype] at h
    cases h
    exact ⟨fun _ _ => rfl, fun heq => absurd heq htype, .inr ⟨fun heq => absurd heq htype, rfl⟩⟩

theorem of_numberColumn? {n : Column} (h : numberColumn? t = some n) :
    n ∈ t.columns ∧ n.type = .integer := by
  unfold numberColumn? at h
  split at h
  · next c hkey =>
    split at h
    · next htype =>
      cases h
      exact ⟨Table.mem_of_singleKey? hkey, htype⟩
    · cases h
  · cases h

/-- A row that is numbered has an integer in the number column, and keeps its other cells. -/
theorem cell_numbered (hnames : t.columnNames.Nodup) {number : Int} {q r : Row}
    (h : numbered? t number q = some r) {c : Column} (hc : c ∈ t.columns) :
    (numberColumn? t ≠ some c ∧ r.cell c = q.cell c) ∨
      (numberColumn? t = some c ∧
        ∃ n, r.cell c = .integer n ∧ (r.cell c = q.cell c ∨ n = number)) := by
  unfold numbered? at h
  cases hnumber : numberColumn? t with
  | none =>
    rw [hnumber] at h
    cases h
    exact .inl ⟨nofun, rfl⟩
  | some n =>
    have hn := (of_numberColumn? hnumber).1
    rw [hnumber] at h
    simp only at h
    -- Another column has another name, so its cell stays where it was.
    by_cases hname : c.name = n.name
    · obtain rfl := List.inj_on_of_nodup_map hnames hc hn hname
      refine .inr ⟨rfl, ?_⟩
      split at h
      · cases h
        refine ⟨number, ?_, .inr rfl⟩
        rw [Row.cell, List.lookup_cons_self, Option.getD_some]
      · next m hcell =>
        cases h
        exact ⟨m, hcell, .inl rfl⟩
      · cases h
    · refine .inl ⟨fun heq => hname (by rw [Option.some.inj heq]), ?_⟩
      split at h
      · cases h
        have hne : (c.name == n.name) = false := beq_false_of_ne hname
        rw [Row.cell, Row.cell, List.lookup_cons, hne]
        exact congrArg (Option.getD · _)
          (lookup_filter (q := (· != n.name)) (bne_iff_ne.mpr hname))
      · cases h
        rfl
      · cases h

/-- A row that is numbered keeps its cells, or takes its number for one of them. -/
theorem cell_of_numbered? (hnames : t.columnNames.Nodup) {number : Int} {q r : Row}
    (h : numbered? t number q = some r) {c : Column} (hc : c ∈ t.columns) :
    r.cell c = q.cell c ∨ c.type = .integer ∧ r.cell c = .integer number := by
  rcases cell_numbered hnames h hc with ⟨-, hsame⟩ | ⟨hnumber, n, hcell, hsame | rfl⟩
  · exact .inl hsame
  · exact .inl hsame
  · exact .inr ⟨(of_numberColumn? hnumber).2, hcell⟩

/-- The value that the store's own default gives to a column. -/
def serverValue (c : Column) : Value :=
  match c.serverDefault with
  | none => .null
  | some d =>
    match decode c.type (stored c (.text d)) with
    | .ok w => w
    | .error _ => .null

/-- The value that is meant for a column of a new row: the given one, else its default. -/
def meant (values : Members) (c : Column) : Option Value := (values.lookup c.name).or c.fallback

/-- The value that a column of a new row shows: the number of the row, if it is the number column
and nothing or null is meant for it; else the stored form of what is meant; else the store's
default. -/
def created (key : Column) (number : Int) (values : Members) (c : Column) : Value :=
  if c.name = key.name ∧ key.type = .integer ∧ ((meant values c).getD .null).isNull = true then
    .integer number
  else match meant values c with
    | some v => v.storedForm
    | none => serverValue c

/-- A string that is no text has no cell in a plain column. -/
theorem typed_of_cellFor {c : Column} (hc : c.type.isPlain = true) {v : Value} {x : Cell}
    (hv : v = .null ∨ c.type.Holds v ∨ ∃ u, v = .unpaired u) (hx : cellFor c v = .ok x) :
    v = .null ∨ c.type.Holds v := by
  rcases hv with hv | hv | ⟨u, rfl⟩
  · exact .inl hv
  · exact .inr hv
  · obtain ⟨p, y, hp, hy, -⟩ := cellFor_eq_ok.mp hx
    cases ht : c.type <;> rw [ht] at hc hp <;> cases hc <;> cases hp <;> cases hy

/-- A column that nothing is given for shows the store's default. -/
theorem decode_serverCell (ht : t.IsKeyed key) {c : Column} (hc : c ∈ t.columns)
    (hnumber : ¬ (c.name = key.name ∧ key.type = .integer)) :
    decode c.type (serverCell t c) = .ok (serverValue c) ∧
      (serverValue c = .null ∨ c.type.Holds (serverValue c)) := by
  have hother : ((numberColumn? t).any fun n => n.name == c.name) = false := by
    rw [ht.numberColumn?]
    split
    · next htype =>
      rw [Option.any_some, beq_eq_false_iff_ne]
      exact fun hname => hnumber ⟨hname.symm, htype⟩
    · rfl
  cases hdefault : c.serverDefault with
  | none =>
    have hcell : serverCell t c = .null := by rw [serverCell, hdefault]
    have hvalue : serverValue c = .null := by rw [serverValue, hdefault]
    rw [hcell, hvalue]
    exact ⟨rfl, .inl rfl⟩
  | some d =>
    obtain ⟨w, hread, hw⟩ := ht.serverDefault c hc d hdefault
    simp only [serverCell, serverValue, hdefault, hother, hread, Bool.false_eq_true, if_false]
    exact ⟨trivial, .inr hw⟩

/-- Only null is kept as null in an integer column. -/
theorem isNull_of_storedForm {v : Value} (hv : v = .null ∨ ColumnType.integer.Holds v)
    (h : v.storedForm = .null) : v.isNull = true := by
  rcases hv with rfl | hv
  · rfl
  · cases v with
    | literal l => cases l <;> first | exact hv.elim | cases h
    | _ => exact hv.elim

/-- What is read as null or an integer in an integer column is one. -/
theorem cell_of_decode_integer {x : Cell} {w : Value} (hread : decode .integer x = .ok w)
    (hw : w = .null ∨ ColumnType.integer.Holds w) : x = .null ∨ ∃ n, x = .integer n := by
  cases x with
  | null => exact .inl rfl
  | integer n => exact .inr ⟨n, rfl⟩
  | _ =>
    cases hread
    rcases hw with hw | hw
    · cases hw
    · exact hw.elim

/-- Whether values are such as a schema gives to the columns of a table. -/
def AreTyped (t : Table) (values : Members) : Prop :=
  ∀ c ∈ t.columns, ∀ v, values.lookup c.name = some v →
    v = .null ∨ c.type.Holds v ∨ ∃ u, v = .unpaired u

/-- A row of stored cells that has no number yet. -/
def unnumbered (t : Table) (cells : List (Column × Cell)) : Row := ⟨0, fill t (storedAll cells)⟩

section Unnumbered

variable {values : Members} {ps : List (Column × Parameter)} {cells : List (Column × Cell)}
  {c : Column}

/-- Where something is meant for a column, the new row has the cell of it. -/
theorem cell_unnumbered_of_some (hnames : t.columnNames.Nodup)
    (hbind : bindAll (values ++ t.columns.filterMap (fallbackOf values)) t.columns = .ok ps)
    (hcells : cellsOf ps = .ok cells) (hc : c ∈ t.columns) {v : Value}
    (hv : meant values c = some v) : cellFor c v = .ok ((unnumbered t cells).cell c) := by
  obtain ⟨hstored, hall⟩ := storedAll_of_bindAll hbind hcells
  have hlookup := lookup_withFallbacks hnames values hc
  rw [← meant, hv] at hlookup
  obtain ⟨x, hx⟩ := hall c hc v hlookup
  rw [unnumbered, cell_fill hnames 0 _ hc, hstored, lookup_filterMap hnames hc, given?,
    hlookup, Option.bind_some, hx]
  rfl

/-- Where something is meant for a column, the new row shows the stored form of it. -/
theorem decode_meant (ht : t.IsPlain) (hvalues : AreTyped t values)
    (hbind : bindAll (values ++ t.columns.filterMap (fallbackOf values)) t.columns = .ok ps)
    (hcells : cellsOf ps = .ok cells) (hc : c ∈ t.columns) {v : Value}
    (hv : meant values c = some v) :
    (v = .null ∨ c.type.Holds v) ∧
      decode c.type ((unnumbered t cells).cell c) = .ok v.storedForm := by
  have hcell := cell_unnumbered_of_some ht.names hbind hcells hc hv
  have htyped : v = .null ∨ c.type.Holds v ∨ ∃ u, v = .unpaired u := by
    rcases Option.or_eq_some_iff.mp hv with hgiven | ⟨-, hdefault⟩
    · exact hvalues c hc v hgiven
    · exact .inr (.inl (ht.fallback c hc v hdefault))
  have hholds := typed_of_cellFor (ht.plain c hc) htyped hcell
  exact ⟨hholds, decode_cellFor (ht.plain c hc) hholds hcell⟩

/-- Where nothing is meant for a column, the new row has what the store puts there. -/
theorem cell_unnumbered_of_none (hnames : t.columnNames.Nodup)
    (hbind : bindAll (values ++ t.columns.filterMap (fallbackOf values)) t.columns = .ok ps)
    (hcells : cellsOf ps = .ok cells) (hc : c ∈ t.columns) (hnone : meant values c = none) :
    (unnumbered t cells).cell c = serverCell t c := by
  have hlookup := lookup_withFallbacks hnames values hc
  rw [← meant, hnone] at hlookup
  rw [unnumbered, cell_fill hnames 0 _ hc, (storedAll_of_bindAll hbind hcells).1,
    lookup_filterMap hnames hc, given?, hlookup]
  rfl

/-- A number column is empty where nothing or null is meant for it. -/
theorem cell_unnumbered_eq_null (ht : t.IsKeyed key) (hvalues : AreTyped t values)
    (hbind : bindAll (values ++ t.columns.filterMap (fallbackOf values)) t.columns = .ok ps)
    (hcells : cellsOf ps = .ok cells) (htype : key.type = .integer) :
    (unnumbered t cells).cell key = .null ↔ ((meant values key).getD .null).isNull = true := by
  cases hv : meant values key with
  | none =>
    rw [cell_unnumbered_of_none ht.names hbind hcells ht.mem hv]
    -- The store's default of a number column is no cell of it.
    cases hdefault : key.serverDefault <;>
      simp [serverCell, hdefault, ht.numberColumn?, htype, Value.isNull]
  | some v =>
    obtain ⟨hholds, hread⟩ := decode_meant ht.isPlain hvalues hbind hcells ht.mem hv
    constructor
    · intro hnull
      rw [hnull] at hread
      exact isNull_of_storedForm (htype ▸ hholds) (Except.ok.inj hread).symm
    · intro hnull
      rw [Option.getD_some] at hnull
      rw [Value.eq_null_of_isNull hnull] at hread
      exact eq_null_of_decode (ht.plain key ht.mem) hread

/-- A row whose number column is empty or has an integer can be numbered, and no other comes of
values that a schema gives. -/
theorem exists_numbered (ht : t.IsKeyed key) (hvalues : AreTyped t values)
    (hbind : bindAll (values ++ t.columns.filterMap (fallbackOf values)) t.columns = .ok ps)
    (hcells : cellsOf ps = .ok cells) (number : Int) :
    ∃ r, numbered? t number (unnumbered t cells) = some r := by
  rw [numbered?, ht.numberColumn?]
  by_cases htype : key.type = .integer
  · rw [if_pos htype]
    simp only
    cases hv : meant values key with
    | none =>
      have hnull : (unnumbered t cells).cell key = .null :=
        (cell_unnumbered_eq_null ht hvalues hbind hcells htype).mpr (by rw [hv]; rfl)
      exact ⟨_, by rw [hnull]⟩
    | some v =>
      obtain ⟨hholds, hread⟩ := decode_meant ht.isPlain hvalues hbind hcells ht.mem hv
      rcases cell_of_decode_integer (htype ▸ hread)
        (htype ▸ ColumnType.holds_storedForm hholds) with hcell | ⟨n, hcell⟩
      · exact ⟨_, by rw [hcell]⟩
      · exact ⟨_, by rw [hcell]⟩
  · rw [if_neg htype]
    exact ⟨_, rfl⟩

end Unnumbered

/-- The store puts a value of the column's type where nothing is meant, or null. -/
theorem exists_decode_serverCell (ht : t.IsPlain) {c : Column} (hc : c ∈ t.columns) :
    ∃ w, decode c.type (serverCell t c) = .ok w ∧ (w = .null ∨ c.type.Holds w) := by
  unfold serverCell
  cases hdefault : c.serverDefault with
  | none => exact ⟨.null, rfl, .inl rfl⟩
  | some d =>
    obtain ⟨w, hread, hw⟩ := ht.serverDefault c hc d hdefault
    simp only
    split
    · exact ⟨.null, rfl, .inl rfl⟩
    · exact ⟨w, hread, .inr hw⟩

/-- **Each column of a new row can be read**, as null or as a value of its type. -/
theorem exists_decode_inserted (ht : t.IsPlain) {s s' : Store} (hs : s.table = t)
    {values : Members} (hvalues : AreTyped t values) {r : Row} (h : Inserted s values r s')
    {c : Column} (hc : c ∈ t.columns) :
    ∃ w, decode c.type (r.cell c) = .ok w ∧ (w = .null ∨ c.type.Holds w) := by
  obtain ⟨ps, cells, hbind, hcells, hrow⟩ := h.made
  rw [hs] at hbind hrow
  rcases cell_of_numbered? (q := unnumbered t cells) ht.names hrow hc with hcell | ⟨htype, hcell⟩
  · rw [hcell]
    cases hv : meant values c with
    | some v =>
      obtain ⟨hholds, hread⟩ := decode_meant ht hvalues hbind hcells hc hv
      exact ⟨_, hread, ColumnType.holds_storedForm hholds⟩
    | none =>
      rw [cell_unnumbered_of_none ht.names hbind hcells hc hv]
      exact exists_decode_serverCell ht hc
  · rw [hcell, htype]
    exact ⟨.integer s.nextNumber, rfl, .inr trivial⟩

theorem Cell.eq_null_of_isNull {x : Cell} (h : x.isNull = true) : x = .null := by
  cases x with
  | null => rfl
  | _ => cases h

theorem unfilled?_eq_none_iff {r : Row} :
    unfilled? t r = none ↔ ∀ c ∈ t.columns, c.nullable = true ∨ r.cell c ≠ .null := by
  rw [unfilled?, List.find?_eq_none]
  refine forall₂_congr fun c _ => ?_
  have hcell : (r.cell c).isNull = true ↔ r.cell c = .null :=
    ⟨Cell.eq_null_of_isNull, fun h => by rw [h]; rfl⟩
  rw [Bool.and_eq_true, not_and_or, hcell, Bool.not_eq_true', Bool.not_eq_false]

theorem unfilled?_eq_none {r : Row} (h : unfilled? t r = none) {c : Column} (hc : c ∈ t.columns) :
    c.nullable = true ∨ r.cell c ≠ .null := unfilled?_eq_none_iff.mp h c hc

/-- What a row shows that is made of values and gets a number: in each column the value that is
meant for it. -/
theorem decode_numbered (ht : t.IsKeyed key) {values : Members} (hvalues : AreTyped t values)
    {ps : List (Column × Parameter)} {cells : List (Column × Cell)}
    (hbind : bindAll (values ++ t.columns.filterMap (fallbackOf values)) t.columns = .ok ps)
    (hcells : cellsOf ps = .ok cells) {number : Int} {r : Row}
    (hrow : numbered? t number (unnumbered t cells) = some r) {c : Column} (hc : c ∈ t.columns) :
    decode c.type (r.cell c) = .ok (created key number values c) ∧
      (created key number values c = .null ∨ c.type.Holds (created key number values c)) := by
  obtain ⟨hsame, -, hkey⟩ := of_numbered? ht hrow
  have hempty := cell_unnumbered_eq_null ht hvalues hbind hcells
  by_cases hnumber : c.name = key.name ∧ key.type = .integer ∧
      ((meant values c).getD .null).isNull = true
  · rw [created, if_pos hnumber]
    obtain ⟨hname, htype, hnull⟩ := hnumber
    obtain rfl := ht.eq_of_name hc ht.mem hname
    rcases hkey with ⟨-, -, hnew⟩ | ⟨hfull, -⟩
    · rw [hnew, htype]
      exact ⟨rfl, .inr trivial⟩
    · exact absurd ((hempty htype).mpr hnull) (hfull htype)
  · -- The column shows what it showed before the row had a number.
    have hcell : r.cell c = (unnumbered t cells).cell c := by
      by_cases hname : c.name = key.name
      · obtain rfl := ht.eq_of_name hc ht.mem hname
        rcases hkey with ⟨htype, hnull, -⟩ | ⟨-, hcells⟩
        · exact absurd ⟨rfl, htype, (hempty htype).mp hnull⟩ hnumber
        · rw [Row.cell, Row.cell, hcells]
      · rw [Row.cell, Row.cell, hsame c.name hname]
    rw [created, if_neg hnumber, hcell]
    cases hv : meant values c with
    | some v =>
      obtain ⟨hholds, hread⟩ := decode_meant ht.isPlain hvalues hbind hcells hc hv
      exact ⟨hread, ColumnType.holds_storedForm hholds⟩
    | none =>
      rw [cell_unnumbered_of_none ht.names hbind hcells hc hv]
      exact decode_serverCell ht hc fun ⟨hname, htype⟩ => hnumber ⟨hname, htype, by rw [hv]; rfl⟩

/-- **What a new row shows**: in each column the value that is meant for it. -/
theorem decode_created (ht : t.IsKeyed key) {s s' : Store} (hs : s.table = t) {values : Members}
    (hvalues : AreTyped t values) {r : Row} (h : Inserted s values r s') {c : Column}
    (hc : c ∈ t.columns) :
    decode c.type (r.cell c) = .ok (created key s.nextNumber values c) ∧
      (created key s.nextNumber values c = .null ∨
        c.type.Holds (created key s.nextNumber values c)) := by
  obtain ⟨ps, cells, hbind, hcells, hrow⟩ := h.made
  rw [hs] at hbind hrow
  exact decode_numbered ht hvalues hbind hcells hrow hc

theorem shown?_created (ht : t.IsKeyed key) {s s' : Store} (hs : s.table = t) {values : Members}
    (hvalues : AreTyped t values) {r : Row} (h : Inserted s values r s') {c : Column}
    (hc : c ∈ t.columns) : c.shown? (r.cell c) = some (created key s.nextNumber values c) := by
  obtain ⟨hread, hholds⟩ := decode_created ht hs hvalues h hc
  exact Column.shown?_of_decode (ht.plain c hc) hread hholds (unfilled?_eq_none (hs ▸ h.filled) hc)

theorem isSome_lookup_of_numbered? {number : Int} {q r : Row} (h : numbered? t number q = some r)
    {n : Text} (hcell : (q.cells.lookup n).isSome = true) : (r.cells.lookup n).isSome = true := by
  unfold numbered? at h
  split at h
  · cases h
    exact hcell
  · next c _ =>
    split at h
    · cases h
      by_cases hname : n = c.name
      · rw [hname, List.lookup_cons_self]
        rfl
      · have hne : (n == c.name) = false := beq_false_of_ne hname
        have hkept : (q.cells.filter fun x => x.1 != c.name).lookup n = q.cells.lookup n :=
          lookup_filter (q := (· != c.name)) (bne_iff_ne.mpr hname)
        rw [List.lookup_cons, hne]
        exact (congrArg Option.isSome hkept).trans hcell
    · cases h
      exact hcell
    · cases h

/-- A row that was inserted has a cell in every column. -/
theorem isSome_lookup_of_inserted {s s' : Store} {values : Members} {r : Row}
    (h : Inserted s values r s') {c : Column} (hc : c ∈ s.table.columns) :
    (r.cells.lookup c.name).isSome = true := by
  obtain ⟨ps, cells, -, -, hrow⟩ := h.made
  refine isSome_lookup_of_numbered? hrow (Option.isSome_iff_ne_none.mpr fun hnone => ?_)
  rw [fill, List.lookup_eq_none_iff] at hnone
  exact bne_iff_ne.mp (hnone _ (List.mem_map_of_mem hc)) rfl

/-! ## 3. What an update makes of one row -/

theorem cells_of_updated? {cells : List (Text × Cell)} {r r' : Row}
    (h : r.updated? t cells = some r') : r'.cells = (r.set cells).cells := by
  unfold Row.updated? at h
  simp only at h
  split at h
  · cases h
    rfl
  · split at h
    · cases h
      rfl
    · cases h

/-- The number column of a row that was updated still has the number of the row. -/
theorem cell_key_of_updated? (ht : t.IsKeyed key) {cells : List (Text × Cell)} {r r' : Row}
    (h : r.updated? t cells = some r') (htype : key.type = .integer) :
    r'.cell key = .integer r'.id := by
  unfold Row.updated? at h
  rw [ht.numberColumn?, if_pos htype] at h
  simp only at h
  split at h
  · next n hcell =>
    cases h
    exact hcell
  · cases h

theorem lookup_set (r : Row) (cells : List (Text × Cell)) (n : Text) :
    (r.set cells).cells.lookup n = (r.cells.lookup n).map fun x => (cells.lookup n).getD x := by
  rw [Row.set]
  generalize r.cells = before
  induction before with
  | nil => rfl
  | cons p before ih =>
    obtain ⟨name, x⟩ := p
    rw [List.map_cons, List.lookup_cons, List.lookup_cons]
    by_cases hname : n = name
    · subst hname
      rw [beq_self_eq_true]
      rfl
    · rw [beq_false_of_ne hname]
      exact ih

section Set

variable {values : Members} {ps : List (Column × Parameter)} {cells : List (Column × Cell)}
  {r r' : Row} {c : Column}

/-- A row whose cells are set has the cells that are given, and else the ones it had. Only a cell
that the row already has is replaced, which is why the row has to be complete. -/
theorem cell_set (hnames : t.columnNames.Nodup) (hbind : bindAll values t.columns = .ok ps)
    (hcells : cellsOf ps = .ok cells) (hc : c ∈ t.columns)
    (hcomplete : (r.cells.lookup c.name).isSome = true) :
    (r.set (storedAll cells)).cell c = (given? values c).getD (r.cell c) := by
  obtain ⟨x, hx⟩ := Option.isSome_iff_exists.mp hcomplete
  rw [Row.cell, lookup_set, Row.cell, hx, (storedAll_of_bindAll hbind hcells).1,
    lookup_filterMap hnames hc]
  rfl

/-- **A row that an update replaced has the cells that are given, and else the ones it had.** -/
theorem cell_of_assigned (hnames : t.columnNames.Nodup) (hbind : bindAll values t.columns = .ok ps)
    (hcells : cellsOf ps = .ok cells) (h : r.updated? t (storedAll cells) = some r')
    (hc : c ∈ t.columns) (hcomplete : (r.cells.lookup c.name).isSome = true) :
    r'.cell c = (given? values c).getD (r.cell c) := by
  rw [Row.cell, cells_of_updated? h]
  exact cell_set hnames hbind hcells hc hcomplete

/-- A column that a value is given for shows the stored form of it. -/
theorem decode_given (ht : t.IsPlain) (hvalues : AreTyped t values)
    (hbind : bindAll values t.columns = .ok ps) (hcells : cellsOf ps = .ok cells)
    (hc : c ∈ t.columns) {v : Value} (hv : values.lookup c.name = some v) :
    (v = .null ∨ c.type.Holds v) ∧
      ∃ x, given? values c = some x ∧ decode c.type x = .ok v.storedForm := by
  obtain ⟨x, hx⟩ := (storedAll_of_bindAll hbind hcells).2 c hc v hv
  have hholds := typed_of_cellFor (ht.plain c hc) (hvalues c hc v hv) hx
  refine ⟨hholds, x, ?_, decode_cellFor (ht.plain c hc) hholds hx⟩
  rw [given?, hv, Option.bind_some, hx]
  rfl

/-- A row that an update replaced: a column that a value is given for shows the stored form of it,
and every other column has the cell it had. -/
theorem decode_updated (ht : t.IsPlain) (hvalues : AreTyped t values)
    (hbind : bindAll values t.columns = .ok ps) (hcells : cellsOf ps = .ok cells)
    (h : r.updated? t (storedAll cells) = some r') (hc : c ∈ t.columns)
    (hcomplete : (r.cells.lookup c.name).isSome = true) :
    (∀ v, values.lookup c.name = some v →
      (v = .null ∨ c.type.Holds v) ∧ decode c.type (r'.cell c) = .ok v.storedForm) ∧
      (values.lookup c.name = none → r'.cell c = r.cell c) := by
  have hcell := cell_of_assigned ht.names hbind hcells h hc hcomplete
  constructor
  · intro v hv
    obtain ⟨hholds, x, hx, hread⟩ := decode_given ht hvalues hbind hcells hc hv
    rw [hcell, hx]
    exact ⟨hholds, hread⟩
  · intro hnone
    rw [hcell, given?, hnone]
    rfl

end Set

/-- **Each column of a row that an update replaced has the cell it had, or can be read**, as null or
as a value of its type. -/
theorem cell_of_updated? (ht : t.IsPlain) {values : Members} (hvalues : AreTyped t values)
    {ps : List (Column × Parameter)} {cells : List (Column × Cell)}
    (hbind : bindAll values t.columns = .ok ps) (hcells : cellsOf ps = .ok cells) {r r' : Row}
    (h : r.updated? t (storedAll cells) = some r') {c : Column} (hc : c ∈ t.columns) :
    r'.cell c = r.cell c ∨
      ∃ w, decode c.type (r'.cell c) = .ok w ∧ (w = .null ∨ c.type.Holds w) := by
  cases hbefore : r.cells.lookup c.name with
  | none =>
    left
    rw [Row.cell, Row.cell, cells_of_updated? h, lookup_set, hbefore, Option.map_none]
  | some x =>
    have hcomplete : (r.cells.lookup c.name).isSome = true := by rw [hbefore]; rfl
    obtain ⟨hgiven, hleft⟩ := decode_updated ht hvalues hbind hcells h hc hcomplete
    cases hv : values.lookup c.name with
    | none => exact .inl (hleft hv)
    | some v =>
      obtain ⟨hholds, hread⟩ := hgiven v hv
      exact .inr ⟨_, hread, ColumnType.holds_storedForm hholds⟩

theorem isSome_lookup_of_updated {cells : List (Text × Cell)} {r r' : Row}
    (h : r.updated? t cells = some r') {c : Column}
    (hcomplete : (r.cells.lookup c.name).isSome = true) :
    (r'.cells.lookup c.name).isSome = true := by
  rw [cells_of_updated? h, lookup_set, Option.isSome_map]
  exact hcomplete

/-- What a column shows after an update: the stored form of a given value, else what it showed. -/
theorem shown?_updated (ht : t.IsKeyed key) {values : Members} (hvalues : AreTyped t values)
    {ps : List (Column × Parameter)} {cells : List (Column × Cell)}
    (hbind : bindAll values t.columns = .ok ps) (hcells : cellsOf ps = .ok cells) {r r' : Row}
    (h : r.updated? t (storedAll cells) = some r') (hfilled : unfilled? t r' = none) {c : Column}
    (hc : c ∈ t.columns) (hcomplete : (r.cells.lookup c.name).isSome = true) :
    c.shown? (r'.cell c)
      = ((values.lookup c.name).map Value.storedForm).or (c.shown? (r.cell c)) := by
  obtain ⟨hgiven, hleft⟩ := decode_updated ht.isPlain hvalues hbind hcells h hc hcomplete
  cases hv : values.lookup c.name with
  | none => rw [hleft hv, Option.map_none, Option.none_or]
  | some v =>
    obtain ⟨hholds, hread⟩ := hgiven v hv
    exact Column.shown?_of_decode (ht.plain c hc) hread (ColumnType.holds_storedForm hholds)
      (unfilled?_eq_none hfilled hc)

end Store
end TableService
