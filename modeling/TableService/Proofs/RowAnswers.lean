import TableService.Proofs.Bindings
import TableService.Proofs.Directory
import TableService.Proofs.Listings

/-!
# How a row is answered

Under generated schemas, a row is answered by what its public columns show. **A retrieval answers a
row exactly if each column that it reads can be read and taken for its field**, and the answer is
the public part of the entry. A creation reads all columns and answers the same, since what the
create schema takes is no less than what the read schema takes.

That a row can be answered is not left to the rows that are there at first: what is written can be
read again.
-/

namespace TableService

/-! ## 1. What is read -/

/-- The columns that are read of a single row: the public ones, or all if there is none. -/
def Table.readColumns (t : Table) : List Column :=
  match t.publicColumns with
  | [] => t.columns
  | cs => cs

theorem Table.mem_readColumns {t : Table} {c : Column} (h : c ∈ t.publicColumns) :
    c ∈ t.readColumns := by
  rw [readColumns]
  split
  · next hnil => exact absurd (hnil ▸ h) List.not_mem_nil
  · exact h

theorem Table.mem_of_mem_readColumns {t : Table} {c : Column} (h : c ∈ t.readColumns) :
    c ∈ t.columns := by
  rw [readColumns] at h
  split at h
  · exact h
  · exact mem_columns_of_mem_publicColumns h

theorem Table.nodup_readColumns {t : Table} (h : t.columnNames.Nodup) :
    (t.readColumns.map Column.name).Nodup := by
  rw [readColumns]
  split
  · exact h
  · exact nodup_publicColumns h

namespace Store

open Codec

variable {t : Table} {key : Column} {r : Row}

/-- The value that is read in a column of a row; null if its cell cannot be read. -/
def Row.read (r : Row) (c : Column) : Value :=
  match decode c.type (r.cell c) with
  | .ok v => v
  | .error _ => .null

theorem Row.read_of_decode {c : Column} {v : Value} (h : decode c.type (r.cell c) = .ok v) :
    r.read c = v := by
  rw [read, h]

/-- Columns of a row are read if the cell of each can be. -/
theorem Row.values_eq_ok {cs : List Column} {shown : Members} :
    r.values cs = .ok shown ↔
      (∀ c ∈ cs, ∃ v, decode c.type (r.cell c) = .ok v) ∧
        shown = cs.map fun c => (c.name, r.read c) := by
  induction cs generalizing shown with
  | nil => simp [values, eq_comm]
  | cons c cs ih =>
    rw [values]
    cases hread : decode c.type (r.cell c) with
    | error e => simp [hread]
    | ok v =>
      simp only [Outcome.map_eq_ok, ih, List.forall_mem_cons, hread, List.map_cons,
        read_of_decode hread]
      constructor
      · rintro ⟨rest, ⟨hall, rfl⟩, rfl⟩
        exact ⟨⟨⟨v, rfl⟩, hall⟩, rfl⟩
      · rintro ⟨⟨-, hall⟩, rfl⟩
        exact ⟨_, ⟨hall, rfl⟩, rfl⟩

/-! ## 2. What a schema takes -/

/-- The members of an entry that a schema has a field for. -/
def visible (entry : Members) : Members := entry.filter fun p => !Schema.isPrivate p.1

theorem visible_map (t : Table) (g : Column → Value) :
    visible (t.columns.map fun c => (c.name, g c))
      = t.publicColumns.map fun c => (c.name, g c) := by
  rw [visible, List.filter_map]
  rfl

/-- Whether a row can be answered: each column that is read can be read, and each public one can be
taken for its field. -/
structure Row.IsReadable (t : Table) (r : Row) : Prop where
  read : ∀ c ∈ t.readColumns, ∃ v, decode c.type (r.cell c) = .ok v
  taken : ∀ c ∈ t.publicColumns, (c.shown? (r.cell c)).isSome = true

/-- A schema whose fields take no less than those of the read schema takes a row as it is shown. -/
theorem present_of_readable (ht : t.IsPlain) {s : Schema} {n q : Column → Bool}
    (hover : s.IsOver t fun c => Schema.fieldFor c (n c) (q c))
    (hn : ∀ c, c.nullable = true → n c = true) (hr : r.IsReadable t) {cs : List Column}
    (hcs : ∀ c ∈ t.publicColumns, c ∈ cs) (hnodup : (cs.map Column.name).Nodup)
    (hextra : s.extraErrors (cs.map fun c => (c.name, r.read c)) = []) :
    Service.present s (cs.map fun c => (c.name, r.read c))
      = .ok (.object (visible (r.shown t))) := by
  have hrow : ∀ c ∈ t.publicColumns, ∃ v,
      (cs.map fun c => (c.name, r.read c)).lookup c.name = some v ∧
        Convert.toField (Schema.fieldFor c (n c) (q c)) v = .ok (c.shown (r.cell c)) := by
    intro c hc
    obtain ⟨w, hw⟩ := Option.isSome_iff_exists.mp (hr.taken c hc)
    obtain ⟨v, hread, htaken⟩ := Column.shown?_eq_some.mp hw
    refine ⟨v, by rw [lookup_map hnodup (hcs c hc), Row.read_of_decode hread], ?_⟩
    rw [Column.shown, hw, Option.getD_some]
    exact Convert.toField_of_nullable (ht.plain c (Table.mem_columns_of_mem_publicColumns hc))
      (hn c) htaken
  rw [Service.present, Schema.validate_row hover (fun _ => rfl) hrow hextra, Row.shown, visible_map]
  rfl

/-! ## 3. What is written can be answered -/

section Written

variable {s s' : Store} {values : Members} {r' : Row}

/-- A column that can be read as null or as a value of its type shows something, since null is no
cell of a column that has to be filled. -/
theorem Row.isSome_shown? (ht : t.IsPlain) {c : Column} (hc : c ∈ t.columns)
    (hread : ∃ w, decode c.type (r.cell c) = .ok w ∧ (w = .null ∨ c.type.Holds w))
    (hfilled : unfilled? t r = none) : (c.shown? (r.cell c)).isSome = true := by
  obtain ⟨w, hw, hholds⟩ := hread
  rw [Column.shown?_of_decode (ht.plain c hc) hw hholds (unfilled?_eq_none hfilled hc)]
  rfl

theorem Row.isReadable_of_inserted (ht : t.IsPlain) (hs : s.table = t)
    (hvalues : AreTyped t values) (h : Inserted s values r s') : r.IsReadable t where
  read := fun c hc => by
    obtain ⟨w, hw, -⟩ :=
      exists_decode_inserted ht hs hvalues h (Table.mem_of_mem_readColumns hc)
    exact ⟨w, hw⟩
  taken := fun c hc => by
    have hmem := Table.mem_columns_of_mem_publicColumns hc
    exact isSome_shown? ht hmem (exists_decode_inserted ht hs hvalues h hmem) (hs ▸ h.filled)

/-- An update leaves a row that can be answered as one that can be. -/
theorem Row.isReadable_of_updated (ht : t.IsPlain) (hvalues : AreTyped t values)
    {ps : List (Column × Parameter)} {cells : List (Column × Cell)}
    (hbind : bindAll values t.columns = .ok ps) (hcells : cellsOf ps = .ok cells)
    (h : r.updated? t (storedAll cells) = some r') (hfilled : unfilled? t r' = none)
    (hr : r.IsReadable t) : r'.IsReadable t where
  read := fun c hc => by
    have hcell := cell_of_updated? ht hvalues hbind hcells h (Table.mem_of_mem_readColumns hc)
    rcases hcell with hleft | ⟨w, hw, -⟩
    · rw [hleft]
      exact hr.read c hc
    · exact ⟨w, hw⟩
  taken := fun c hc => by
    have hmem := Table.mem_columns_of_mem_publicColumns hc
    rcases cell_of_updated? ht hvalues hbind hcells h hmem with hleft | hread
    · rw [hleft]
      exact hr.taken c hc
    · exact isSome_shown? ht hmem hread hfilled

/-- Whether a store keeps the rows of a table, each of which can be answered. -/
structure IsReadable (t : Table) (s : Store) : Prop where
  table_eq : s.table = t
  rows : ∀ row ∈ s.rows, row.IsReadable t

theorem IsReadable.inserted (ht : t.IsPlain) (hs : s.IsReadable t) (hvalues : AreTyped t values)
    (h : Inserted s values r s') : s'.IsReadable t := by
  rw [h.after]
  refine ⟨hs.table_eq, ?_⟩
  intro x hx
  rcases mem_place.mp hx with rfl | hx
  · exact Row.isReadable_of_inserted ht hs.table_eq hvalues h
  · exact hs.rows x hx

/-- An update changes any number of rows, each by itself. -/
theorem IsReadable.updated (ht : t.IsPlain) (hs : s.IsReadable t) (hvalues : AreTyped t values)
    {condition : Except StoreFault Sql.Condition} {first : Option Row}
    (h : Updated s condition values first s') : s'.IsReadable t := by
  obtain ⟨ps, cells, c, marked, hbind, hcells, -, hmarks, hfilled, -, -, rfl⟩ := h.made
  rw [hs.table_eq] at hbind hmarks hfilled
  refine ⟨hs.table_eq, ?_⟩
  intro x hx
  obtain ⟨m, hm, rfl⟩ := List.mem_map.mp hx
  have hmem : m ∈ marked := (List.mergeSort_perm _ _).mem_iff.mp hm
  obtain ⟨r, hr, hmark⟩ := exists_of_mem_right hmarks hmem
  cases hmark with
  | taken _ hr' =>
    have hfull := requireAllFilled_eq_ok.mp hfilled _ (List.mem_filter.mpr ⟨hm, rfl⟩)
    exact Row.isReadable_of_updated ht hvalues hbind hcells hr' hfull (hs.rows r hr)
  | left _ => exact hs.rows _ hr

theorem IsReadable.deleted (hs : s.IsReadable t) {condition : Except StoreFault Sql.Condition}
    {first : Option Row} (h : Deleted s condition first s') : s'.IsReadable t := by
  obtain ⟨c, -, -, rfl⟩ := h.made
  refine ⟨hs.table_eq, ?_⟩
  intro x hx
  exact hs.rows x (List.mem_filter.mp hx).1

/-- The row that an update answers is one of those after it. -/
theorem mem_of_updated {condition : Except StoreFault Sql.Condition} {r : Row}
    (h : Updated s condition values (some r) s') : r ∈ s'.rows := by
  obtain ⟨ps, cells, c, marked, -, -, -, -, -, -, hfirst, rfl⟩ := h.made
  obtain ⟨m, hm, rfl⟩ := Option.map_eq_some_iff.mp hfirst.symm
  exact List.mem_map_of_mem (List.mem_of_find?_eq_some hm)

end Written

end Store

namespace Service

open Store

variable {v : Service} {t : Table} {key : Column} {r : Row}

/-! ## 4. What a body gives -/

/-- What a body gives to the columns is what the schema takes of it, and the values are such as the
columns have. -/
theorem of_bodyValues (ht : t.IsPlain) (htable : v.binding.table = t) {r : Request}
    {schema : Schema} {n q : Column → Bool}
    (hover : schema.IsOver t fun c => Schema.fieldFor c (n c) (q c)) {values : Members}
    (h : v.bodyValues schema r = .ok values) :
    schema.validate r.body true = .ok values ∧ AreTyped t values := by
  obtain ⟨data, hvalid, hcolumns⟩ := Outcome.bind_eq_ok.mp h
  obtain ⟨hnames, htaken⟩ := Schema.of_validate_partial ht.names hover (fun _ => rfl) hvalid
  have hall : ∀ p ∈ data, (v.binding.table.column? p.1).isSome = true := by
    intro p hp
    obtain ⟨c, hc, hname⟩ := hnames p hp
    rw [htable, ← hname,
      Table.column?_of_mem ht.names (Table.mem_columns_of_mem_publicColumns hc)]
    rfl
  unfold columnValues at hcolumns
  simp only [List.filter_eq_self.mpr hall] at hcolumns
  split at hcolumns
  · cases hcolumns
  · cases hcolumns
    refine ⟨hvalid, fun c hc w hw => ?_⟩
    obtain ⟨-, x, hx⟩ := htaken c hc w hw
    rcases Convert.holds_of_toField (ht.plain c hc) hx with ⟨-, hnull⟩ | hholds
    · exact .inl hnull
    · exact .inr hholds

/-! ## 5. The answers -/

/-- The answer to a retrieval that found a row. -/
def rowAnswer (v : Service) (r : Row) : Except Problem Value := do
  present v.binding.schemas.retrieve (← r.values v.binding.retrieveColumns)

theorem retrieveColumns_eq (hnames : t.columnNames.Nodup) (htable : v.binding.table = t)
    (hover : v.binding.schemas.retrieve.IsOver t SchemaSet.readField) :
    v.binding.retrieveColumns = t.readColumns := by
  have hcolumns : v.binding.schemas.retrieve.fieldNames.filterMap t.column?
      = t.publicColumns := by
    rw [Schema.fieldNames_of_isOver hover fun _ => rfl, List.filterMap_map]
    exact (List.filterMap_congr fun c hc =>
      Table.column?_of_mem hnames (Table.mem_columns_of_mem_publicColumns hc)).trans
        List.filterMap_some
  cases hpublic : t.publicColumns <;>
    simp only [Binding.retrieveColumns, Binding.columnsOf, htable, hcolumns, Table.readColumns,
      hpublic]

/-- Whether a service is bound to a table, with the schemas that are generated from it. -/
def IsGeneratedFor (v : Service) (t : Table) : Prop :=
  ∃ settings o, o.schemas = SchemaChoice.none ∧ Binding.create t settings o = .ok v.binding

theorem IsGeneratedFor.table_eq (hv : v.IsGeneratedFor t) : v.binding.table = t := by
  obtain ⟨_, _, _, hbound⟩ := hv
  exact (Binding.made_of_create hbound).table_eq

theorem IsGeneratedFor.schemas (hv : v.IsGeneratedFor t) : v.binding.schemas.IsGenerated t := by
  obtain ⟨_, _, hnone, hbound⟩ := hv
  have hschemas := (Binding.made_of_create hbound).schemas
  rw [hnone] at hschemas
  exact SchemaSet.isGenerated_of_forTable hschemas

/-- A listing shows a row as a retrieval answers it, since the generated schemas for reading are
one. -/
theorem IsGeneratedFor.showRow_eq (hv : v.IsGeneratedFor t) (r : Row) :
    v.showRow r = v.rowAnswer r := by
  obtain ⟨_, _, hnone, hbound⟩ := hv
  have hschemas := (Binding.made_of_create hbound).schemas
  rw [hnone] at hschemas
  have hlist := SchemaSet.list_eq_of_forTable hschemas
  rw [showRow, rowAnswer, Binding.listColumns, Binding.retrieveColumns, hlist]

/-- **A row that can be answered is answered by its entry.** -/
theorem rowAnswer_of_readable (ht : t.IsPlain) (htable : v.binding.table = t)
    (hschemas : v.binding.schemas.IsGenerated t) (hr : r.IsReadable t) :
    v.rowAnswer r = .ok (.object (visible (r.shown t))) := by
  have hvalues := Row.values_eq_ok.mpr ⟨hr.read, rfl⟩
  have hextra : v.binding.schemas.retrieve.extraErrors
      (t.readColumns.map fun c => (c.name, r.read c)) = [] := by
    rw [Schema.extraErrors, hschemas.allowsExtra]
    rfl
  rw [rowAnswer, retrieveColumns_eq ht.names htable hschemas.retrieve, hvalues]
  exact present_of_readable ht hschemas.retrieve (fun _ h => h) hr
    (fun _ hc => Table.mem_readColumns hc) (Table.nodup_readColumns ht.names) hextra

/-- A row that was answered could be. -/
theorem isReadable_of_rowAnswer (ht : t.IsPlain) (htable : v.binding.table = t)
    (hschemas : v.binding.schemas.IsGenerated t) {a : Value} (h : v.rowAnswer r = .ok a) :
    r.IsReadable t := by
  obtain ⟨shown, hvalues, hpresent⟩ := Outcome.bind_eq_ok.mp h
  rw [retrieveColumns_eq ht.names htable hschemas.retrieve] at hvalues
  obtain ⟨hread, rfl⟩ := Row.values_eq_ok.mp hvalues
  obtain ⟨data, hvalid, -⟩ := Outcome.map_eq_ok.mp hpresent
  refine ⟨hread, fun c hc => ?_⟩
  obtain ⟨w, hw⟩ := hread c (Table.mem_readColumns hc)
  have htaken := Schema.toField_of_validate hschemas.retrieve (fun _ => rfl) hvalid hc
    (by rw [lookup_map (Table.nodup_readColumns ht.names) (Table.mem_readColumns hc)])
  obtain ⟨x, hx⟩ := htaken
  rw [Row.read_of_decode hw] at hx
  rw [Column.shown?_eq_some.mpr ⟨w, hw, hx⟩]
  rfl

theorem rowAnswer_eq (ht : t.IsKeyed key) (htable : v.binding.table = t)
    (hschemas : v.binding.schemas.IsGenerated t) (hr : r.IsReadable t) :
    v.rowAnswer r = .ok (.object (visible (r.shown t))) :=
  rowAnswer_of_readable ht.isPlain htable hschemas hr

theorem readable_of_rowAnswer (ht : t.IsKeyed key) (htable : v.binding.table = t)
    (hschemas : v.binding.schemas.IsGenerated t) {a : Value} (h : v.rowAnswer r = .ok a) :
    r.IsReadable t :=
  isReadable_of_rowAnswer ht.isPlain htable hschemas h

/-- A creation answers the row that it made by its entry. -/
theorem creationAnswer_eq (ht : t.IsPlain) (hschemas : v.binding.schemas.IsGenerated t)
    (hr : r.IsReadable t) :
    present v.binding.schemas.create ((t.columns.map fun c => (c.name, r.read c)).filter
      fun (name, _) => name ∈ v.binding.schemas.create.fieldNames)
        = .ok (.object (visible (r.shown t))) := by
  have hnames := Schema.fieldNames_of_isOver hschemas.create fun _ => rfl
  -- The fields are chosen by name, and by the names being different these are the public columns.
  have hknown : (t.columns.map fun c => (c.name, r.read c)).filter
      (fun (name, _) => name ∈ v.binding.schemas.create.fieldNames)
        = t.publicColumns.map fun c => (c.name, r.read c) := by
    rw [List.filter_map, hnames]
    refine congrArg _ (List.filter_congr fun c hc => ?_)
    rw [Bool.eq_iff_iff, Function.comp_apply, decide_eq_true_eq, List.mem_map]
    constructor
    · rintro ⟨d, hd, heq⟩
      exact ht.eq_of_name hc (Table.mem_columns_of_mem_publicColumns hd) heq.symm
        ▸ (List.mem_filter.mp hd).2
    · exact fun hpublic => ⟨c, List.mem_filter.mpr ⟨hc, hpublic⟩, rfl⟩
  have hextra : v.binding.schemas.create.extraErrors
      (t.publicColumns.map fun c => (c.name, r.read c)) = [] := by
    unfold Schema.extraErrors
    split
    · rw [hnames, List.filter_map, List.map_map, List.map_eq_nil_iff, List.filter_eq_nil_iff]
      intro c hc
      simpa using ⟨c, hc, rfl⟩
    · rfl
  rw [hknown]
  exact present_of_readable ht hschemas.create (fun c hc => by rw [hc, Bool.true_or]) hr
    (fun _ h => h) (Table.nodup_publicColumns ht.names) hextra

end Service
end TableService
