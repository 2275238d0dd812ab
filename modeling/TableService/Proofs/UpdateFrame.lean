import TableService.Proofs.LawfulStores
import TableService.Proofs.ReadBack

/-!
# What an update changes

An update changes the rows that are found under its lookup value, in the columns that its body has,
and nothing else:

> every row after it comes from one row before it; a row that was found **holds the stored form of
> each value that was given, and in every other column what it held**, and a row that was not found
> is the row it was.

Which columns are given is decided by what is present in the body, so a null that is written there
counts, and a field that the update schema fills in itself does not. What is answered is the first
row that was found, as it is after the change and as the retrieve schema shows it.

An update that gives no column at all is the exception. The table with a primary key refuses it,
whether or not there is a row; only a table without one answers by the row, and changes nothing.
-/

namespace TableService

namespace Store

variable {t : Table} {s s' : Store} {values : Members} {r r' : Row}

/-! ## 1. Rows before and after -/

/-- Whether a row is another one after values were assigned to it. -/
structure Row.IsAssigned (t : Table) (values : Members) (r r' : Row) : Prop where
  given : ∀ c ∈ t.columns, ∀ v, values.lookup c.name = some v →
    Codec.cellFor c v = .ok (r'.cell c)
  kept : ∀ c ∈ t.columns, values.lookup c.name = none → r'.cell c = r.cell c

/-- Whether a store is another one after values were assigned to the rows that a condition takes.
The pairs are of a row with what became of it, in the order of the rows after the change. -/
structure IsFramed (s : Store) (condition : Sql.Condition) (values : Members)
    (pairs : List (Row × Row)) (s' : Store) : Prop where
  before : (pairs.map Prod.fst).Perm s.rows
  after : s' = { s with rows := pairs.map Prod.snd }
  taken : ∀ p ∈ pairs, takes (some condition) p.1 = true → p.1.IsAssigned s.table values p.2
  left : ∀ p ∈ pairs, takes (some condition) p.1 = false → p.2 = p.1

theorem isAssigned_of_updated? (hnames : t.columnNames.Nodup)
    {ps : List (Column × Parameter)} {cells : List (Column × Cell)}
    (hbind : bindAll values t.columns = .ok ps) (hcells : cellsOf ps = .ok cells)
    (h : r.updated? t (storedAll cells) = some r') (hr : r.Fits t) :
    r.IsAssigned t values r' := by
  refine ⟨fun c hc v hv => ?_, fun c hc hnone => ?_⟩
  · obtain ⟨x, hx⟩ := (storedAll_of_bindAll hbind hcells).2 c hc v hv
    rw [cell_of_assigned hnames hbind hcells h hc (hr.complete c hc), given?, hv, Option.bind_some,
      hx]
    rfl
  · rw [cell_of_assigned hnames hbind hcells h hc (hr.complete c hc), given?, hnone]
    rfl

/-- Only what is assigned to columns of the table matters. -/
theorem IsFramed.congr {condition : Sql.Condition} {data : Members} {pairs : List (Row × Row)}
    (h : s.IsFramed condition values pairs s')
    (hsame : ∀ c ∈ s.table.columns, values.lookup c.name = data.lookup c.name) :
    s.IsFramed condition data pairs s' := by
  refine ⟨h.before, h.after, fun p hp htakes => ?_, h.left⟩
  obtain ⟨hgiven, hkept⟩ := h.taken p hp htakes
  refine ⟨fun c hc v hv => hgiven c hc v ?_, fun c hc hnone => hkept c hc ?_⟩
  · rw [hsame c hc, hv]
  · rw [hsame c hc, hnone]

/-- Rows beside what became of them, as pairs. -/
theorem exists_pairs_of_marks {condition : Sql.Condition} {cells : List (Text × Cell)}
    {rows : List Row} {marked : List (Bool × Row)}
    (h : List.Forall₂ (Marks t condition cells) rows marked) :
    ∃ pairs : List (Row × Row), pairs.map Prod.fst = rows ∧
      pairs.map Prod.snd = marked.map Prod.snd ∧
      (pairs.find? fun p => takes (some condition) p.1).map Prod.snd
        = (marked.find? Prod.fst).map Prod.snd ∧
      ∀ p ∈ pairs, (takes (some condition) p.1 = true → p.1.updated? t cells = some p.2) ∧
        (takes (some condition) p.1 = false → p.2 = p.1) := by
  induction h with
  | nil => exact ⟨[], rfl, rfl, rfl, fun _ hp => absurd hp List.not_mem_nil⟩
  | @cons r m rows marked hm _ ih =>
    obtain ⟨pairs, hfst, hsnd, hfind, hall⟩ := ih
    refine ⟨(r, m.2) :: pairs, by simp [hfst], by simp [hsnd], ?_, ?_⟩
    · cases hm with
      | taken htakes hnew => simp [htakes]
      | left htakes => simp [htakes, hfind]
    · refine List.forall_mem_cons.mpr ⟨?_, hall⟩
      cases hm with
      | taken htakes hnew => exact ⟨fun _ => hnew, fun hleft => by simp [htakes] at hleft⟩
      | left htakes => exact ⟨fun htaken => by simp [htakes] at htaken, fun _ => rfl⟩

/-- **An update of a store has a frame**, in which the row that it gives is the first of those that
were taken. -/
theorem isFramed_of_updated (hs : s.IsLawful) (hnames : s.table.columnNames.Nodup)
    {condition : Except StoreFault Sql.Condition} {first : Option Row}
    (h : Updated s condition values first s') :
    ∃ c pairs, condition = .ok c ∧ s.IsFramed c values pairs s' ∧
      first = (pairs.find? fun p => takes (some c) p.1).map Prod.snd := by
  obtain ⟨ps, cells, c, marked, hbind, hcells, hc, hmarks, -, -, hfirst, hafter⟩ := h.made
  -- The marks are sorted with their rows, so the rows before are rearranged alike.
  obtain ⟨rows, hsorted, hperm⟩ :=
    List.perm_comp_forall₂ (List.mergeSort_perm marked _) hmarks.flip
  obtain ⟨pairs, hfst, hsnd, hfind, hall⟩ := exists_pairs_of_marks hsorted.flip
  refine ⟨c, pairs, hc, ⟨hfst ▸ hperm, ?_, ?_, fun p hp => (hall p hp).2⟩, ?_⟩
  · rw [hafter, hsnd]
    rfl
  · intro p hp htakes
    have hmem : p.1 ∈ s.rows := hperm.mem_iff.mp (hfst ▸ List.mem_map_of_mem hp)
    exact isAssigned_of_updated? hnames hbind hcells ((hall p hp).1 htakes) (hs.fits p.1 hmem)
  · rw [hfind, hfirst]
    rfl

end Store

namespace Service

open Store

variable {v : Service} {s s' : Store} {r : Request} {x a : Value} {data : Members}

/-! ## 2. Updates that give values -/

/-- What is assigned to the columns is what was validated under their names. -/
theorem lookup_columnValues {values : Members} (h : v.columnValues data = .ok values) {c : Column}
    (hc : c ∈ v.binding.table.columns) : values.lookup c.name = data.lookup c.name := by
  have hsome : (v.binding.table.column? c.name).isSome = true :=
    List.find?_isSome.mpr ⟨c, hc, beq_self_eq_true _⟩
  unfold columnValues at h
  dsimp only at h
  split at h
  · cases h
  · cases h
    exact lookup_filter (q := fun n => (v.binding.table.column? n).isSome) hsome

/-- An update that answers has a frame, and answers the first row that it found. -/
theorem isFramed_of_updateRow (hs : s.IsLawful) (hnames : s.table.columnNames.Nodup)
    (htable : s.table = v.binding.table) (h : v.updateRow s r = (.ok a, s')) :
    ∃ x data c pairs row,
      v.lookupValue v.binding.keys.update r = .ok x ∧
      v.binding.schemas.update.validate r.body true = .ok data ∧
      equals v.binding.keys.update x = .ok c ∧
      s.IsFramed c data pairs s' ∧
      (pairs.find? fun p => takes (some c) p.1).map Prod.snd = some row ∧
      v.rowAnswer row = .ok a := by
  rcases v.updateRow_cases s r with
    ⟨e, hrun⟩ | ⟨x, values, columns, s'', -, -, hrun⟩ |
      ⟨x, values, columns, row, s'', shown, hchange, hupdate, hread, hrun⟩
  · cases (Prod.mk.inj (hrun.symm.trans h)).1
  · cases (Prod.mk.inj (hrun.symm.trans h)).1
  · obtain ⟨hpresent, rfl⟩ := Prod.mk.inj (hrun.symm.trans h)
    obtain ⟨hx, hbody, rfl⟩ := changeFor_eq_ok hchange
    obtain ⟨data, hdata, hcolumns⟩ := Outcome.bind_eq_ok.mp hbody
    obtain ⟨c, pairs, hc, hframed, hfirst⟩ :=
      isFramed_of_updated hs hnames (updated_of_update hupdate)
    refine ⟨x, data, c, pairs, row, hx, hdata, hc, ?_, hfirst.symm, ?_⟩
    · exact hframed.congr fun c hc => lookup_columnValues hcolumns (htable ▸ hc)
    · rw [rowAnswer, hread]
      exact hpresent

/-- **An update changes the rows it finds, in what its body has, and nothing else.** If an update
answers, its data are what the update schema takes of the members that are present in the body; the
rows whose lookup column is equal to the value of the path are assigned these data, and every other
row is left; and the answer is the first row that was found, after the change, as the retrieve
schema shows it. -/
theorem update_has_frame (hs : s.IsLawful) (hnames : s.table.columnNames.Nodup)
    (htable : s.table = v.binding.table) (h : v.perform s .update r = (.ok a, s')) :
    ∃ x data c pairs row,
      v.lookupValue v.binding.keys.update r = .ok x ∧
      v.binding.schemas.update.validate r.body true = .ok data ∧
      (∀ name, (data.lookup name).isSome = true ↔
        name ∈ v.binding.schemas.update.fieldNames ∧
          (r.body.bodyMembers.lookup name).isSome = true) ∧
      equals v.binding.keys.update x = .ok c ∧
      s.IsFramed c data pairs s' ∧
      (pairs.find? fun p => takes (some c) p.1).map Prod.snd = some row ∧
      v.rowAnswer row = .ok a := by
  obtain ⟨x, data, c, pairs, row, hx, hdata, hc, hframed, hfirst, hanswer⟩ :=
    isFramed_of_updateRow hs hnames htable h
  exact ⟨x, data, c, pairs, row, hx, hdata, Schema.isSome_lookup_of_validate hdata, hc, hframed,
    hfirst, hanswer⟩

/-- Numbered stamps, of which two may have the same text. -/
def stamps : Table where
  name := ['s']
  columns := [
    ⟨['i', 'd'], .integer, true, false, none, none, none, false⟩,
    ⟨['t'], .text, false, true, none, none, none, false⟩,
    ⟨['n'], .integer, false, true, some (.integer 1), none, none, false⟩]

/-- How stamps are bound: looked up by their text, shown without their count, and changed by
what may also name a colour, which the table does not keep. -/
def stampOptions : BindingOptions where
  keyPolicy := .column ['t']
  schemas := { SchemaChoice.none with
    retrieve := some ⟨['O'], [⟨['i', 'd'], .int, false, true⟩, ⟨['t'], .str, true, false⟩],
      false, false⟩
    update := some ⟨['P'], [⟨['t'], .str, true, false⟩, ⟨['n'], .int, true, false⟩,
      ⟨['g'], .str, true, false⟩], false, false⟩ }

/-- A service of stamps. -/
def stampService : Service where
  binding := .ofOptions stamps stampOptions

/-- A stamp with a number, a text and a count. -/
def stampRow (number : Int) (text : Text) (count : Cell) : Row :=
  ⟨number, [(['i', 'd'], .integer number), (['t'], .text text), (['n'], count)]⟩

/-- Three stamps, the first and the last with one text. -/
def threeStamps : Store := .ofRows stamps
  [stampRow 1 ['a'] (.integer 5), stampRow 2 ['b'] (.integer 6), stampRow 3 ['a'] (.integer 7)]

theorem isLawful_threeStamps : threeStamps.IsLawful where
  ordered := by
    unfold Store.Ordered
    decide
  fits := by
    simp only [threeStamps, ofRows, List.forall_mem_cons]
    exact ⟨⟨by decide, rfl⟩, ⟨by decide, rfl⟩, ⟨by decide, rfl⟩, by simp⟩
  distinct := by decide

/-- A request that gives the stamps with a text another one, no count, and a colour. -/
def restamp : Request :=
  ⟨[], [(['t'], .text ['a'])],
    .object [(['t'], .text ['c']), (['n'], .null), (['g'], .text ['x'])]⟩

/-- The stamps after that. -/
def restamped : Store :=
  { threeStamps with
    rows := [stampRow 1 ['c'] .null, stampRow 2 ['b'] (.integer 6), stampRow 3 ['c'] .null] }

theorem perform_restamp : stampService.perform threeStamps .update restamp
    = (.ok (.object [(['i', 'd'], .integer 1), (['t'], .text ['c'])]), restamped) := by
  have hchange : stampService.changeFor restamp = .ok (.text ['a'],
      [(['t'], .text ['c']), (['n'], .null)], stampService.binding.retrieveColumns) := rfl
  have hupdate : threeStamps.update (equals stampService.binding.keys.update (.text ['a']))
      [(['t'], .text ['c']), (['n'], .null)]
        = .ok (some (stampRow 1 ['c'] .null), restamped) := by
    refine update_of_marks rfl rfl rfl rfl rfl ?_ rfl rfl rfl rfl
    decide
  simp only [perform, updateRow, hchange, hupdate]
  rfl

theorem update_has_frame_stamps :
    (threeStamps.IsLawful ∧ threeStamps.table.columnNames.Nodup ∧
      threeStamps.table = stampService.binding.table ∧
      stampService.perform threeStamps .update restamp
        = (.ok (.object [(['i', 'd'], .integer 1), (['t'], .text ['c'])]), restamped)) ∧
    ∃ x data c pairs row,
      stampService.lookupValue stampService.binding.keys.update restamp = .ok x ∧
      stampService.binding.schemas.update.validate restamp.body true = .ok data ∧
      (∀ name, (data.lookup name).isSome = true ↔
        name ∈ stampService.binding.schemas.update.fieldNames ∧
          (restamp.body.bodyMembers.lookup name).isSome = true) ∧
      equals stampService.binding.keys.update x = .ok c ∧
      threeStamps.IsFramed c data pairs restamped ∧
      (pairs.find? fun p => takes (some c) p.1).map Prod.snd = some row ∧
      stampService.rowAnswer row
        = .ok (.object [(['i', 'd'], .integer 1), (['t'], .text ['c'])]) := by
  have hnames : threeStamps.table.columnNames.Nodup := by decide
  exact ⟨⟨isLawful_threeStamps, hnames, rfl, perform_restamp⟩,
    update_has_frame isLawful_threeStamps hnames rfl perform_restamp⟩

/-! ## 3. Updates that give no column -/

theorem columnValues_of_none (h : ∀ p ∈ data, v.binding.table.column? p.1 = none) :
    v.columnValues data = .ok [] := by
  have hnone : data.filter (fun p => (v.binding.table.column? p.1).isSome) = [] := by
    refine List.filter_eq_nil_iff.mpr fun p hp => ?_
    rw [h p hp]
    exact Bool.false_ne_true
  unfold columnValues
  simp only [hnone]
  rfl

/-- Where no column is given there is nothing to assign, and only a table without a primary key goes
on from there. -/
theorem changeFor_of_none (hwhole : v.substitutes = [])
    (hx : v.lookupValue v.binding.keys.update r = .ok x)
    (hdata : v.binding.schemas.update.validate r.body true = .ok data)
    (hnone : ∀ p ∈ data, v.binding.table.column? p.1 = none) :
    v.changeFor r = if v.binding.table.primaryKey = [] then .ok (x, [], v.binding.retrieveColumns)
      else .error .wrongType := by
  have hvalues := columnValues_of_none hnone
  rw [changeFor]
  simp only [hx, bodyValues, hdata, hvalues, rowColumns, require_eq_ok hwhole, bind, Except.bind,
    pure, Except.pure]
  cases v.binding.table.primaryKey <;> rfl

/-- **An update that gives no column changes nothing, and a table with a primary key refuses it.**
Without a primary key it answers by the first row that it takes, or that there is none. -/
theorem update_of_no_column (hs : s.IsLawful) (htable : s.table = v.binding.table)
    (hwhole : v.substitutes = []) (hx : v.lookupValue v.binding.keys.update r = .ok x)
    (hdata : v.binding.schemas.update.validate r.body true = .ok data)
    (hnone : ∀ p ∈ data, v.binding.table.column? p.1 = none) :
    (v.binding.table.primaryKey ≠ [] → v.perform s .update r = (.error .wrongType, s)) ∧
    (v.binding.table.primaryKey = [] →
      (∀ f, s.first? (equals v.binding.keys.update x) = .error f →
        v.perform s .update r = (.error (f.problem "update" v.binding.table), s)) ∧
      (s.first? (equals v.binding.keys.update x) = .ok none →
        v.perform s .update r
          = (.error (.notFound v.name v.binding.keys.update.name x none), s)) ∧
      ∀ row, s.first? (equals v.binding.keys.update x) = .ok (some row) →
        v.perform s .update r = (v.rowAnswer row, s)) := by
  have hchange := changeFor_of_none hwhole hx hdata hnone
  refine ⟨fun hkey => ?_, fun hkey => ?_⟩
  · rw [if_neg hkey] at hchange
    simp only [perform, updateRow, hchange]
  · rw [if_pos hkey] at hchange
    have hnumber : numberColumn? s.table = none := by
      rw [htable, numberColumn?, Table.singleKey?, hkey]
    have hupdate := update_nil hs hnumber (equals v.binding.keys.update x)
    refine ⟨fun f hfirst => ?_, fun hfirst => ?_, fun row hfirst => ?_⟩
    · rw [hfirst] at hupdate
      simp only [perform, updateRow, hchange, hupdate, Except.map]
    · rw [hfirst] at hupdate
      simp only [perform, updateRow, hchange, hupdate, Except.map, notFound,
        require_eq_ok hwhole]
    · rw [hfirst] at hupdate
      simp only [perform, updateRow, hchange, hupdate, Except.map, rowAnswer]
      cases row.values v.binding.retrieveColumns <;> rfl

/-- A pile of slips, each with a text. The table has no key. -/
def slips : Table := ⟨['p'], [⟨['t'], .text, false, true, none, none, none, false⟩]⟩

/-- How slips are bound: looked up by their text, with the schemas of their table. -/
def slipOptions : BindingOptions where
  keyPolicy := .column ['t']

/-- A service of slips. -/
def slipService : Service where
  binding := .ofOptions slips slipOptions

/-- Two slips with one text. -/
def twoSlips : Store := .ofRows slips [⟨1, [(['t'], .text ['a'])]⟩, ⟨2, [(['t'], .text ['a'])]⟩]

/-- A request for slips, without a body. -/
def emptySlip : Request := ⟨[], [(['t'], .text ['a'])], .null⟩

theorem update_of_no_column_slips :
    twoSlips.IsLawful ∧ twoSlips.table = slipService.binding.table ∧
      slipService.substitutes = [] ∧
      slipService.lookupValue slipService.binding.keys.update emptySlip = .ok (.text ['a']) ∧
      slipService.binding.schemas.update.validate emptySlip.body true = .ok [] ∧
      (∀ p ∈ ([] : Members), slipService.binding.table.column? p.1 = none) ∧
      slipService.binding.table.primaryKey = [] ∧
    slipService.perform twoSlips .update emptySlip
      = (.ok (.object [(['t'], .text ['a'])]), twoSlips) := by
  have hlawful : twoSlips.IsLawful := by
    refine ⟨?_, ?_, by decide⟩
    · unfold Store.Ordered
      decide
    · simp only [twoSlips, ofRows, List.forall_mem_cons]
      exact ⟨⟨by decide, rfl⟩, ⟨by decide, rfl⟩, by simp⟩
  have hnone : ∀ p ∈ ([] : Members), slipService.binding.table.column? p.1 = none := by simp
  have hrun := (update_of_no_column (v := slipService) (r := emptySlip) (x := .text ['a']) hlawful
    rfl rfl rfl rfl hnone).2 rfl
  exact ⟨hlawful, rfl, rfl, rfl, rfl, hnone, rfl, hrun.2.2 _ rfl⟩

/-- A request that gives nothing to the first note. -/
def emptyNote : Request := ⟨[], [(['i', 'd'], .text ['1'])], .object []⟩

/-- **An update without a body is refused where there is a row.** The note is there and can be
shown, the body is valid and names no column, and the answer is an error that tells nothing of the
row. -/
theorem empty_update_is_refused :
    notedStore.IsLawful ∧ notedStore.table = noteService.binding.table ∧
      noteService.lookupValue noteService.binding.keys.update emptyNote = .ok (.integer 1) ∧
      noteService.binding.schemas.update.validate emptyNote.body true = .ok [] ∧
      (∃ row, notedStore.first? (equals noteService.binding.keys.update (.integer 1))
          = .ok (some row) ∧
        noteService.rowAnswer row
          = .ok (.object [(['i', 'd'], .integer 1), (['t'], .text ['a'])])) ∧
      noteService.perform notedStore .update emptyNote = (.error .wrongType, notedStore) := by
  have hlawful : notedStore.IsLawful := by
    refine ⟨List.pairwise_singleton _ _, ?_, List.pairwise_singleton _ _⟩
    simp only [notedStore, ofRows, List.forall_mem_cons]
    exact ⟨⟨by decide, rfl⟩, by simp⟩
  exact ⟨hlawful, rfl, rfl, rfl, ⟨_, rfl, rfl⟩, rfl⟩

end Service
end TableService
