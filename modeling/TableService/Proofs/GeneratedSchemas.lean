import Mathlib.Data.List.Nodup
import TableService.Resource.Perform
import TableService.Proofs.StoredForm

/-!
# Generated schemas

The schemas that are made from a table have one field for each column that is not private, in the
order of the columns, and its kind is that of the column's type. So validation takes a body apart
**column by column**: what a valid body gives to a column is what its field takes, and what a row
shows is what each of its columns shows.

Validated members, cells and defaults are all lists of things by the names of columns. As the names
of a table's columns differ, looking up a name finds what was made for its column.
-/

namespace TableService

/-! ## 1. Lists by name -/

section Named

variable {α β : Type} {name : α → Text} {o : α → Option β} {xs : List α}

theorem lookup_filterMap_of_not_mem {n : Text} (h : n ∉ xs.map name) :
    (xs.filterMap fun a => (o a).map (name a, ·)).lookup n = none := by
  rw [List.lookup_eq_none_iff]
  intro p hp
  obtain ⟨a, ha, hpair⟩ := List.mem_filterMap.mp hp
  obtain ⟨b, -, rfl⟩ := Option.map_eq_some_iff.mp hpair
  rw [bne_iff_ne]
  rintro rfl
  exact h (List.mem_map_of_mem ha)

/-- Looking up a name finds what was made under it. -/
theorem lookup_filterMap (hnodup : (xs.map name).Nodup) {a : α} (ha : a ∈ xs) :
    (xs.filterMap fun a => (o a).map (name a, ·)).lookup (name a) = o a := by
  induction xs with
  | nil => cases ha
  | cons x xs ih =>
    obtain ⟨hx, hnodup⟩ := List.nodup_cons.mp hnodup
    rcases List.mem_cons.mp ha with rfl | ha
    · cases hmade : o a with
      | none =>
        rw [List.filterMap_cons, hmade]
        exact lookup_filterMap_of_not_mem hx
      | some b => simp [hmade]
    · have hne : (name a == name x) = false := by
        rw [beq_eq_false_iff_ne]
        rintro heq
        exact hx (heq ▸ List.mem_map_of_mem ha)
      rw [← ih hnodup ha, List.filterMap_cons]
      cases o x with
      | none => rfl
      | some b => simp [List.lookup_cons, hne]

theorem lookup_map {g : α → β} (hnodup : (xs.map name).Nodup) {a : α} (ha : a ∈ xs) :
    (xs.map fun a => (name a, g a)).lookup (name a) = some (g a) := by
  have h := lookup_filterMap (o := fun a => some (g a)) hnodup ha
  simpa using h

/-- A choice by names keeps what stands under a name that it takes. -/
theorem lookup_filter {q : Text → Bool} {n : Text} (h : q n = true) {ps : List (Text × β)} :
    (ps.filter fun p => q p.1).lookup n = ps.lookup n := by
  induction ps with
  | nil => rfl
  | cons p ps ih =>
    by_cases hn : n = p.1
    · rw [List.filter_cons_of_pos (hn ▸ h), List.lookup_cons, List.lookup_cons, hn,
        beq_self_eq_true]
    · rw [List.filter_cons, List.lookup_cons, beq_false_of_ne hn, ← ih]
      split
      · rw [List.lookup_cons, beq_false_of_ne hn]
      · rfl

end Named

namespace Table

/-- The columns that have a field in a schema of the table. -/
def publicColumns (t : Table) : List Column := t.columns.filter fun c => !Schema.isPrivate c.name

theorem mem_columns_of_mem_publicColumns {t : Table} {c : Column} (h : c ∈ t.publicColumns) :
    c ∈ t.columns := (List.mem_filter.mp h).1

theorem nodup_publicColumns {t : Table} (h : t.columnNames.Nodup) :
    (t.publicColumns.map Column.name).Nodup :=
  h.sublist (List.filter_sublist.map Column.name)

theorem column?_of_mem {t : Table} (h : t.columnNames.Nodup) {c : Column} (hc : c ∈ t.columns) :
    t.column? c.name = some c := by
  cases hfound : t.column? c.name with
  | none =>
    have := List.find?_eq_none.mp hfound c hc
    simp at this
  | some d =>
    have hname := name_of_column? hfound
    rw [List.inj_on_of_nodup_map h (mem_of_column? hfound) hc hname]

end Table

/-- The members of a body. What is no object has none. -/
def Value.bodyMembers : Value → Members
  | .object members | .unpairedNames _ members => members
  | _ => []

namespace Schema

variable {t : Table} {s : Schema} {field : Column → Field}

/-- Whether a schema has one field for each public column of a table. -/
def IsOver (s : Schema) (t : Table) (field : Column → Field) : Prop :=
  s.fields = t.publicColumns.map field

theorem isOver_of_made {suffix : Text} {forbids reads : Bool}
    (hname : ∀ c, (field c).name = c.name)
    (h : made suffix (t.columns.map field) forbids reads = .ok s) :
    s.IsOver t field ∧ s.forbidsExtra = forbids := by
  unfold made at h
  split at h
  · cases h
  · unfold declare at h
    split at h
    · cases h
    · cases h
      refine ⟨?_, rfl⟩
      change (t.columns.map field).filter (fun f => !isPrivate f.name) = t.publicColumns.map field
      rw [List.filter_map]
      refine congrArg _ (List.filter_congr fun c _ => ?_)
      rw [Function.comp_apply, hname]

theorem fieldNames_of_isOver (hover : s.IsOver t field) (hname : ∀ c, (field c).name = c.name) :
    s.fieldNames = t.publicColumns.map Column.name := by
  rw [fieldNames, hover, List.map_map]
  exact List.map_congr_left fun c _ => hname c

theorem of_validateMembers {members data : Members} {isPartial : Bool}
    (h : s.validateMembers members isPartial = .ok data) :
    s.fieldErrors members = [] ∧ data = s.values members isPartial := by
  unfold validateMembers at h
  split at h
  · next hnil =>
    cases h
    exact ⟨(List.append_eq_nil_iff.mp hnil).1, rfl⟩
  · cases h

/-- A validation that succeeds has found no fault in the members of the body. -/
theorem of_validate {body : Value} {isPartial : Bool} {data : Members}
    (h : s.validate body isPartial = .ok data) :
    s.fieldErrors body.bodyMembers = [] ∧ data = s.values body.bodyMembers isPartial := by
  unfold validate at h
  split at h
  · exact of_validateMembers h
  · exact of_validateMembers h
  · split at h
    · cases h
    · exact of_validateMembers h
  · cases h

/-- A field is given what it takes of its member. -/
theorem outcome_eq_given {members : Members} {f : Field} {w : Value} :
    outcome members f = .given w ↔
      ∃ v, members.lookup f.name = some v ∧ Convert.toField f v = .ok w := by
  unfold outcome
  cases hv : members.lookup f.name with
  | none => cases f.required <;> simp
  | some v => cases hw : Convert.toField f v <;> simp [hw]

/-- **What a partial validation gives is what the body has.** A field is given if it is a member of
the body, be it null, and not if the schema would fill it in. -/
theorem isSome_lookup_of_validate {body : Value} {data : Members}
    (h : s.validate body true = .ok data) (name : Text) :
    (data.lookup name).isSome = true ↔
      name ∈ s.fieldNames ∧ (body.bodyMembers.lookup name).isSome = true := by
  obtain ⟨herrors, rfl⟩ := of_validate h
  rw [List.lookup_isSome_iff]
  constructor
  · rintro ⟨p, hp, hname⟩
    obtain ⟨f, hf, hgiven⟩ := List.mem_filterMap.mp hp
    split at hgiven
    · next w houtcome =>
      cases hgiven
      obtain ⟨v, hv, -⟩ := outcome_eq_given.mp houtcome
      obtain rfl : name = f.name := eq_of_beq hname
      exact ⟨List.mem_map_of_mem hf, by rw [hv]; rfl⟩
    · cases hgiven
  · rintro ⟨hname, hmember⟩
    obtain ⟨f, hf, rfl⟩ := List.mem_map.mp hname
    obtain ⟨v, hv⟩ := Option.isSome_iff_exists.mp hmember
    -- A member that its field does not take would be a fault.
    cases htaken : Convert.toField f v with
    | error e =>
      have hfault := List.filterMap_eq_nil_iff.mp herrors f hf
      simp [outcome, hv, htaken] at hfault
    | ok w =>
      refine ⟨(f.name, w), List.mem_filterMap.mpr ⟨f, hf, ?_⟩, beq_self_eq_true _⟩
      rw [outcome_eq_given.mpr ⟨v, hv, htaken⟩]

/-- The value that is given for a field, if there is one that the field takes. -/
def given? (members : Members) (f : Field) : Option Value :=
  match outcome members f with
  | .given v => some v
  | _ => none

theorem of_given? {members : Members} {f : Field} {w : Value} (h : given? members f = some w) :
    ∃ v, Convert.toField f v = .ok w := by
  unfold given? at h
  split at h
  · next houtcome =>
    cases h
    obtain ⟨v, -, hv⟩ := outcome_eq_given.mp houtcome
    exact ⟨v, hv⟩
  · cases h

theorem values_partial (hover : s.IsOver t field) (hname : ∀ c, (field c).name = c.name)
    (members : Members) :
    s.values members true
      = t.publicColumns.filterMap fun c => (given? members (field c)).map (c.name, ·) := by
  rw [values, hover, List.filterMap_map]
  refine List.filterMap_congr fun c _ => ?_
  simp only [Function.comp_apply, given?, hname, if_true]
  cases outcome members (field c) <;> rfl

/-- **A body that is valid gives each column what its field takes.** All that was validated stands
under the names of public columns, and under the name of a column stands what its field takes of
some value. -/
theorem of_validate_partial (hnodup : t.columnNames.Nodup) (hover : s.IsOver t field)
    (hname : ∀ c, (field c).name = c.name) {body : Value} {data : Members}
    (h : s.validate body true = .ok data) :
    (∀ p ∈ data, ∃ c ∈ t.publicColumns, c.name = p.1) ∧
      ∀ c ∈ t.columns, ∀ w, data.lookup c.name = some w →
        c ∈ t.publicColumns ∧ ∃ v, Convert.toField (field c) v = .ok w := by
  obtain ⟨-, rfl⟩ := of_validate h
  rw [values_partial hover hname]
  constructor
  · intro p hp
    obtain ⟨c, hc, hpair⟩ := List.mem_filterMap.mp hp
    obtain ⟨w, -, rfl⟩ := Option.map_eq_some_iff.mp hpair
    exact ⟨c, hc, rfl⟩
  · intro c hc w hw
    -- A private column has the name of no public one, so nothing stands under its name.
    have hpublic : c ∈ t.publicColumns := by
      by_contra hnot
      have habsent : c.name ∉ t.publicColumns.map Column.name := by
        intro hmem
        obtain ⟨d, hd, heq⟩ := List.mem_map.mp hmem
        have := List.inj_on_of_nodup_map hnodup (Table.mem_columns_of_mem_publicColumns hd) hc heq
        exact hnot (this ▸ hd)
      rw [lookup_filterMap_of_not_mem habsent] at hw
      cases hw
    rw [lookup_filterMap (Table.nodup_publicColumns hnodup) hpublic] at hw
    exact ⟨hpublic, of_given? hw⟩

/-- In a row that is valid, what is given for a public column is taken by its field. -/
theorem toField_of_validate (hover : s.IsOver t field) (hname : ∀ c, (field c).name = c.name)
    {row data : Members} (h : s.validate (.object row) false = .ok data) {c : Column}
    (hc : c ∈ t.publicColumns) {v : Value} (hv : row.lookup c.name = some v) :
    ∃ w, Convert.toField (field c) v = .ok w := by
  have herrors := (of_validateMembers h).1
  rw [fieldErrors, hover, List.filterMap_map, List.filterMap_eq_nil_iff] at herrors
  have hfield := herrors c hc
  cases htaken : Convert.toField (field c) v with
  | ok w => exact ⟨w, rfl⟩
  | error e => simp [outcome, hname, hv, htaken] at hfield

/-- **A row is valid column by column.** If the row has a value for each public column that the
column's field takes, validation gives what the fields take. -/
theorem validate_row (hover : s.IsOver t field) (hname : ∀ c, (field c).name = c.name)
    {row : Members} {w : Column → Value}
    (hrow : ∀ c ∈ t.publicColumns, ∃ v, row.lookup c.name = some v ∧
      Convert.toField (field c) v = .ok (w c))
    (hextra : s.extraErrors row = []) :
    s.validate (.object row) false = .ok (t.publicColumns.map fun c => (c.name, w c)) := by
  have houtcome : ∀ c ∈ t.publicColumns, outcome row (field c) = .given (w c) := by
    intro c hc
    obtain ⟨v, hv, hw⟩ := hrow c hc
    rw [outcome, hname, hv]
    simp only [hw]
  have herrors : s.fieldErrors row = [] := by
    rw [fieldErrors, hover, List.filterMap_map, List.filterMap_eq_nil_iff]
    intro c hc
    simp only [Function.comp_apply, houtcome c hc]
  have hvalues : s.values row false = t.publicColumns.map fun c => (c.name, w c) := by
    rw [values, hover, List.filterMap_map, ← List.filterMap_eq_map]
    refine List.filterMap_congr fun c hc => ?_
    simp only [Function.comp_apply, houtcome c hc, hname]
  rw [validate, validateMembers, herrors, hextra, List.append_nil]
  simp only [hvalues]

end Schema

/-! ## 3. The schemas of a binding -/

namespace SchemaSet

/-- The field of a column in the generated create schema. -/
def createField (c : Column) : Field :=
  Schema.fieldFor c (c.nullable || Schema.isGenerated c) !(c.nullable || Schema.isGenerated c)

/-- The field of a column in the generated read schema. -/
def readField (c : Column) : Field := Schema.fieldFor c c.nullable !c.nullable

/-- The field of a column in the generated update schema. -/
def updateField (c : Column) : Field := Schema.fieldFor c c.nullable false

/-- Whether the schemas for one row are those that are generated from a table. -/
structure IsGenerated (s : SchemaSet) (t : Table) : Prop where
  create : s.create.IsOver t createField
  retrieve : s.retrieve.IsOver t readField
  allowsExtra : s.retrieve.forbidsExtra = false
  update : s.update.IsOver t updateField

theorem isGenerated_of_forTable {t : Table} {s : SchemaSet}
    (h : forTable t SchemaChoice.none = .ok s) : s.IsGenerated t := by
  obtain ⟨reading, hreading, h⟩ := Outcome.bind_eq_ok.mp h
  obtain ⟨create, hcreate, h⟩ := Outcome.bind_eq_ok.mp h
  obtain ⟨update, hupdate, h⟩ := Outcome.bind_eq_ok.mp h
  cases h
  have hcreateName : ∀ c, (createField c).name = c.name := fun _ => rfl
  have hreadName : ∀ c, (readField c).name = c.name := fun _ => rfl
  have hupdateName : ∀ c, (updateField c).name = c.name := fun _ => rfl
  obtain ⟨hread, hallows⟩ := Schema.isOver_of_made hreadName hreading
  exact {
    create := (Schema.isOver_of_made hcreateName hcreate).1
    retrieve := hread
    allowsExtra := hallows
    update := (Schema.isOver_of_made hupdateName hupdate).1 }

theorem list_eq_of_forTable {t : Table} {s : SchemaSet}
    (h : forTable t SchemaChoice.none = .ok s) : s.list = s.retrieve := by
  obtain ⟨reading, -, h⟩ := Outcome.bind_eq_ok.mp h
  obtain ⟨create, -, h⟩ := Outcome.bind_eq_ok.mp h
  obtain ⟨update, -, h⟩ := Outcome.bind_eq_ok.mp h
  cases h
  rfl

end SchemaSet
end TableService
