import TableService.Proofs.KeyedRows
import TableService.Proofs.UpdateFrame

/-!
# The columns that a new row has to fill

A column that may not be null has to come to a cell when a row is inserted: by the body, by a
default, or by the number of the row. The create schema asks for such a column unless it counts as
generated, and the store refuses a row without it. The two do not go by the same rules.

> The body of a creation was taken, and the row lacks a cell, **exactly where a column is left empty
> for one of five reasons** (`Column.EmptyCause`).

Two of them are about what counts as generated. An integer of the primary key does, by its type, but
the store numbers the rows of a table only where such a column is the whole key and no big integer;
of a key of two columns nothing is generated. And a column that counts as generated may be left out,
for which its field takes null as well, and null that is given keeps a default from applying. The
update schema asks whether the column may be null instead.

The others are a NaN, which the store keeps as null, a private column, which has no field to be
given by, and a default that is itself kept as null.

Which of the two happens is read off a column, the body and the table (`Schema.supplied_or_empty`).
The rest of the module follows the row to the store: before the row has its number, a column has no
cell if it was left empty (`Store.cell_of_emptyCause`), and it has one if it was supplied otherwise
(`Store.cell_of_isSupplied`). The number then fills one column only.
-/

namespace TableService

/-! ## 1. What a column keeps as null -/

/-- Whether a column keeps a value as null: null itself, unless the column keeps its JSON text, and
NaN where numbers are bound as they are. -/
def Column.KeepsAsNull (c : Column) (v : Value) : Prop :=
  v = .null ∧ c.type ≠ .json
    ∨ v = .real .nan ∧ (c.type = .float ∨ c.type = .untyped ∨ c.type = .custom)

namespace Binary64

theorem normalize_ne_nan (s : Bool) (m : Nat) (q : Int) : normalize s m q ≠ .nan := by
  unfold normalize
  generalize (if m = Nat.pow 2 53 then (Nat.pow 2 52, q + 1) else (m, q)) = x
  dsimp only
  split <;> simp

theorem ofRatio_ne_nan (s : Bool) (n d : Nat) : ofRatio s n d ≠ .nan := by
  unfold ofRatio
  split
  · simp
  · exact normalize_ne_nan s _ _

theorem ofDecimal_ne_nan (s : Bool) (c : Nat) (e : Int) : ofDecimal s c e ≠ .nan := by
  unfold ofDecimal
  dsimp only
  repeat' split
  all_goals first | exact ofRatio_ne_nan _ _ _ | simp

end Binary64

namespace Store

namespace Cell

theorem ofNumberText?_ne_null {t : Text} : ofNumberText? t ≠ some .null := by
  unfold ofNumberText?
  dsimp only
  split
  · rw [ne_eq, Option.map_eq_some_iff]
    rintro ⟨l, -, h⟩
    split at h <;> cases h
  · nofun

theorem spelled_eq_null {x : Cell} : x.spelled = .null ↔ x = .null := by
  cases x with
  | text t =>
    rw [spelled]
    cases h : ofNumberText? t with
    | none => simp
    | some y =>
      have hy : y ≠ .null := fun heq => ofNumberText?_ne_null (heq ▸ h)
      simpa using hy
  | _ => exact Iff.rfl

theorem shrink_eq_null {x : Cell} : x.shrink = .null ↔ x = .null := by
  cases x with
  | real y =>
    rw [shrink]
    split
    · split <;> simp
    · simp
  | _ => exact Iff.rfl

theorem widen_eq_null {x : Cell} : x.widen = .null ↔ x = .null := by
  unfold widen
  split <;> simp

/-- No affinity makes a null of another cell. -/
theorem withAffinity_eq_null {x : Cell} {a : Affinity} : x.withAffinity a = .null ↔ x = .null := by
  cases a with
  | integer | numeric => exact shrink_eq_null.trans spelled_eq_null
  | real => exact widen_eq_null.trans spelled_eq_null
  | text =>
    rw [withAffinity]
    cases x <;> simp [toText?]

theorem ofLiteral_eq_null {l : Literal} : ofLiteral l = .null ↔ l = .null ∨ l = .real .nan := by
  unfold ofLiteral
  split <;> simp_all

end Cell

namespace Codec

variable {c : Column} {v w : Value}

theorem cell?_eq_null {p : Parameter} : p.cell? = .ok .null ↔ p = .cell .null := by
  constructor
  · intro h
    cases p with
    | cell x => rw [← eq_of_cell? h]
    | foreign => cases h
    | unencodable => cases h
  · rintro rfl
    rfl

/-- A column keeps null exactly of what is sent as null. -/
theorem cellFor_eq_null : cellFor c v = .ok .null ↔ parameter c.type v = .ok (.cell .null) := by
  rw [cellFor_eq_ok]
  constructor
  · rintro ⟨p, y, hp, hy, hnull⟩
    obtain rfl := Cell.withAffinity_eq_null.mp hnull.symm
    rw [hp, cell?_eq_null.mp hy]
  · intro h
    exact ⟨_, _, h, rfl, (Cell.withAffinity_eq_null.mpr rfl).symm⟩

theorem plain_eq_null : plain w = .cell .null ↔ w = .null ∨ w = .real .nan := by
  unfold plain
  split
  · simp
  · simp [Cell.ofLiteral_eq_null]
  · simp
  · next hliteral _ =>
    constructor
    · nofun
    · rintro (rfl | rfl)
      · exact absurd rfl (hliteral .null)
      · exact absurd rfl (hliteral (.real .nan))

/-- A value of a plain type other than a real number is sent as a cell. -/
theorem send_of_holds {t : ColumnType} (h : t.Holds w) (ht : t ≠ .float) :
    send t w ≠ .ok (.cell .null) := by
  unfold ColumnType.Holds at h
  split at h
  case h_5 => exact absurd rfl ht
  case h_9 => exact h.elim
  all_goals simp [send, plain, boolean, date, moment, Cell.ofLiteral, Except.map]

theorem send_unpaired (t : ColumnType) (u : Text) : send t (.unpaired u) ≠ .ok (.cell .null) := by
  cases t <;> simp [send, plain, number, boolean, date, moment, json, Convert.toFloat, Except.map]

/-- Of the values that a column's field takes, NaN alone is sent as null besides null itself, where
numbers are bound as they are. -/
theorem send_eq_null {t : ColumnType} (hw : w ≠ .null)
    (htaken : Convert.toKind t.fieldKind v = .ok w) :
    send t w = .ok (.cell .null)
      ↔ w = .real .nan ∧ (t = .float ∨ t = .untyped ∨ t = .custom) := by
  have hplain : t.isPlain = true → t ≠ .float → send t w ≠ .ok (.cell .null) := fun ht hfloat => by
    rcases Convert.holds_of_toKind ht htaken with hholds | ⟨u, rfl⟩
    · exact send_of_holds hholds hfloat
    · exact send_unpaired t u
  cases t with
  | integer | bigInteger | string | text | boolean | date | dateTime =>
    exact iff_of_false (hplain rfl nofun) (by simp)
  | float =>
    have hread : (Convert.toFloat v).map Value.real = .ok w := by
      cases v <;> first | exact htaken | cases htaken
    obtain ⟨x, -, rfl⟩ := Outcome.map_eq_ok.mp hread
    show (number (.real x)).map Parameter.cell = _ ↔ _
    simp [number, Convert.toFloat, Except.map, Cell.ofLiteral_eq_null]
  | numeric =>
    have hread : (Convert.toDecimal v).map Value.decimal = .ok w := by
      cases v <;> first | exact htaken | cases htaken
    obtain ⟨d, -, rfl⟩ := Outcome.map_eq_ok.mp hread
    have hnumber : d.toBinary64 ≠ .nan := by
      cases d with
      | infinite s => nofun
      | finite s m e => exact Binary64.ofDecimal_ne_nan s m e
    show (number (.decimal d)).map Parameter.cell = _ ↔ _
    simp [number, Convert.toFloat, Except.map, Cell.ofLiteral_eq_null, hnumber]
  | json =>
    show (json w).map Parameter.cell = _ ↔ _
    refine iff_of_false (fun h => ?_) (by simp)
    obtain ⟨x, hx, hcell⟩ := Outcome.map_eq_ok.mp h
    unfold json at hx
    split at hx <;> cases hx
    cases hcell
  | strings | integers => exact iff_of_false nofun (by simp)
  | untyped | custom =>
    show Except.ok (plain w) = _ ↔ _
    simp [plain_eq_null, hw]

/-- **What a column keeps as null of the values that its field takes.** -/
theorem cellFor_eq_null_of_taken {f : Field} (hkind : f.kind = c.type.fieldKind)
    (htaken : Convert.toField f v = .ok w) : cellFor c w = .ok .null ↔ c.KeepsAsNull w := by
  rw [cellFor_eq_null]
  unfold parameter Column.KeepsAsNull
  by_cases hw : w = .null
  · subst hw
    by_cases hjson : c.type = .json
    · rw [hjson]
      exact iff_of_false (by simp [send, json, Except.map, Value.isNull]) (by simp)
    · rw [if_pos (by simp [Value.isNull, hjson])]
      simp [hjson]
  · have hkindTaken : Convert.toKind c.type.fieldKind v = .ok w := by
      unfold Convert.toField at htaken
      split at htaken
      · cases htaken
        exact absurd rfl hw
      · exact hkind ▸ htaken
    have hnull : w.isNull = false :=
      Bool.eq_false_iff.mpr fun hisNull => hw (Value.eq_null_of_isNull hisNull)
    rw [if_neg (by simp [hnull]), send_eq_null hw hkindTaken]
    simp [hw]

end Codec
end Store

/-! ## 2. What an accepted body does for a column -/

/-- How nothing that counts comes to reach a column, although the create schema took the body. -/
inductive Column.EmptyCause (data : Members) (c : Column) : Prop where
  /-- Null was given, to a column that counts as generated or takes anything. -/
  | null (given : data.lookup c.name = some .null)
      (accepted : Schema.isGenerated c = true ∨ c.type = .untyped ∨ c.type = .custom)
      (kept : c.type ≠ .json)
  /-- NaN was given, for which there is no cell. -/
  | nan (given : data.lookup c.name = some (.real .nan))
      (kept : c.type = .float ∨ c.type = .untyped ∨ c.type = .custom)
  /-- Nothing was given to a key column that counts as generated for its type. -/
  | key (absent : data.lookup c.name = none) (fallback : c.fallback = none)
      (serverDefault : c.serverDefault = none) (counted : c.primaryKey = true
        ∧ c.autoincrement ≠ some false ∧ c.type.isInteger = true)
  /-- Nothing could be given, since the schema has no field of the name. -/
  | hidden (absent : data.lookup c.name = none) (fallback : c.fallback = none)
      (serverDefault : c.serverDefault = none) (hidden : Schema.isPrivate c.name = true)
  /-- The default of the column is itself kept as null. -/
  | default {v : Value} (absent : data.lookup c.name = none) (fallback : c.fallback = some v)
      (kept : Store.Codec.cellFor c v = .ok .null)

/-- Whether a column that has to be filled is left empty. -/
structure Column.IsLeftEmpty (t : Table) (data : Members) (c : Column) : Prop where
  required : c.nullable = false
  notNumber : Store.numberColumn? t ≠ some c
  cause : c.EmptyCause data

/-- How a column comes to a cell: it has the number of the row, or a value that is not kept as null,
or a default, its own or that of the store. -/
inductive Column.IsSupplied (t : Table) (data : Members) (c : Column) : Prop where
  | number (number : Store.numberColumn? t = some c)
  | given {v : Value} (notNumber : Store.numberColumn? t ≠ some c)
      (given : data.lookup c.name = some v) (kept : ¬ c.KeepsAsNull v)
  | default {v : Value} (notNumber : Store.numberColumn? t ≠ some c)
      (absent : data.lookup c.name = none) (fallback : c.fallback = some v)
      (kept : Store.Codec.cellFor c v ≠ .ok .null)
  | serverDefault {d : Text} (notNumber : Store.numberColumn? t ≠ some c)
      (absent : data.lookup c.name = none) (fallback : c.fallback = none)
      (serverDefault : c.serverDefault = some d)

namespace Schema

/-- Null is taken by a field that may be null, and by a field that takes anything. -/
theorem null_of_toField {f : Field} {v : Value} (h : Convert.toField f v = .ok .null) :
    f.nullable = true ∨ f.kind = .object ∨ f.kind = .anything := by
  unfold Convert.toField at h
  split at h
  · next hnull =>
    exact .inl (Bool.and_eq_true_iff.mp hnull).1
  · right
    unfold Convert.toKind at h
    -- Every other kind makes a value of its own, which is not null.
    split at h
    case h_2 => exact .inl ‹_›
    case h_3 => exact .inr ‹_›
    all_goals first
      | cases h
      | (obtain ⟨x, -, hx⟩ := Outcome.map_eq_ok.mp h; cases hx)

section Accepted

variable {t : Table} {sch : Schema} {body : Value} {data : Members} {c : Column} {w : Value}
  (hnames : t.columnNames.Nodup) (hover : sch.IsOver t SchemaSet.createField)
  (hdata : sch.validate body true = .ok data) (hc : c ∈ t.columns)
include hnames hover hdata hc

/-- What is given for a column was taken by its field. -/
theorem taken_of_lookup (hw : data.lookup c.name = some w) :
    ∃ v, Convert.toField (SchemaSet.createField c) v = .ok w :=
  ((of_validate_partial hnames hover (fun _ => rfl) hdata).2 c hc w hw).2

omit hnames in
/-- A column that nothing is given for is private, or it may be left out. -/
theorem optional_of_lookup (hnone : data.lookup c.name = none) :
    isPrivate c.name = true ∨ (c.nullable || isGenerated c) = true := by
  cases hprivate : isPrivate c.name with
  | true => exact .inl rfl
  | false =>
    right
    have hpublic : c ∈ t.publicColumns := List.mem_filter.mpr ⟨hc, by simp [hprivate]⟩
    have hfield : SchemaSet.createField c ∈ sch.fields := hover ▸ List.mem_map_of_mem hpublic
    obtain ⟨herrors, -⟩ := of_validate hdata
    have hmember : body.bodyMembers.lookup c.name = none := by
      cases hlookup : body.bodyMembers.lookup c.name with
      | none => rfl
      | some v =>
        have hsome := (isSome_lookup_of_validate hdata c.name).mpr
          ⟨List.mem_map_of_mem hfield, by rw [hlookup]; rfl⟩
        rw [hnone] at hsome
        cases hsome
    have hfault := List.filterMap_eq_nil_iff.mp herrors _ hfield
    cases hoptional : c.nullable || isGenerated c with
    | true => rfl
    | false =>
      simp [outcome, SchemaSet.createField, fieldFor, hmember, hoptional] at hfault

/-- **A column that has to be filled is supplied, or left empty for one of the reasons above.** -/
theorem supplied_or_empty (hrequired : c.nullable = false) :
    c.IsSupplied t data ∨ c.IsLeftEmpty t data := by
  by_cases hnumber : Store.numberColumn? t = some c
  · exact .inl (.number hnumber)
  cases hgiven : data.lookup c.name with
  | some w =>
    obtain ⟨v, hv⟩ := taken_of_lookup hnames hover hdata hc hgiven
    by_cases hkept : c.KeepsAsNull w
    · refine .inr ⟨hrequired, hnumber, ?_⟩
      rcases hkept with ⟨rfl, hjson⟩ | ⟨rfl, hreal⟩
      · refine .null hgiven ?_ hjson
        have hfield := null_of_toField hv
        simp only [SchemaSet.createField, fieldFor, hrequired, Bool.false_or] at hfield
        refine hfield.imp_right fun hkind => ?_
        cases htype : c.type <;> simp_all [ColumnType.fieldKind]
      · exact .nan hgiven hreal
    · exact .inl (.given hnumber hgiven hkept)
  | none =>
    cases hfallback : c.fallback with
    | some v =>
      by_cases hkept : Store.Codec.cellFor c v = .ok .null
      · exact .inr ⟨hrequired, hnumber, .default hgiven hfallback hkept⟩
      · exact .inl (.default hnumber hgiven hfallback hkept)
    | none =>
      cases hserver : c.serverDefault with
      | some d => exact .inl (.serverDefault hnumber hgiven hfallback hserver)
      | none =>
        refine .inr ⟨hrequired, hnumber, ?_⟩
        rcases optional_of_lookup hover hdata hc hgiven with hprivate | hoptional
        · exact .hidden hgiven hfallback hserver hprivate
        · refine .key hgiven hfallback hserver ?_
          simpa [hrequired, isGenerated, hfallback, hserver, and_assoc] using hoptional

end Accepted

end Schema

/-! ## 3. The row of an insertion -/

namespace Store

open Codec

theorem number_eq_error {v : Value} {e : StoreFault} (h : number v = .error e) : e = .rejected := by
  unfold number at h
  split at h
  all_goals cases h
  rfl

theorem boolean_eq_error {v : Value} {e : StoreFault} (h : boolean v = .error e) :
    e = .rejected := by
  unfold boolean at h
  repeat' split at h
  all_goals cases h
  all_goals rfl

theorem date_eq_error {v : Value} {e : StoreFault} (h : date v = .error e) : e = .rejected := by
  unfold date at h
  split at h
  all_goals cases h
  rfl

theorem moment_eq_error {v : Value} {e : StoreFault} (h : moment v = .error e) : e = .rejected := by
  unfold moment at h
  split at h
  all_goals cases h
  rfl

theorem json_eq_error {v : Value} {e : StoreFault} (h : json v = .error e) : e = .rejected := by
  unfold json at h
  split at h
  all_goals cases h
  all_goals rfl

/-- A value that a column does not accept is rejected, and no value fails otherwise before it is
sent. -/
theorem parameter_eq_error {t : ColumnType} {v : Value} {e : StoreFault}
    (h : parameter t v = .error e) : e = .rejected := by
  unfold parameter at h
  split at h
  · cases h
  · cases t with
    | float | numeric => exact number_eq_error (Outcome.map_eq_error.mp h)
    | boolean => exact boolean_eq_error (Outcome.map_eq_error.mp h)
    | date => exact date_eq_error (Outcome.map_eq_error.mp h)
    | dateTime => exact moment_eq_error (Outcome.map_eq_error.mp h)
    | json => exact json_eq_error (Outcome.map_eq_error.mp h)
    | strings | integers =>
      cases h
      rfl
    | _ => cases h

theorem bindAll_eq_error {given : Members} {e : StoreFault} : ∀ {cs : List Column},
    bindAll given cs = .error e → e = .rejected
  | [], h => by cases h
  | c :: cs, h => by
    rw [bindAll] at h
    split at h
    · exact bindAll_eq_error h
    · split at h
      · next hparameter =>
        cases h
        exact parameter_eq_error hparameter
      · exact bindAll_eq_error (Outcome.map_eq_error.mp h)

theorem cellsOf_ne_unfilled {n : Text} : ∀ {ps : List (Column × Parameter)},
    cellsOf ps ≠ .error (.unfilled n)
  | [], h => by cases h
  | (c, p) :: ps, h => by
    rw [cellsOf] at h
    split at h
    · next e he =>
      cases h
      unfold Parameter.cell? at he
      split at he
      · split at he <;> cases he
      all_goals cases he
    · exact cellsOf_ne_unfilled (Outcome.map_eq_error.mp h)

/-- An insertion that fails for a column without a cell has made the row before. -/
theorem insert_eq_unfilled {s : Store} {values : Members} {n : Text}
    (h : s.insert values = .error (.unfilled n)) :
    ∃ ps cells r c,
      bindAll (values ++ s.table.columns.filterMap (fallbackOf values)) s.table.columns = .ok ps ∧
      cellsOf ps = .ok cells ∧
      numbered? s.table s.nextNumber (unnumbered s.table cells) = some r ∧
      unfilled? s.table r = some c ∧ c.name = n := by
  unfold insert at h
  rcases Outcome.bind_eq_error.mp h with hbind | ⟨ps, hbind, h⟩
  · cases bindAll_eq_error hbind
  rcases Outcome.bind_eq_error.mp h with htable | ⟨_, -, h⟩
  · unfold requireTable at htable
    split at htable <;> cases htable
  rcases Outcome.bind_eq_error.mp h with hcells | ⟨cells, hcells, h⟩
  · exact absurd hcells cellsOf_ne_unfilled
  split at h
  · cases h
  · next r hrow =>
    rcases Outcome.bind_eq_error.mp h with hfilled | ⟨_, -, h⟩
    · unfold requireFilled at hfilled
      split at hfilled
      · next c hc =>
        cases hfilled
        exact ⟨ps, cells, r, c, hbind, hcells, hrow, hc, rfl⟩
      · cases hfilled
    · split at h <;> cases h

section Row

variable {t : Table} {sch : Schema} {body : Value} {data values : Members}
  {ps : List (Column × Parameter)} {cells : List (Column × Cell)} {c : Column}
  (hnames : t.columnNames.Nodup) (hover : sch.IsOver t SchemaSet.createField)
  (hdata : sch.validate body true = .ok data)
  (hvalues : ∀ c ∈ t.columns, values.lookup c.name = data.lookup c.name)
  (hbind : bindAll (values ++ t.columns.filterMap (fallbackOf values)) t.columns = .ok ps)
  (hcells : cellsOf ps = .ok cells) (hc : c ∈ t.columns)
include hnames hvalues hbind hcells hc

/-- The cell that is made of what is given, or of the default of the column. -/
theorem cell_of_lookup {v : Value} (hv : (data.lookup c.name).or c.fallback = some v) :
    cellFor c v = .ok ((unnumbered t cells).cell c) :=
  cell_unnumbered_of_some hnames hbind hcells hc (by rw [meant, hvalues c hc, hv])

/-- Without either it is the one that the store puts there. -/
theorem cell_of_nothing (habsent : data.lookup c.name = none) (hfallback : c.fallback = none) :
    (unnumbered t cells).cell c = serverCell t c :=
  cell_unnumbered_of_none hnames hbind hcells hc
    (by rw [meant, hvalues c hc, habsent, hfallback]; rfl)

include hover hdata

/-- A column that is left empty has no cell before the row has its number. -/
theorem cell_of_emptyCause (h : c.EmptyCause data) : (unnumbered t cells).cell c = .null := by
  have hgiven {v : Value} (hv : data.lookup c.name = some v) (hkept : c.KeepsAsNull v) :
      (unnumbered t cells).cell c = .null := by
    obtain ⟨u, hu⟩ := Schema.taken_of_lookup hnames hover hdata hc hv
    have hnull := (cellFor_eq_null_of_taken (f := SchemaSet.createField c) rfl hu).mpr hkept
    have hcell := cell_of_lookup hnames hvalues hbind hcells hc (by rw [hv, Option.some_or])
    exact Except.ok.inj (hcell.symm.trans hnull)
  have hnothing (habsent : data.lookup c.name = none) (hfallback : c.fallback = none)
      (hserver : c.serverDefault = none) : (unnumbered t cells).cell c = .null := by
    rw [cell_of_nothing hnames hvalues hbind hcells hc habsent hfallback, serverCell, hserver]
  cases h with
  | null given _ kept => exact hgiven given (.inl ⟨rfl, kept⟩)
  | nan given kept => exact hgiven given (.inr ⟨rfl, kept⟩)
  | key absent fallback serverDefault _ => exact hnothing absent fallback serverDefault
  | hidden absent fallback serverDefault _ => exact hnothing absent fallback serverDefault
  | default absent fallback kept =>
    have hcell := cell_of_lookup hnames hvalues hbind hcells hc
      (by rw [absent, Option.none_or, fallback])
    exact Except.ok.inj (hcell.symm.trans kept)

/-- A column that is supplied otherwise than by the number of the row has a cell before that. -/
theorem cell_of_isSupplied (h : c.IsSupplied t data) (hnumber : numberColumn? t ≠ some c) :
    (unnumbered t cells).cell c ≠ .null := by
  intro hnull
  cases h with
  | number number => exact hnumber number
  | given _ given kept =>
    obtain ⟨u, hu⟩ := Schema.taken_of_lookup hnames hover hdata hc given
    have hcell := cell_of_lookup hnames hvalues hbind hcells hc (by rw [given, Option.some_or])
    exact kept ((cellFor_eq_null_of_taken (f := SchemaSet.createField c) rfl hu).mp (hnull ▸ hcell))
  | default _ absent fallback kept =>
    have hcell := cell_of_lookup hnames hvalues hbind hcells hc
      (by rw [absent, Option.none_or, fallback])
    exact kept (hnull ▸ hcell)
  | serverDefault _ absent fallback serverDefault =>
    have hother : ((numberColumn? t).any fun n => n.name == c.name) = false := by
      cases hnumbered : numberColumn? t with
      | none => rfl
      | some n =>
        rw [Option.any_some, beq_eq_false_iff_ne]
        intro hname
        have hsame := List.inj_on_of_nodup_map hnames (of_numberColumn? hnumbered).1 hc hname
        exact hnumber (hsame ▸ hnumbered)
    rw [cell_of_nothing hnames hvalues hbind hcells hc absent fallback, serverCell,
      serverDefault] at hnull
    simp only [hother, Bool.false_eq_true, if_false] at hnull
    cases Cell.withAffinity_eq_null.mp hnull

/-- **Of the columns that have to be filled, the row of an insertion lacks a cell exactly in those
that are left empty.** -/
theorem cell_eq_null_iff {number : Int} {r : Row}
    (hrow : numbered? t number (unnumbered t cells) = some r) (hrequired : c.nullable = false) :
    r.cell c = .null ↔ c.IsLeftEmpty t data := by
  rcases cell_numbered hnames hrow hc with ⟨hother, hsame⟩ | ⟨hnumber, n, hcell, -⟩
  · rw [hsame]
    constructor
    · intro hnull
      rcases Schema.supplied_or_empty hnames hover hdata hc hrequired with hsupplied | hempty
      · exact absurd hnull
          (cell_of_isSupplied hnames hover hdata hvalues hbind hcells hc hsupplied hother)
      · exact hempty
    · exact fun hempty =>
        cell_of_emptyCause hnames hover hdata hvalues hbind hcells hc hempty.cause
  · rw [hcell]
    exact iff_of_false nofun fun hempty => hempty.notNumber hnumber

end Row
end Store

/-! ## 4. The insertion of a creation -/

namespace Service

open Store

variable {v : Service} {s : Store} {r : Request} {data values : Members}

theorem createRow_of_insert_error (hdata : v.binding.schemas.create.validate r.body true = .ok data)
    (hvalues : v.columnValues data = .ok values) {e : StoreFault} (h : s.insert values = .error e) :
    v.createRow s r = (.error (e.problem "insert" v.binding.table), s) := by
  have hbody : v.bodyValues v.binding.schemas.create r = .ok values :=
    Outcome.bind_eq_ok.mpr ⟨data, hdata, hvalues⟩
  simp only [createRow, hbody, h]

/-- **A creation fails for a column without a cell exactly where its body left one empty.** The
generated create schema took the body. Each column that has to be filled is then supplied, or left
empty for one of the five reasons; no other column makes the insertion fail for want of a cell, and
with one that is left empty no insertion succeeds. -/
theorem create_fills_supplied
    (hcreate : Schema.forInsert v.binding.table = .ok v.binding.schemas.create)
    (hnames : v.binding.table.columnNames.Nodup) (htable : s.table = v.binding.table)
    (hdata : v.binding.schemas.create.validate r.body true = .ok data)
    (hvalues : v.columnValues data = .ok values) :
    (∀ c ∈ v.binding.table.columns, c.nullable = false →
        c.IsSupplied v.binding.table data ∨ c.IsLeftEmpty v.binding.table data)
      ∧ (∀ n, s.insert values = .error (.unfilled n) →
          ∃ c ∈ v.binding.table.columns, c.name = n ∧ c.IsLeftEmpty v.binding.table data)
      ∧ ∀ c ∈ v.binding.table.columns, c.IsLeftEmpty v.binding.table data →
          ∃ e, s.insert values = .error e
            ∧ v.createRow s r = (.error (e.problem "insert" v.binding.table), s) := by
  have hover : v.binding.schemas.create.IsOver v.binding.table SchemaSet.createField :=
    (Schema.isOver_of_made (fun _ => rfl) hcreate).1
  have hlookup : ∀ c ∈ v.binding.table.columns, values.lookup c.name = data.lookup c.name :=
    fun c hc => lookup_columnValues hvalues hc
  refine ⟨fun c hc => Schema.supplied_or_empty hnames hover hdata hc, fun n hfails => ?_,
    fun c hc hempty => ?_⟩
  · obtain ⟨ps, cells, row, c, hbind, hcells, hrow, hunfilled, hname⟩ := insert_eq_unfilled hfails
    rw [htable] at hbind hrow hunfilled
    have hc := List.mem_of_find?_eq_some hunfilled
    have hlacks := List.find?_some hunfilled
    simp only [Bool.and_eq_true, Bool.not_eq_true'] at hlacks
    have hnull := Cell.eq_null_of_isNull hlacks.2
    exact ⟨c, hc, hname,
      (cell_eq_null_iff hnames hover hdata hlookup hbind hcells hc hrow hlacks.1).mp hnull⟩
  · cases hinsert : s.insert values with
    | error e => exact ⟨e, rfl, createRow_of_insert_error hdata hvalues hinsert⟩
    | ok made =>
      have hinserted := inserted_of_insert hinsert
      obtain ⟨ps, cells, hbind, hcells, hrow⟩ := hinserted.made
      have hfilled := hinserted.filled
      rw [htable] at hbind hrow hfilled
      have hnull := (cell_eq_null_iff hnames hover hdata hlookup hbind hcells hc hrow
        hempty.required).mpr hempty
      rcases unfilled?_eq_none hfilled hc with hnullable | hcell
      · rw [hempty.required] at hnullable
        cases hnullable
      · exact absurd hnull hcell

/-- A price that has a default. -/
def seatPrice : Column :=
  ⟨['p'], .integer, false, false, some (.integer 5), none, none, false⟩

/-- A table of seats, with a key of two integers. -/
def seats : Table where
  name := ['s']
  columns := [
    ⟨['r', 'o', 'w'], .integer, true, false, none, none, none, false⟩,
    ⟨['n'], .integer, true, false, none, none, none, false⟩,
    seatPrice]

/-- Seats are found by their row. -/
def seatOptions : BindingOptions where
  keyPolicy := ⟨none, none, none, some ['r', 'o', 'w']⟩

def seatService : Service where
  binding := .ofOptions seats seatOptions

def seatStore : Store := .empty seats

/-- A request with members as its body. -/
def sending (members : Members) : Request := ⟨[], [], .object members⟩

/-- A seat without a price. -/
def unpriced : Members :=
  [(['r', 'o', 'w'], .integer 1), (['n'], .integer 2), (['p'], .null)]

theorem create_fills_supplied_seat :
    seatService.binding.schemas.create.validate (sending unpriced).body true = .ok unpriced
      ∧ ∃ e, seatStore.insert unpriced = .error e
        ∧ seatService.createRow seatStore (sending unpriced)
          = (.error (e.problem "insert" seats), seatStore) := by
  have hdata : seatService.binding.schemas.create.validate (sending unpriced).body true
      = .ok unpriced := rfl
  have hvalues : seatService.columnValues unpriced = .ok unpriced := rfl
  have hprice : seatPrice ∈ seats.columns := by simp [seats]
  have hempty : seatPrice.IsLeftEmpty seats unpriced := ⟨rfl, nofun, .null rfl (.inl rfl) nofun⟩
  obtain ⟨-, -, hfails⟩ := @create_fills_supplied seatService seatStore (sending unpriced)
    unpriced unpriced rfl (by decide) rfl hdata hvalues
  exact ⟨hdata, hfails _ hprice hempty⟩

/-- The create schema takes a body without one of the two numbers, and one with null for the price,
which the update schema refuses. The store takes neither. -/
theorem accepted_bodies_leave_empty :
    seatService.binding.schemas.create.validate (.object [(['r', 'o', 'w'], .integer 1)]) true
        = .ok [(['r', 'o', 'w'], .integer 1)]
      ∧ seatStore.insert [(['r', 'o', 'w'], .integer 1)] = .error (.unfilled ['n'])
      ∧ seatService.binding.schemas.create.validate (.object unpriced) true = .ok unpriced
      ∧ seatStore.insert unpriced = .error (.unfilled ['p'])
      ∧ ¬ ∃ data, seatService.binding.schemas.update.validate (.object unpriced) true = .ok data :=
  ⟨rfl, rfl, rfl, rfl, nofun⟩

end Service
end TableService
