import TableService.Store.Codec
import TableService.Schema.Model
import TableService.Proofs.IsoRoundTrip
import TableService.Proofs.Outcomes

/-!
# The stored form of a value

A column keeps a value in a form of its own, and reading gives that form back. For the types that
hold one kind of scalar each, the stored form is the value itself, **except that there is no cell
for NaN, no negative zero, and no offset**: NaN becomes null, `-0.0` becomes `0.0`, and a date-time
loses its offset.

The way goes through three steps, each of which could lose something: the value becomes a
parameter, the parameter a cell of the column's affinity, and the cell a value. A date is kept as
text in a column that prefers numbers, so its text has to be one that spells no number.
-/

namespace TableService

/-! ## 1. Values of a column type -/

/-- Whether a column type holds scalars of one kind. -/
def ColumnType.isPlain : ColumnType → Bool
  | .integer | .bigInteger | .string | .text | .float | .boolean | .date | .dateTime => true
  | _ => false

/-- Whether a value, not null, is one of a plain column type. -/
def ColumnType.Holds : ColumnType → Value → Prop
  | .integer, .integer _ | .bigInteger, .integer _ => True
  | .string, .text _ | .text, .text _ => True
  | .float, .real _ => True
  | .boolean, .boolean _ => True
  | .date, .date d => d.isValid = true
  | .dateTime, .moment t => t.isValid = true
  | _, _ => False

/-- The form of a value in which a column of plain type keeps it. -/
def Value.storedForm : Value → Value
  | .real .nan => .null
  | .real (.finite _ 0 q) => .real (.finite false 0 q)
  | .moment t => .moment { t with offset := none }
  | v => v

namespace Convert

/-- A value of a column type is taken for the column as it is. -/
theorem toKind_of_holds {t : ColumnType} {v : Value} (h : t.Holds v) :
    toKind t.fieldKind v = .ok v := by
  unfold ColumnType.Holds at h
  split at h
  all_goals first | rfl | exact h.elim | skip
  · simp [ColumnType.fieldKind, toKind, toDate, readDate, h, Except.map]
  · simp [ColumnType.fieldKind, toKind, toMoment, readMoment, h, Except.map]

theorem isValid_of_toDate {v : Value} {d : Date} (h : toDate v = .ok d) : d.isValid = true := by
  unfold toDate at h
  split at h
  · split at h
    · next hvalid =>
      cases h
      exact hvalid
    · cases h
  · cases h

theorem isValid_of_toMoment {v : Value} {t : DateTime} (h : toMoment v = .ok t) :
    t.isValid = true := by
  unfold toMoment at h
  split at h
  · split at h
    · next hvalid =>
      cases h
      exact hvalid
    · cases h
  · cases h

theorem text_of_toKind {v w : Value} (h : toKind .str v = .ok w) :
    (∃ t, w = .text t) ∨ ∃ s, w = .unpaired s := by
  cases v with
  | literal l =>
    cases l with
    | text t =>
      cases h
      exact .inl ⟨t, rfl⟩
    | _ => cases h
  | unpaired s =>
    cases h
    exact .inr ⟨s, rfl⟩
  | _ => cases h

/-- What is taken for a column of plain type is of that type, or a string that is no text. -/
theorem holds_of_toKind {t : ColumnType} (ht : t.isPlain = true) {v w : Value}
    (h : toKind t.fieldKind v = .ok w) : t.Holds w ∨ ∃ s, w = .unpaired s := by
  cases t with
  | integer | bigInteger =>
    have hread : (toInt v).map Value.integer = .ok w := by cases v <;> first | exact h | cases h
    obtain ⟨n, -, rfl⟩ := Outcome.map_eq_ok.mp hread
    exact .inl trivial
  | string | text =>
    rcases text_of_toKind h with ⟨t, rfl⟩ | hs
    · exact .inl trivial
    · exact .inr hs
  | float =>
    have hread : (toFloat v).map Value.real = .ok w := by cases v <;> first | exact h | cases h
    obtain ⟨x, -, rfl⟩ := Outcome.map_eq_ok.mp hread
    exact .inl trivial
  | boolean =>
    have hread : (toBool v).map Value.boolean = .ok w := by cases v <;> first | exact h | cases h
    obtain ⟨b, -, rfl⟩ := Outcome.map_eq_ok.mp hread
    exact .inl trivial
  | date =>
    have hread : (toDate v).map Value.date = .ok w := by cases v <;> first | exact h | cases h
    obtain ⟨d, hd, rfl⟩ := Outcome.map_eq_ok.mp hread
    exact .inl (isValid_of_toDate hd)
  | dateTime =>
    have hread : (toMoment v).map Value.moment = .ok w := by cases v <;> first | exact h | cases h
    obtain ⟨d, hd, rfl⟩ := Outcome.map_eq_ok.mp hread
    exact .inl (isValid_of_toMoment hd)
  | numeric | json | strings | integers | untyped | custom => cases ht

end Convert

/-! ## 2. Dates spell no number -/

/-- A text in which neither the first nor the last character is blank is trimmed already. -/
theorem Text.trim_eq_self {blank : Char → Bool} {a b : Char} {t : Text} (ha : blank a = false)
    (hb : blank b = false) : Text.trim blank (a :: t ++ [b]) = a :: t ++ [b] := by
  rw [Text.trim, List.cons_append, List.dropWhile_cons_of_neg (by simp [ha]), Text.trimEnd,
    ← List.cons_append, List.reverse_append, List.reverse_singleton, List.singleton_append,
    List.dropWhile_cons_of_neg (by simp [hb]), List.reverse_cons, List.reverse_reverse]

theorem NumberLiteral.takeDigits_append {t : Text} (h : ∀ c ∈ t, c.isDigit = true) (r : Text) :
    (takeDigits (t ++ '-' :: r)).2 = '-' :: r ∧
      ((takeDigits (t ++ '-' :: r)).1 = [] → t = []) := by
  induction t with
  | nil => exact ⟨rfl, fun _ => rfl⟩
  | cons c t ih =>
    obtain ⟨hc, ht⟩ := List.forall_mem_cons.mp h
    rw [List.cons_append, takeDigits, digitValue?_of_isDigit hc]
    exact ⟨(ih ht).1, fun hnil => by cases hnil⟩

theorem NumberLiteral.takeSign_of_isDigit {c : Char} (h : c.isDigit = true) (r : Text) :
    takeSign (c :: r) = (false, c :: r) := by
  unfold takeSign
  split
  · next heq =>
    cases heq
    exact absurd h (by decide)
  · next heq =>
    cases heq
    exact absurd h (by decide)
  · rfl

/-- A number with a hyphen behind it is no number. -/
theorem NumberLiteral.read?_hyphen {c : Char} {t : Text} (hc : c.isDigit = true)
    (ht : ∀ c ∈ t, c.isDigit = true) (r : Text) : read? (c :: t ++ '-' :: r) = none := by
  obtain ⟨hrest, hdigits⟩ := takeDigits_append (t := c :: t) (List.forall_mem_cons.mpr ⟨hc, ht⟩) r
  have hsome : (takeDigits (c :: t ++ '-' :: r)).1.isEmpty = false := by
    rw [List.isEmpty_eq_false_iff]
    exact fun hnil => absurd (hdigits hnil) (List.cons_ne_nil c t)
  rw [read?, List.cons_append, takeSign_of_isDigit hc]
  simp only [← List.cons_append, hrest, hsome, Bool.false_and]
  simp [readExponent?]

namespace Store
namespace Cell

theorem isSpace_of_isDigit {c : Char} (h : c.isDigit = true) : isSpace c = false := by
  obtain ⟨hlow, -⟩ := code_of_isDigit h
  simp only [isSpace, Bool.or_eq_false_iff, beq_eq_false_iff_ne, Bool.and_eq_false_iff,
    decide_eq_false_iff_not]
  refine ⟨?_, .inr (by omega)⟩
  rintro rfl
  exact absurd h (by decide)

/-- A text that begins with digits and a hyphen and ends with a digit spells no number. -/
theorem ofNumberText?_hyphen {c b : Char} {t : Text} (hc : c.isDigit = true)
    (ht : ∀ c ∈ t, c.isDigit = true) (s : Text) (hb : b.isDigit = true) :
    ofNumberText? (c :: t ++ '-' :: (s ++ [b])) = none := by
  have hshape : c :: t ++ '-' :: (s ++ [b]) = c :: (t ++ '-' :: s) ++ [b] := by simp
  have htrim : Text.trim isSpace (c :: t ++ '-' :: (s ++ [b])) = c :: t ++ '-' :: (s ++ [b]) := by
    rw [hshape]
    exact Text.trim_eq_self (isSpace_of_isDigit hc) (isSpace_of_isDigit hb)
  simp only [ofNumberText?, htrim, NumberLiteral.read?_hyphen hc ht, Option.map_none, ite_self]

/-- A text that begins with the year of a date and a hyphen, and ends with a padded number. -/
theorem ofNumberText?_year {year n w : Nat} (hyear : year < 10000) (hw : 0 < w) (hn : n < 10 ^ w)
    (s : Text) : ofNumberText? (padded 4 year ++ '-' :: (s ++ padded w n)) = none := by
  obtain ⟨c, t, ht⟩ := List.exists_cons_of_ne_nil (padded_ne_nil (w := 4) (by decide) hyear)
  have hdigits : ∀ x ∈ c :: t, x.isDigit = true := fun x hx => isDigit_of_mem_padded (ht ▸ hx)
  obtain ⟨hc, ht'⟩ := List.forall_mem_cons.mp hdigits
  have hend : (padded w n).dropLast ++ [(padded w n).getLast (padded_ne_nil hw hn)] = padded w n :=
    List.dropLast_concat_getLast _
  rw [ht, ← hend, ← List.append_assoc]
  exact ofNumberText?_hyphen hc ht' _ (isDigit_of_mem_padded (List.getLast_mem _))

theorem ofNumberText?_date {d : Date} (h : d.isValid = true) : ofNumberText? d.text = none := by
  obtain ⟨-, hyear, -, -, hday⟩ := Date.bounds_of_isValid h
  have hshape : d.text
      = padded 4 d.year ++ '-' :: ((padded 2 d.month ++ ['-']) ++ padded 2 d.day) := by
    simp [Date.text]
  rw [hshape]
  exact ofNumberText?_year (by omega) (by decide) (by omega) _

theorem ofNumberText?_moment {t : DateTime} (h : t.isValid = true) :
    ofNumberText? t.storeText = none := by
  obtain ⟨hdate, hclock⟩ := Bool.and_eq_true_iff.mp h
  have hyear := (Date.bounds_of_isValid hdate).2.1
  have hmicro := (DateTime.bounds_of_hasClock hclock).2.2.2
  have hshape : t.storeText = padded 4 t.date.year ++ '-' :: ((padded 2 t.date.month ++ '-'
      :: (padded 2 t.date.day ++ ' ' :: (padded 2 t.hour ++ ':' :: (padded 2 t.minute ++ ':'
        :: (padded 2 t.second ++ ['.'])))) ) ++ padded 6 t.microsecond) := by
    simp [DateTime.storeText, Date.text]
  rw [hshape]
  exact ofNumberText?_year (by omega) (by decide) hmicro _

end Cell

/-! ## 3. Writing and reading -/

namespace Codec

/-- The cell that a column stores for a value. -/
def cellFor (c : Column) (v : Value) : Except StoreFault Cell := do
  return stored c (← (← parameter c.type v).cell?)

theorem cellFor_eq_ok {c : Column} {v : Value} {x : Cell} :
    cellFor c v = .ok x ↔
      ∃ p y, parameter c.type v = .ok p ∧ p.cell? = .ok y ∧ x = stored c y := by
  unfold cellFor
  constructor
  · intro h
    obtain ⟨p, hp, h⟩ := Outcome.bind_eq_ok.mp h
    obtain ⟨y, hy, h⟩ := Outcome.bind_eq_ok.mp h
    exact ⟨p, y, hp, hy, (Except.ok.inj h).symm⟩
  · rintro ⟨p, y, hp, hy, rfl⟩
    exact Outcome.bind_eq_ok.mpr ⟨p, hp, Outcome.bind_eq_ok.mpr ⟨y, hy, rfl⟩⟩

/-- A parameter that is a cell is sent as it is, or not at all. -/
theorem eq_of_cell? {x y : Cell} (h : (Parameter.cell x).cell? = .ok y) : y = x := by
  cases x with
  | integer n =>
    rw [Parameter.cell?] at h
    split at h
    · exact (Except.ok.inj h).symm
    · cases h
  | _ => exact (Except.ok.inj h).symm

theorem cellFor_null {c : Column} (hc : c.type.isPlain = true) : cellFor c .null = .ok .null := by
  refine cellFor_eq_ok.mpr ⟨.cell .null, .null, ?_, rfl, ?_⟩
  · cases ht : c.type <;> rw [ht] at hc <;> cases hc <;> rfl
  · rw [stored]
    cases affinityOf c.type <;> rfl

/-- A text that spells no number stays a text in a column that prefers numbers. -/
theorem withAffinity_numeric {t : Text} (h : Cell.ofNumberText? t = none) :
    (Cell.text t).withAffinity .numeric = .text t := by
  rw [Cell.withAffinity, Cell.spelled, h]
  rfl

/-- A value of a plain column is read back in its stored form. -/
theorem decode_cellFor {c : Column} (hc : c.type.isPlain = true) {v : Value}
    (hv : v = .null ∨ c.type.Holds v) {x : Cell} (hx : cellFor c v = .ok x) :
    decode c.type x = .ok v.storedForm := by
  rcases hv with rfl | hv
  · rw [cellFor_null hc] at hx
    cases hx
    rfl
  · obtain ⟨p, y, hp, hy, rfl⟩ := cellFor_eq_ok.mp hx
    unfold ColumnType.Holds at hv
    split at hv
    -- Dates and moments are stored as texts in columns that prefer numbers; in the other cases
    -- the parameter is itself the cell that is stored.
    case h_1 ht | h_2 ht | h_3 ht | h_4 ht =>
      rw [ht] at hp ⊢
      cases hp
      obtain rfl := eq_of_cell? hy
      rw [stored, ht]
      rfl
    case h_5 r ht =>
      rw [ht] at hp ⊢
      cases hp
      obtain rfl := eq_of_cell? hy
      rw [stored, ht]
      cases r with
      | finite negative m q => cases m <;> rfl
      | _ => rfl
    case h_6 b ht =>
      rw [ht] at hp ⊢
      cases hp
      obtain rfl := eq_of_cell? hy
      rw [stored, ht]
      cases b <;> rfl
    case h_7 d ht =>
      rw [ht] at hp ⊢
      cases hp
      obtain rfl := eq_of_cell? hy
      have hstored : stored c (.text d.text) = .text d.text := by
        rw [stored, ht]
        exact withAffinity_numeric (Cell.ofNumberText?_date hv)
      change decode .date (stored c (.text d.text)) = .ok (.date d)
      simp only [hstored, decode, Cell.isNull, Bool.false_eq_true, if_false, decodePresent,
        Date.ofIso_text hv]
    case h_8 t ht =>
      rw [ht] at hp ⊢
      cases hp
      obtain rfl := eq_of_cell? hy
      have hstored : stored c (.text t.storeText) = .text t.storeText := by
        rw [stored, ht]
        exact withAffinity_numeric (Cell.ofNumberText?_moment hv)
      change decode .dateTime (stored c (.text t.storeText))
        = .ok (.moment { t with offset := none })
      simp only [hstored, decode, Cell.isNull, Bool.false_eq_true, if_false, decodePresent,
        DateTime.ofIso_storeText hv]
    · exact hv.elim

/-- Only null is read as null. -/
theorem eq_null_of_decode {t : ColumnType} (ht : t.isPlain = true) {x : Cell}
    (h : decode t x = .ok .null) : x = .null := by
  cases x with
  | null => rfl
  | integer n => cases t <;> cases ht <;> cases h
  | real r => cases t <;> cases ht <;> cases h
  | text s =>
    cases t <;> cases ht <;> try cases h
    all_goals
      simp only [decode, Cell.isNull, Bool.false_eq_true, if_false, decodePresent] at h
      split at h <;> cases h

end Codec
end Store

theorem ColumnType.holds_storedForm {t : ColumnType} {v : Value} (h : v = .null ∨ t.Holds v) :
    v.storedForm = .null ∨ t.Holds v.storedForm := by
  rcases h with rfl | h
  · exact .inl rfl
  unfold Holds at h
  split at h
  case h_5 r =>
    cases r with
    | nan => exact .inl rfl
    | infinite negative => exact .inr trivial
    | finite negative m q => cases m <;> exact .inr trivial
  case h_8 t =>
    refine .inr ?_
    simp only [DateTime.isValid, DateTime.hasClock, Bool.and_eq_true] at h
    simp only [Value.storedForm, Holds, DateTime.isValid, DateTime.hasClock, Bool.and_eq_true]
    exact ⟨h.1, h.2.1, trivial⟩
  · exact .inr trivial
  · exact .inr trivial
  · exact .inr trivial
  · exact .inr trivial
  · exact .inr trivial
  · exact .inr h
  · exact h.elim

/-! ## 4. What a column shows -/

theorem Value.eq_null_of_isNull {v : Value} (h : v.isNull = true) : v = .null := by
  unfold isNull at h
  split at h
  · rfl
  · cases h

namespace Convert

theorem toField_eq_ok {f : Field} {v w : Value} :
    toField f v = .ok w ↔
      (f.nullable = true ∧ v.isNull = true ∧ w = .null) ∨
        ((f.nullable && v.isNull) = false ∧ toKind f.kind v = .ok w) := by
  unfold toField
  cases hnull : f.nullable && v.isNull with
  | true =>
    obtain ⟨hf, hv⟩ := Bool.and_eq_true_iff.mp hnull
    simp [hf, hv, eq_comm]
  | false =>
    have hnot : ¬ (f.nullable = true ∧ v.isNull = true ∧ w = .null) := by
      rintro ⟨hf, hv, -⟩
      rw [hf, hv] at hnull
      cases hnull
    simp [hnot]

theorem toKind_null {t : ColumnType} (ht : t.isPlain = true) (w : Value) :
    toKind t.fieldKind .null ≠ .ok w := by
  intro h
  cases t <;> cases ht <;> cases h

/-- What a field of a plain column takes, it takes as well if it may be null. -/
theorem toField_of_nullable {c : Column} (hc : c.type.isPlain = true) {n n' q q' : Bool}
    (hn : n = true → n' = true) {v w : Value} (h : toField (Schema.fieldFor c n q) v = .ok w) :
    toField (Schema.fieldFor c n' q') v = .ok w := by
  rcases toField_eq_ok.mp h with ⟨hnull, hv, hw⟩ | ⟨-, hkind⟩
  · exact toField_eq_ok.mpr (.inl ⟨hn hnull, hv, hw⟩)
  · refine toField_eq_ok.mpr (.inr ⟨?_, hkind⟩)
    have hv : v.isNull = false := by
      rw [← Bool.not_eq_true]
      intro hv
      rw [Value.eq_null_of_isNull hv] at hkind
      exact toKind_null hc w hkind
    rw [hv, Bool.and_false]

/-- What a field of a plain column takes, it takes again as it is. -/
theorem holds_of_toField {c : Column} (hc : c.type.isPlain = true) {n q : Bool} {v w : Value}
    (h : toField (Schema.fieldFor c n q) v = .ok w) :
    (n = true ∧ w = .null) ∨ c.type.Holds w ∨ ∃ s, w = .unpaired s := by
  rcases toField_eq_ok.mp h with ⟨hnull, -, hw⟩ | ⟨-, hkind⟩
  · exact .inl ⟨hnull, hw⟩
  · exact .inr (holds_of_toKind hc hkind)

end Convert

namespace Column

/-- The value that a column shows for a cell, if it can read the cell and take what it reads. -/
def shown? (c : Column) (x : Store.Cell) : Option Value :=
  match Store.Codec.decode c.type x with
  | .error _ => none
  | .ok v => (Convert.toField (Schema.fieldFor c c.nullable true) v).toOption

/-- The value that a column shows for a cell; null if it shows none. -/
def shown (c : Column) (x : Store.Cell) : Value := (c.shown? x).getD .null

variable {c : Column} {x : Store.Cell} {w : Value}

theorem shown?_eq_some : c.shown? x = some w ↔
    ∃ v, Store.Codec.decode c.type x = .ok v ∧
      Convert.toField (Schema.fieldFor c c.nullable true) v = .ok w := by
  unfold shown?
  cases Store.Codec.decode c.type x with
  | error e => simp
  | ok v =>
    cases h : Convert.toField (Schema.fieldFor c c.nullable true) v <;> simp [Except.toOption, h]

/-- A value of the column's type is shown as it is read. So is null, unless the column has to be
filled. -/
theorem shown?_of_decode (hc : c.type.isPlain = true) (hread : Store.Codec.decode c.type x = .ok w)
    (hw : w = .null ∨ c.type.Holds w) (hfilled : c.nullable = true ∨ x ≠ .null) :
    c.shown? x = some w := by
  refine shown?_eq_some.mpr ⟨w, hread, ?_⟩
  rcases hw with rfl | hholds
  · refine Convert.toField_eq_ok.mpr (.inl ⟨?_, rfl, rfl⟩)
    exact hfilled.resolve_right fun hne => hne (Store.Codec.eq_null_of_decode hc hread)
  · have hkind := Convert.toKind_of_holds hholds
    refine Convert.toField_eq_ok.mpr (.inr ⟨?_, hkind⟩)
    have hne : w.isNull = false := by
      rw [← Bool.not_eq_true]
      intro hnull
      rw [Value.eq_null_of_isNull hnull] at hkind
      exact Convert.toKind_null hc _ hkind
    rw [hne, Bool.and_false]

end Column
end TableService
