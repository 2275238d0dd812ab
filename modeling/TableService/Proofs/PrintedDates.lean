import Mathlib.Data.List.Induction
import TableService.Filter.Predicate
import TableService.Proofs.Legibility
import TableService.Proofs.StoredForm

/-!
# Printed dates are read back

A query may write a date-time in many ways: with or without colons, with any one character in front
of the time of day, with a point or a comma and any number of places behind it, with an offset down
to its microseconds. The JSON form of a filter prints it in one way. And

> **what is printed for a date operand is read as the same operand**, a date as a date and a
> date-time as the date-time that it was.

This is not so of every date-time in its ranges. The reader takes an offset below a second for none,
but the printer would print it: half a second is printed as `+00:00:00.500000` and would be read as
`+00:00`. So the argument runs over the date-times that reading *gives*, whose offset is none or
lasts a second at least, and for these nothing is lost.
-/

namespace TableService

/-! ## 1. What reading gives -/

namespace Text

theorem asciiDigit?_lt {c : Char} {d : Nat} (h : asciiDigit? c = some d) : d < 10 := by
  unfold asciiDigit? at h
  split at h
  · cases h
    omega
  · cases h

theorem digits_of_mapM : ∀ {t : Text} {ds : List Nat}, t.mapM asciiDigit? = some ds →
    ds.length = t.length ∧ ∀ d ∈ ds, d < 10
  | [], ds, h => by
    cases h
    exact ⟨rfl, fun _ hd => absurd hd List.not_mem_nil⟩
  | c :: t, ds, h => by
    rw [List.mapM_cons] at h
    obtain ⟨d, hd, h⟩ := Option.bind_eq_some_iff.mp h
    obtain ⟨ds', hds, h⟩ := Option.bind_eq_some_iff.mp h
    cases h
    obtain ⟨hlength, hall⟩ := digits_of_mapM hds
    exact ⟨congrArg (· + 1) hlength, List.forall_mem_cons.mpr ⟨asciiDigit?_lt hd, hall⟩⟩

theorem numberOf_lt (ds : List Nat) (h : ∀ d ∈ ds, d < 10) : numberOf ds < 10 ^ ds.length := by
  induction ds using List.reverseRecOn with
  | nil => exact Nat.one_pos
  | append_singleton ds d ih =>
    obtain ⟨hds, hd⟩ := List.forall_mem_append.mp h
    have hlast := hd d List.mem_cons_self
    have hfront := ih hds
    rw [numberOf, List.foldl_append, ← numberOf, List.length_append, List.length_singleton,
      Nat.pow_succ]
    simp only [List.foldl_cons, List.foldl_nil]
    omega

end Text

/-- A fraction lies below one second, however many places it is written with. -/
theorem microsecond_of_readFraction? {r : Text} {microsecond : Nat} {complete : Bool}
    (h : readFraction? r = some (microsecond, complete)) : microsecond < 1000000 := by
  unfold readFraction? at h
  dsimp only at h
  split at h
  · cases h
  · next ds hds =>
    cases h
    obtain ⟨hlength, hdigits⟩ := Text.digits_of_mapM hds
    rw [List.length_take] at hlength
    have hwidth : ds.length = min 6 (List.length r) := by omega
    have hlt := Text.numberOf_lt ds hdigits
    rw [hwidth] at hlt
    calc Text.numberOf ds * 10 ^ (6 - min 6 (List.length r))
        < 10 ^ min 6 (List.length r) * 10 ^ (6 - min 6 (List.length r)) :=
          Nat.mul_lt_mul_of_pos_right hlt (Nat.pow_pos (by decide))
      _ = 1000000 := by rw [← Nat.pow_add, Nat.add_sub_cancel' (Nat.min_le_left _ _)]

namespace Clock

theorem microsecond_of_read? {t : Text} {c : Clock} (h : read? t = some c) :
    c.microsecond < 1000000 := by
  have hfraction : ∀ {r : Text} (f : Nat × Bool → Clock), (∀ x, (f x).microsecond = x.1) →
      (readFraction? r).map f = some c → c.microsecond < 1000000 := by
    intro r f hf hmap
    obtain ⟨⟨us, complete⟩, hread, rfl⟩ := Option.map_eq_some_iff.mp hmap
    rw [hf]
    exact microsecond_of_readFraction? hread
  -- The text may end behind each part; there is a fraction, or the microseconds are zero.
  unfold read? at h
  split at h
  · cases h
  · dsimp only at h
    split at h
    · cases h
    · cases h
      exact Nat.zero_lt_succ _
    · exact hfraction _ (fun _ => rfl) h
    · split at h
      · cases h
      · split at h
        · cases h
        · cases h
          exact Nat.zero_lt_succ _
        · exact hfraction _ (fun _ => rfl) h
        · split at h
          · cases h
          · split at h
            · cases h
            · cases h
              exact Nat.zero_lt_succ _
            · exact hfraction _ (fun _ => rfl) h
            · exact hfraction _ (fun _ => rfl) h

/-- Whether an offset is none or lasts a second at least. -/
def IsOffset (o : Int) : Prop := o = 0 ∨ 1000000 ≤ o.natAbs

theorem isOffset_offset (c : Clock) (negative : Bool) : IsOffset (c.offset negative) := by
  unfold IsOffset offset
  dsimp only
  split
  · exact .inl rfl
  · right
    split <;> omega

theorem of_readWithOffset? {t : Text} {c : Clock} {offset : Option Int}
    (h : readWithOffset? t = some (c, offset)) :
    c.microsecond < 1000000 ∧ ∀ o ∈ offset, IsOffset o := by
  unfold readWithOffset? at h
  split at h
  · cases h
  · next hc =>
    have hmicro := microsecond_of_read? hc
    split at h
    · split at h
      · cases h
        exact ⟨hmicro, fun o ho => by cases ho⟩
      · cases h
    · split at h
      · cases h
        refine ⟨hmicro, ?_⟩
        rintro o ⟨⟩
        exact .inl rfl
      · cases h
    · split at h
      · split at h
        · cases h
          refine ⟨hmicro, ?_⟩
          rintro o ⟨⟩
          exact isOffset_offset _ _
        · cases h
      · cases h

end Clock

namespace Date

theorem isValid_of_checked {d e : Date} (h : d.checked = .ok e) : e.isValid = true := by
  unfold checked at h
  split at h
  · cases h
  · next hyear =>
    split at h
    · cases h
    · split at h
      · next hmonth =>
        cases h
        rw [isValid, hmonth, Bool.and_true]
        simp only [Bool.and_eq_true, decide_eq_true_eq]
        omega
      · cases h

theorem isValid_of_date {w : WrittenDate} {d : Date} (h : w.date = .ok d) : d.isValid = true := by
  unfold WrittenDate.date at h
  split at h
  · exact isValid_of_checked h
  · split at h
    · cases h
    · split at h
      · cases h
      · split at h
        · cases h
        · exact isValid_of_checked h

theorem isValid_of_ofIso {t : Text} {d : Date} (h : ofIso t = .ok d) : d.isValid = true := by
  unfold ofIso at h
  dsimp only at h
  split at h
  · split at h
    · exact isValid_of_date h
    · cases h
  · cases h

end Date

namespace DateTime

/-- What is known of a date-time that was read. -/
structure IsReadable (t : DateTime) : Prop where
  valid : t.isValid = true
  offset : ∀ o ∈ t.offset, Clock.IsOffset o

variable {w : WrittenDate} {c : Clock} {offset : Option Int} {t : DateTime}

theorem isReadable_of_timed (h : checked.timed c w.date offset = .ok t)
    (hmicro : c.microsecond < 1000000) (hday : ∀ o ∈ offset, o.natAbs < dayLength)
    (hoffset : ∀ o ∈ offset, Clock.IsOffset o) : t.IsReadable := by
  unfold checked.timed at h
  split at h
  · cases h
  · next d hd =>
    split at h
    · cases h
    · split at h
      · cases h
      · split at h
        · cases h
        · cases h
          refine ⟨?_, hoffset⟩
          rw [isValid, Date.isValid_of_date hd, Bool.true_and, hasClock]
          cases offset with
          | none =>
            simp only [Bool.and_eq_true, decide_eq_true_eq, and_true]
            omega
          | some o =>
            have hlt := hday o rfl
            simp only [Bool.and_eq_true, decide_eq_true_eq]
            omega

theorem isReadable_of_checked (h : checked w c offset = .ok t)
    (hmicro : c.microsecond < 1000000) (hoffset : ∀ o ∈ offset, Clock.IsOffset o) :
    t.IsReadable := by
  unfold checked at h
  dsimp only at h
  split at h
  · cases h
  · split at h
    · cases h
    · next hday =>
      refine isReadable_of_timed h hmicro ?_ hoffset
      rintro o ⟨⟩
      exact Nat.not_le.mp hday
  · exact isReadable_of_timed h hmicro (fun o ho => by cases ho) hoffset

theorem isReadable_of_ofIso {s : Text} (h : ofIso s = .ok t) : t.IsReadable := by
  unfold ofIso at h
  split at h
  · cases h
  · dsimp only at h
    split at h
    · cases h
    · split at h
      · exact isReadable_of_checked h (Nat.zero_lt_succ _) (fun o ho => by cases ho)
      · split at h
        · next hread =>
          obtain ⟨hmicro, hoffset⟩ := Clock.of_readWithOffset? hread
          exact isReadable_of_checked h hmicro hoffset
        · cases h

end DateTime

/-! ## 2. Times and offsets -/

theorem isFraction_fractionText {microsecond : Nat} (h : microsecond < 1000000) :
    Clock.IsFraction microsecond (DateTime.fractionText microsecond) := by
  unfold DateTime.fractionText
  split
  · next hzero =>
    subst hzero
    exact .nothing
  · exact .places h

namespace Clock

/-- A time of day without its seconds. -/
theorem read?_minutes {hour minute : Nat} (hhour : hour < 100) (hminute : minute < 100) :
    read? (padded 2 hour ++ (':' :: padded 2 minute)) = some ⟨hour, minute, 0, 0, true⟩ := by
  have hread := twoDigits?_padded hminute []
  rw [List.append_nil] at hread
  rw [read?, twoDigits?_padded hhour]
  simp only [List.head?_cons, beq_self_eq_true]
  rw [following_colon (padded_ne_nil (by decide) hminute)]
  simp only [hread, following]

/-- The length of an offset in hours, minutes and seconds. -/
def ofOffset (o : Int) : Clock :=
  ⟨o.natAbs / 60000000 / 60, o.natAbs / 60000000 % 60, o.natAbs / 1000000 % 60,
    o.natAbs % 1000000, true⟩

/-- The sign in front of an offset. -/
def signOf (o : Int) : Char := if o < 0 then '-' else '+'

variable {o : Int}

theorem offset_ofOffset (h : IsOffset o) : (ofOffset o).offset (signOf o == '-') = o := by
  have hseconds : (ofOffset o).hour * 3600 + (ofOffset o).minute * 60 + (ofOffset o).second
      = o.natAbs / 1000000 := by
    simp only [ofOffset]
    omega
  have hsign : (signOf o == '-') = decide (o < 0) := by
    unfold signOf
    split
    · next hneg => simp [hneg]
    · next hpos => simp [hpos]
  unfold offset
  dsimp only
  rw [hseconds, hsign]
  simp only [ofOffset, decide_eq_true_eq]
  rcases h with rfl | h
  · rfl
  · rw [if_neg (by omega)]
    split <;> omega

/-- An offset is printed as a sign and its length. -/
theorem exists_offsetText (h : o.natAbs < DateTime.dayLength) :
    ∃ r, DateTime.offsetText o = signOf o :: r ∧ read? r = some (ofOffset o) ∧
      ∀ c ∈ r, c.isDigit = true ∨ c = ':' ∨ c = '.' := by
  have hhour : o.natAbs / 60000000 / 60 < 100 := by
    unfold DateTime.dayLength at h
    omega
  have hminute : o.natAbs / 60000000 % 60 < 100 := by omega
  have hsecond : o.natAbs / 1000000 % 60 < 100 := by omega
  have hfraction : IsFraction (o.natAbs % 1000000)
      (DateTime.fractionText (o.natAbs % 1000000)) := isFraction_fractionText (by omega)
  by_cases hzero : o.natAbs / 1000000 % 60 = 0 ∧ o.natAbs % 1000000 = 0
  · have hlength : (⟨o.natAbs / 60000000 / 60, o.natAbs / 60000000 % 60, 0, 0, true⟩ : Clock)
        = ofOffset o := by simp [ofOffset, hzero]
    refine ⟨_, ?_, (read?_minutes hhour hminute).trans (congrArg some hlength), ?_⟩
    · simp [DateTime.offsetText, hzero, signOf]
    · intro c hc
      rcases List.mem_append.mp hc with hc | hc
      · exact .inl (isDigit_of_mem_padded hc)
      · rcases List.mem_cons.mp hc with rfl | hc
        · exact .inr (.inl rfl)
        · exact .inl (isDigit_of_mem_padded hc)
  · refine ⟨_, ?_, read?_printed hhour hminute hsecond hfraction,
      fun c hc => of_mem_printed hfraction hc⟩
    simp [DateTime.offsetText, hzero, signOf, printed]

variable {hour minute second microsecond : Nat} {fraction : Text}

theorem readWithOffset?_append (hhour : hour < 100) (hminute : minute < 100)
    (hsecond : second < 100) (h : IsFraction microsecond fraction)
    (hday : o.natAbs < DateTime.dayLength) (hoffset : IsOffset o) :
    readWithOffset? (printed hour minute second fraction ++ DateTime.offsetText o)
      = some (⟨hour, minute, second, microsecond, true⟩, some o) := by
  obtain ⟨r, hr, hread, -⟩ := exists_offsetText hday
  have hsign : isOffsetSign (signOf o) = true ∧ signOf o ≠ 'Z' := by
    unfold signOf
    split <;> decide
  obtain ⟨htake, hdrop⟩ := span_printed hour minute second h (r := signOf o :: r) (by
    rintro c ⟨⟩
    exact hsign.1)
  rw [hr, readWithOffset?, htake, read?_printed hhour hminute hsecond h]
  simp only [hdrop]
  split
  · next heq => cases heq
  · next heq => exact absurd (List.cons.inj heq).1 hsign.2
  · next heq =>
    obtain ⟨rfl, rfl⟩ := List.cons.inj heq
    rw [hread]
    simp only [show (ofOffset o).complete = true from rfl, if_true, offset_ofOffset hoffset]

end Clock

/-! ## 3. Date-times -/

namespace DateTime

variable {t : DateTime}

/-- A date-time is printed as its date, its time of day and its offset. -/
theorem text_eq (t : DateTime) :
    t.text = t.date.text ++ ('T' :: (Clock.printed t.hour t.minute t.second
      (fractionText t.microsecond) ++ (t.offset.map offsetText).getD [])) := by
  unfold text
  cases t.offset <;> simp [clockText, Clock.printed]

theorem natAbs_lt_of_hasClock (h : t.hasClock = true) {o : Int} (ho : t.offset = some o) :
    o.natAbs < dayLength := by
  simp only [hasClock, ho, Bool.and_eq_true, decide_eq_true_eq] at h
  exact h.2

theorem checked_of_isValid (h : t.isValid = true) :
    checked (.calendar t.date) ⟨t.hour, t.minute, t.second, t.microsecond, true⟩ t.offset
      = .ok t := by
  obtain ⟨hdate, hclock⟩ := Bool.and_eq_true_iff.mp h
  obtain ⟨hhour, hminute, hsecond, -⟩ := bounds_of_hasClock hclock
  have hwritten : WrittenDate.date (.calendar t.date) = .ok t.date :=
    Date.checked_of_isValid hdate
  unfold checked
  cases ho : t.offset with
  | none =>
    simp only [hwritten, checked.timed]
    rw [if_neg (by omega), if_neg (by omega), if_neg (by omega), ← ho]
  | some o =>
    simp only [hwritten, checked.timed]
    rw [if_neg (Nat.not_le.mpr (natAbs_lt_of_hasClock hclock ho)), if_neg (by omega),
      if_neg (by omega), if_neg (by omega), ← ho]

/-- **A date-time that was read is read back from its printed form.** -/
theorem ofIso_text (h : t.IsReadable) : ofIso t.text = .ok t := by
  obtain ⟨hdate, hclock⟩ := Bool.and_eq_true_iff.mp h.valid
  obtain ⟨hhour, hminute, hsecond, hmicro⟩ := bounds_of_hasClock hclock
  have hsize : ¬ byteCount t.text < 7 := by
    rw [text_eq, byteCount_append, Date.byteCount_text hdate]
    omega
  have hread : Clock.readWithOffset? (Clock.printed t.hour t.minute t.second
        (fractionText t.microsecond) ++ (t.offset.map offsetText).getD [])
      = some (⟨t.hour, t.minute, t.second, t.microsecond, true⟩, t.offset) := by
    have hfraction := isFraction_fractionText hmicro
    cases ho : t.offset with
    | none =>
      rw [Option.map_none, Option.getD_none, List.append_nil]
      exact Clock.readWithOffset?_printed (by omega) (by omega) (by omega) hfraction
    | some o =>
      exact Clock.readWithOffset?_append (by omega) (by omega) (by omega) hfraction
        (natAbs_lt_of_hasClock hclock ho) (h.offset o ho)
  have hdrop : ∀ r, (t.date.text ++ r).drop 10 = r := fun r =>
    List.drop_left' (Date.length_text hdate)
  rw [ofIso, if_neg hsize, text_eq]
  simp only [Date.widthIn_text hdate, Date.read?_text hdate, hdrop, hread]
  exact checked_of_isValid h.valid

/-- Half a second of an offset is printed, and is not read. -/
example : ofIso (⟨⟨2024, 1, 1⟩, 0, 0, 0, 0, some 500000⟩ : DateTime).text
    = .ok ⟨⟨2024, 1, 1⟩, 0, 0, 0, 0, some 0⟩ := by decide +kernel

end DateTime

/-! ## 4. Tokens -/

/-- Whether a character may stand in a date or a time that is printed. -/
def IsDateMark (c : Char) : Prop := c.isDigit = true ∨ c ∈ ['-', ':', '.', '+', 'T']

theorem Date.isDateMark_of_mem_text {d : Date} {c : Char} (h : c ∈ d.text) : IsDateMark c := by
  simp only [text, List.mem_append, List.mem_cons] at h
  rcases h with (h | rfl | h) | rfl | h
  · exact .inl (isDigit_of_mem_padded h)
  · exact .inr (by decide)
  · exact .inl (isDigit_of_mem_padded h)
  · exact .inr (by decide)
  · exact .inl (isDigit_of_mem_padded h)

theorem DateTime.isDateMark_of_mem_text {t : DateTime} (ht : t.hasClock = true) {c : Char}
    (h : c ∈ t.text) : IsDateMark c := by
  have hclock : ∀ x : Char, x.isDigit = true ∨ x = ':' ∨ x = '.' → IsDateMark x := by
    rintro x (hx | rfl | rfl)
    · exact .inl hx
    · exact .inr (by decide)
    · exact .inr (by decide)
  obtain ⟨-, -, -, hmicro⟩ := bounds_of_hasClock ht
  rw [text_eq] at h
  rcases List.mem_append.mp h with h | h
  · exact Date.isDateMark_of_mem_text h
  · rcases List.mem_cons.mp h with rfl | h
    · exact .inr (by decide)
    · rcases List.mem_append.mp h with h | h
      · exact hclock c (Clock.of_mem_printed (isFraction_fractionText hmicro) h)
      · cases ho : t.offset with
        | none =>
          rw [ho] at h
          exact absurd h List.not_mem_nil
        | some o =>
          obtain ⟨r, hr, -, hmarks⟩ := Clock.exists_offsetText (natAbs_lt_of_hasClock ht ho)
          rw [ho, Option.map_some, Option.getD_some, hr] at h
          rcases List.mem_cons.mp h with rfl | h
          · right
            unfold Clock.signOf
            split <;> decide
          · exact hclock c (hmarks c h)

theorem IsDateMark.not_blank {c : Char} (h : IsDateMark c) : Text.isBlank c = false := by
  rcases h with h | h
  · obtain ⟨hlow, hhigh⟩ := code_of_isDigit h
    simp only [Text.isBlank, Text.isWhite, Bool.or_eq_false_iff, Bool.and_eq_false_iff,
      beq_eq_false_iff_ne, decide_eq_false_iff_not]
    omega
  · simp only [List.mem_cons, List.not_mem_nil, or_false] at h
    rcases h with rfl | rfl | rfl | rfl | rfl <;> rfl

theorem Text.strip_eq_self {t : Text} (h : ∀ c ∈ t, isBlank c = false) : strip t = t := by
  have hdrop : ∀ s : Text, (∀ c ∈ s, isBlank c = false) → s.dropWhile isBlank = s := by
    intro s hs
    cases s with
    | nil => rfl
    | cons c s => rw [List.dropWhile_cons_of_neg (by simp [hs c])]
  rw [strip, trim, trimEnd, hdrop t h, hdrop t.reverse fun c hc => h c (List.mem_reverse.mp hc),
    List.reverse_reverse]

theorem Text.isDigit_digitChar {n : Nat} (h : n < 10) : Text.isDigit (Nat.digitChar n) = true := by
  have hdigit : (Nat.digitChar n).isDigit = true :=
    isDigit_of_mem_padded (w := 1) (n := n) (by rw [padded_one h]; exact List.mem_cons_self)
  rw [isDigit, digitValue?_of_isDigit hdigit]
  rfl

theorem looksLikeDate_text {d : Date} (h : d.isValid = true) (r : Text) :
    looksLikeDate (d.text ++ r) = true := by
  obtain ⟨-, hyear, -, hmonth, hday⟩ := Date.bounds_of_isValid h
  have hfront : padded 4 d.year = padded 2 (d.year / 100) ++ padded 2 (d.year % 100) :=
    padded_pair 1 d.year
  have hdigits : ∀ n, n < 100 → Text.isDigit (Nat.digitChar (n / 10)) = true
      ∧ Text.isDigit (Nat.digitChar (n % 10)) = true := fun n hn =>
    ⟨Text.isDigit_digitChar (by omega), Text.isDigit_digitChar (by omega)⟩
  rw [Date.text, hfront, padded_two (n := d.year / 100) (by omega),
    padded_two (n := d.year % 100) (by omega), padded_two (n := d.month) (by omega),
    padded_two (n := d.day) (by omega)]
  simp only [looksLikeDate, List.cons_append, List.nil_append, List.all_cons, List.all_nil,
    hdigits (d.year / 100) (by omega), hdigits (d.year % 100) (by omega),
    hdigits d.month (by omega), hdigits d.day (by omega), Bool.and_self]

namespace Operand

theorem word?_eq_none {c : Char} (h : c.isDigit = true) (t : Text) : word? (c :: t) = none := by
  have hcode := code_of_isDigit h
  have hlower : c.toLower = c := by
    unfold Char.toLower
    rw [dif_neg]
    rintro ⟨hcapital, -⟩
    have hcapital : 65 ≤ c.toNat := hcapital
    omega
  have hletter : ∀ x : Char, 57 < x.toNat → ∀ w, Text.asciiLower (c :: t) ≠ x :: w := by
    rintro x hx w heq
    obtain ⟨rfl, -⟩ := List.cons.inj heq
    rw [hlower] at hx
    omega
  unfold word?
  dsimp only
  rw [if_neg (hletter 't' (by decide) _), if_neg (hletter 'f' (by decide) _),
    if_neg (hletter 'n' (by decide) _)]

/-- A token that begins with a date, and goes on with characters of dates and times, is neither a
word nor a number. -/
theorem read_text_append {d : Date} (h : d.isValid = true) {r : Text}
    (hr : ∀ c ∈ r, IsDateMark c) :
    read (d.text ++ r) = .ok ⟨(if (d.text ++ r).length = 10
      then (Date.read? (d.text ++ r)).map .date
      else (DateTime.read? (d.text ++ r)).map .moment).getD (.text (d.text ++ r)),
        d.text ++ r⟩ := by
  obtain ⟨-, hyear, -⟩ := Date.bounds_of_isValid h
  obtain ⟨c, t, ht⟩ :=
    List.exists_cons_of_ne_nil (padded_ne_nil (w := 4) (n := d.year) (by decide) (by omega))
  obtain ⟨hc, hdigits⟩ := List.forall_mem_cons.mp
    (show ∀ x ∈ c :: t, x.isDigit = true from fun x hx => isDigit_of_mem_padded (ht ▸ hx))
  have hstrip : Text.strip (d.text ++ r) = d.text ++ r := by
    refine Text.strip_eq_self fun x hx => ?_
    rcases List.mem_append.mp hx with hx | hx
    · exact (Date.isDateMark_of_mem_text hx).not_blank
    · exact (hr x hx).not_blank
  have hshape : d.text ++ r
      = c :: t ++ '-' :: (padded 2 d.month ++ ('-' :: (padded 2 d.day ++ r))) := by
    simp [Date.text, ht]
  have hword : word? (d.text ++ r) = none := by
    rw [hshape]
    exact word?_eq_none hc _
  have hnumber : number? (d.text ++ r) = .ok none := by
    rw [number?, hstrip, hshape, NumberLiteral.read?_hyphen hc hdigits]
  rw [read, literalOf, hword]
  simp only [hnumber, date?, hstrip, looksLikeDate_text h r, if_true]

theorem read_text_date {d : Date} (h : d.isValid = true) :
    read d.text = .ok ⟨.date d, d.text⟩ := by
  have hread := read_text_append h (r := []) fun _ hc => absurd hc List.not_mem_nil
  rw [List.append_nil, if_pos (Date.length_text h), Date.read?, Date.ofIso_text h] at hread
  exact hread

theorem read_text_moment {t : DateTime} (h : t.IsReadable) :
    read t.text = .ok ⟨.moment t, t.text⟩ := by
  obtain ⟨hdate, hclock⟩ := Bool.and_eq_true_iff.mp h.valid
  have hmarks : ∀ c ∈ t.text, IsDateMark c := fun c => DateTime.isDateMark_of_mem_text hclock
  have hnoZ : 'Z' ∉ t.text := fun hz => absurd (hmarks 'Z' hz) (by simp [IsDateMark])
  have hshape := DateTime.text_eq t
  have hlength : List.length t.text ≠ 10 := by
    rw [hshape, List.length_append, Date.length_text hdate, List.length_cons]
    omega
  have hread := read_text_append hdate fun c hc =>
    hmarks c (hshape ▸ List.mem_append_right t.date.text hc)
  rw [← hshape, if_neg hlength, DateTime.read?, Text.replaceChar_of_not_mem hnoZ,
    DateTime.ofIso_text h] at hread
  exact hread

theorem of_date? {token : Text} {l : Literal} (h : date? token = some l) :
    (∃ d, l = .date d ∧ d.isValid = true) ∨ ∃ t, l = .moment t ∧ t.IsReadable := by
  unfold date? at h
  dsimp only at h
  split at h
  · split at h
    · obtain ⟨d, hd, rfl⟩ := Option.map_eq_some_iff.mp h
      exact .inl ⟨d, rfl, Date.isValid_of_ofIso (Outcome.toOption_eq_some.mp hd)⟩
    · obtain ⟨t, ht, rfl⟩ := Option.map_eq_some_iff.mp h
      exact .inr ⟨t, rfl, DateTime.isReadable_of_ofIso (Outcome.toOption_eq_some.mp ht)⟩
  · cases h

/-- **What the JSON form prints for a date operand is a token of the same operand.** -/
theorem read_jsonOf {token : Text} {x : Operand} (h : read token = .ok x)
    (hkind : x.kind = .date) :
    ∃ t, Predicate.jsonOf x = .text t ∧ read t = .ok ⟨x.literal, t⟩ := by
  obtain ⟨l, spelled⟩ := x
  rcases literal_of_read h with hword | hnumber | hdate | htext
  · rcases kind_of_word? hword with hother | hother <;>
      exact absurd (hother.symm.trans hkind) (by decide)
  · have hother := (isNumber_of_number? hnumber).2
    rw [show Literal.kind l = .date from hkind] at hother
    exact absurd hother (by decide)
  · rcases of_date? hdate with ⟨d, rfl, hd⟩ | ⟨t, rfl, ht⟩
    · exact ⟨d.text, rfl, read_text_date hd⟩
    · exact ⟨t.text, rfl, read_text_moment ht⟩
  · cases htext
    cases hkind

/-- A leap day behind a no-break space: in basic form, with seven places behind a comma and an
offset to the quarter of a second. -/
def leapDay : Operand :=
  ⟨.moment ⟨⟨2024, 2, 29⟩, 10, 30, 45, 123456, some (-19815250000)⟩,
    Text.ofString "\u00A02024-02-29q103045,1234567-053015.25"⟩

theorem read_jsonOf_leapDay :
    read leapDay.token = .ok leapDay ∧ leapDay.kind = .date
      ∧ read (Text.ofString "2024-02-29T10:30:45.123456-05:30:15.250000")
        = .ok ⟨leapDay.literal, Text.ofString "2024-02-29T10:30:45.123456-05:30:15.250000"⟩ := by
  have hread : read leapDay.token = .ok leapDay := by decide +kernel
  have hprinted : Predicate.jsonOf leapDay
      = .text (Text.ofString "2024-02-29T10:30:45.123456-05:30:15.250000") := rfl
  obtain ⟨t, ht, hagain⟩ := read_jsonOf hread rfl
  rw [hprinted] at ht
  cases ht
  exact ⟨hread, rfl, hagain⟩

end Operand
end TableService
