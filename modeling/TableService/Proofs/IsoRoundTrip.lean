import Mathlib.Algebra.Group.Nat.Defs
import Mathlib.Data.List.TakeWhile
import TableService.Time.Iso
import TableService.Number.Literal

/-!
# Dates and times are read back

The printed form of a date, and the form in which the store keeps a date-time, are read back to what
was printed. Both are made of **parts of a fixed width**: a number below `10 ^ w`, padded to `w`
digits, is `w` ASCII digits, one for each place. Each reader takes the parts it expects and stops at
the sign behind them, so its lemma says what it leaves.
-/

namespace TableService

/-! ## 1. Padded numbers -/

/-- The last place of a padded number, and the places in front of it. -/
theorem padded_succ (w n : Nat) :
    padded (w + 2) n = padded (w + 1) (n / 10) ++ [Nat.digitChar (n % 10)] := by
  have hlt : n % 10 < 10 := Nat.mod_lt n (by decide)
  rcases Nat.eq_zero_or_pos (n / 10) with hzero | hpos
  · have hn : n < 10 := by omega
    have hmod : n % 10 = n := Nat.mod_eq_of_lt hn
    simp [padded, natText, hzero, hmod, Nat.toDigits_of_lt_base hn, List.replicate_succ']
  · have hn : natText n = natText (n / 10) ++ [Nat.digitChar (n % 10)] := by
      have h := Nat.toDigits_append_toDigits (by decide : 1 < 10) hpos hlt
      rw [Nat.toDigits_of_lt_base hlt, Nat.div_add_mod] at h
      exact h.symm
    simp only [padded, hn, List.length_append, List.length_singleton]
    rw [show w + 2 - (List.length (natText (n / 10)) + 1) = w + 1 - List.length (natText (n / 10))
      by omega, List.append_assoc]

theorem padded_one {n : Nat} (h : n < 10) : padded 1 n = [Nat.digitChar n] := by
  simp [padded, natText, Nat.toDigits_of_lt_base h]

theorem padded_two {n : Nat} (h : n < 100) :
    padded 2 n = [Nat.digitChar (n / 10), Nat.digitChar (n % 10)] := by
  rw [padded_succ, padded_one (by omega)]
  rfl

/-- The last two places of a padded number, and the places in front of them. -/
theorem padded_pair (w n : Nat) :
    padded (w + 3) n = padded (w + 1) (n / 100) ++ padded 2 (n % 100) := by
  have hfront : n / 10 / 10 = n / 100 := by omega
  have htens : n / 10 % 10 = n % 100 / 10 := by omega
  have hones : n % 10 = n % 100 % 10 := by omega
  rw [padded_succ, padded_succ, hfront, htens, hones, padded_two (n := n % 100) (by omega),
    List.append_assoc]
  rfl

theorem length_padded {w n : Nat} (hw : 0 < w) (h : n < 10 ^ w) : (padded w n).length = w := by
  have hdigits : List.length (natText n) ≤ w := (Nat.length_toDigits_le_iff (by decide) hw).mpr h
  simp only [padded, List.length_append, List.length_replicate]
  omega

theorem isDigit_of_mem_padded {w n : Nat} {c : Char} (h : c ∈ padded w n) : c.isDigit = true := by
  rcases List.mem_append.mp h with h | h
  · obtain rfl := (List.mem_replicate.mp h).2
    rfl
  · exact Nat.isDigit_of_mem_toDigits (by decide) (by decide) h

/-! ## 2. Digits -/

theorem code_of_isDigit {c : Char} (h : c.isDigit = true) : 48 ≤ c.toNat ∧ c.toNat ≤ 57 := by
  simp only [Char.isDigit, ge_iff_le, Bool.and_eq_true, decide_eq_true_eq] at h
  exact ⟨h.1, h.2⟩

theorem digitValue?_of_isDigit {c : Char} (h : c.isDigit = true) :
    Text.digitValue? c = some (c.toNat - 48) := by
  obtain ⟨hlow, hhigh⟩ := code_of_isDigit h
  have hfirst : Text.zeroDigits.find?
      (fun z => decide (z ≤ c.toNat) && decide (c.toNat < z + 10)) = some 48 := by
    rw [Text.zeroDigits, List.find?_cons_of_pos]
    simp only [Bool.and_eq_true, decide_eq_true_eq]
    omega
  rw [Text.digitValue?, hfirst, Option.map_some]

theorem utf8Size_of_isDigit {c : Char} (h : c.isDigit = true) : c.utf8Size = 1 := by
  have hhigh : c.val.toNat ≤ 57 := (code_of_isDigit h).2
  rw [Char.utf8Size_eq_one_iff, UInt32.le_iff_toNat_le]
  exact Nat.le_trans hhigh (by decide)

theorem byteCount_cons (c : Char) (t : Text) : byteCount (c :: t) = c.utf8Size + byteCount t := rfl

theorem byteCount_append (s t : Text) : byteCount (s ++ t) = byteCount s + byteCount t := by
  induction s with
  | nil => exact (Nat.zero_add _).symm
  | cons c s ih => rw [List.cons_append, byteCount_cons, byteCount_cons, ih, Nat.add_assoc]

theorem byteCount_of_isDigit {t : Text} (h : ∀ c ∈ t, c.isDigit = true) :
    byteCount t = t.length := by
  induction t with
  | nil => rfl
  | cons c t ih =>
    obtain ⟨hc, ht⟩ := List.forall_mem_cons.mp h
    rw [byteCount_cons, utf8Size_of_isDigit hc, ih ht, List.length_cons, Nat.add_comm]

theorem byteCount_padded {w n : Nat} (hw : 0 < w) (h : n < 10 ^ w) :
    byteCount (padded w n) = w := by
  rw [byteCount_of_isDigit fun _ => isDigit_of_mem_padded, length_padded hw h]

theorem asciiDigit?_digitChar {d : Nat} (h : d < 10) :
    Text.asciiDigit? (Nat.digitChar d) = some d := by
  have hcode := Nat.toNat_digitChar_of_lt_ten h
  rw [Text.asciiDigit?, if_pos (by omega), hcode]
  congr 1
  omega

theorem twoDigits?_padded {n : Nat} (h : n < 100) (r : Text) :
    twoDigits? (padded 2 n ++ r) = some (n, r) := by
  rw [padded_two h]
  simp only [List.cons_append, List.nil_append, twoDigits?,
    asciiDigit?_digitChar (d := n / 10) (by omega), asciiDigit?_digitChar (d := n % 10) (by omega)]
  congr 2
  omega

theorem fourDigits?_padded {n : Nat} (h : n < 10000) (r : Text) :
    fourDigits? (padded 4 n ++ r) = some (n, r) := by
  rw [padded_pair, List.append_assoc, fourDigits?, twoDigits?_padded (by omega)]
  simp only [twoDigits?_padded (n := n % 100) (by omega), Option.map_some]
  congr 2
  omega

theorem mapM_asciiDigit?_padded : ∀ {w n : Nat}, n < 10 ^ (w + 1) →
    ∃ ds, (padded (w + 1) n).mapM Text.asciiDigit? = some ds ∧ Text.numberOf ds = n
  | 0, n, h => by
    rw [padded_one h]
    refine ⟨[n], ?_, Nat.zero_add n⟩
    rw [List.mapM_cons, asciiDigit?_digitChar h]
    rfl
  | w + 1, n, h => by
    obtain ⟨ds, hds, hn⟩ := mapM_asciiDigit?_padded (w := w) (n := n / 10) (by
      rw [Nat.pow_succ] at h
      omega)
    refine ⟨ds ++ [n % 10], ?_, ?_⟩
    · rw [padded_succ, List.mapM_append, hds, List.mapM_cons, asciiDigit?_digitChar (by omega)]
      rfl
    · rw [Text.numberOf, List.foldl_append, ← Text.numberOf, hn]
      exact Nat.div_add_mod n 10

/-! ## 3. Dates -/

namespace Date

variable {d : Date}

theorem bounds_of_isValid (h : d.isValid = true) :
    1 ≤ d.year ∧ d.year ≤ 9999 ∧ 1 ≤ d.month ∧ d.month ≤ 12 ∧ d.day ≤ 31 := by
  simp only [isValid, isInMonth, Bool.and_eq_true, decide_eq_true_eq] at h
  obtain ⟨⟨hlow, hhigh⟩, ⟨⟨hmonth, htwelve⟩, -⟩, hday⟩ := h
  have hlongest : daysIn d.year d.month ≤ 31 := by
    unfold daysIn
    repeat' split
    all_goals decide
  exact ⟨hlow, hhigh, hmonth, htwelve, Nat.le_trans hday hlongest⟩

theorem checked_of_isValid (h : d.isValid = true) : d.checked = .ok d := by
  obtain ⟨hlow, hhigh, hmonth, htwelve, -⟩ := bounds_of_isValid h
  rw [isValid, Bool.and_eq_true] at h
  rw [checked, if_neg (by omega), if_neg (by omega), if_pos h.2]

theorem month_ne_week {month : Nat} (h : month ≤ 12) (r : Text) :
    ∀ r', padded 2 month ++ r ≠ 'W' :: r' := by
  intro r' heq
  have hread := twoDigits?_padded (n := month) (by omega) r
  rw [heq] at hread
  cases r' <;> cases hread

/-- A date at the front of a text that it takes up ten characters of. -/
theorem read?_text (h : d.isValid = true) (r : Text) :
    WrittenDate.read? 10 (d.text ++ r) = some (.calendar d) := by
  obtain ⟨-, hyear, -, hmonth, hday⟩ := bounds_of_isValid h
  have hsplit : d.text ++ r
      = padded 4 d.year ++ ('-' :: (padded 2 d.month ++ ('-' :: (padded 2 d.day ++ r)))) := by
    simp [text]
  rw [hsplit, WrittenDate.read?, fourDigits?_padded (by omega)]
  have hhead := month_ne_week hmonth ('-' :: (padded 2 d.day ++ r))
  simp only [WrittenDate.readDay?, twoDigits?_padded (n := d.month) (by omega), if_true,
    Text.dropFront?, twoDigits?_padded (n := d.day) (by omega), Option.map_some]

theorem byteCount_text (h : d.isValid = true) : byteCount d.text = 10 := by
  obtain ⟨-, hyear, -, hmonth, hday⟩ := bounds_of_isValid h
  simp only [text, byteCount_append, byteCount_cons,
    byteCount_padded (w := 4) (n := d.year) (by decide) (by omega),
    byteCount_padded (w := 2) (n := d.month) (by decide) (by omega),
    byteCount_padded (w := 2) (n := d.day) (by decide) (by omega)]
  decide

theorem ofIso_text (h : d.isValid = true) : Date.ofIso d.text = .ok d := by
  have hsize := byteCount_text h
  have hread := read?_text h []
  rw [List.append_nil] at hread
  simp only [ofIso, hsize, or_true, if_true, hread, WrittenDate.date]
  exact checked_of_isValid h

theorem length_text (h : d.isValid = true) : List.length d.text = 10 := by
  obtain ⟨-, hyear, -, hmonth, hday⟩ := bounds_of_isValid h
  simp only [text, List.length_append, List.length_cons,
    length_padded (w := 4) (n := d.year) (by decide) (by omega),
    length_padded (w := 2) (n := d.month) (by decide) (by omega),
    length_padded (w := 2) (n := d.day) (by decide) (by omega)]

theorem widthIn_text (h : d.isValid = true) (r : Text) :
    WrittenDate.widthIn (d.text ++ r) = 10 := by
  obtain ⟨-, hyear, -, hmonth, -⟩ := bounds_of_isValid h
  have hdrop : (d.text ++ r).drop 4
      = '-' :: (padded 2 d.month ++ ('-' :: (padded 2 d.day ++ r))) := by
    have hlength := length_padded (w := 4) (n := d.year) (by decide) (by omega)
    simp only [text, List.append_assoc, List.cons_append]
    exact List.drop_left' hlength
  have hhead := month_ne_week hmonth ('-' :: (padded 2 d.day ++ r))
  rw [WrittenDate.widthIn, hdrop]
  simp only

end Date

/-! ## 4. Date-times -/

theorem following_colon {r : Text} (h : r ≠ []) : following true (':' :: r) = .part r := by
  simp [following, h]

theorem following_point {r : Text} (h : r ≠ []) : following true ('.' :: r) = .fraction r := by
  simp [following, h]

theorem padded_ne_nil {w n : Nat} (hw : 0 < w) (h : n < 10 ^ w) : padded w n ≠ [] := by
  intro hnil
  have := length_padded hw h
  rw [hnil] at this
  exact absurd this.symm (Nat.ne_of_gt hw)

theorem readFraction?_padded {n : Nat} (h : n < 1000000) :
    readFraction? (padded 6 n) = some (n, true) := by
  obtain ⟨ds, hds, hn⟩ := mapM_asciiDigit?_padded (w := 5) h
  have hlength : List.length (padded 6 n) = 6 := length_padded (by decide) h
  have hwidth : min 6 (List.length (padded 6 n)) = 6 := by omega
  have htake : (padded 6 n).take 6 = padded 6 n := List.take_of_length_le (Nat.le_of_eq hlength)
  have hdrop : (padded 6 n).drop 6 = [] := List.drop_of_length_le (Nat.le_of_eq hlength)
  simp only [readFraction?, hwidth, htake, hdrop, hds, hn]
  simp [atEnd]

namespace Clock

/-- How a fraction of a second is written: with all its places, or not at all where it is zero. -/
inductive IsFraction : Nat → Text → Prop where
  | nothing : IsFraction 0 []
  | places {microsecond : Nat} (h : microsecond < 1000000) :
    IsFraction microsecond ('.' :: padded 6 microsecond)

/-- A time of day, with a fraction behind it. -/
def printed (hour minute second : Nat) (fraction : Text) : Text :=
  padded 2 hour ++ (':' :: (padded 2 minute ++ (':' :: (padded 2 second ++ fraction))))

variable {hour minute second microsecond : Nat} {fraction : Text}

theorem read?_printed (hhour : hour < 100) (hminute : minute < 100) (hsecond : second < 100)
    (h : IsFraction microsecond fraction) :
    read? (printed hour minute second fraction)
      = some ⟨hour, minute, second, microsecond, true⟩ := by
  have hne : padded 2 second ++ fraction ≠ [] :=
    List.append_ne_nil_of_left_ne_nil (padded_ne_nil (by decide) hsecond) _
  rw [printed, read?, twoDigits?_padded hhour]
  simp only [List.head?_cons, beq_self_eq_true]
  rw [following_colon (by simp)]
  simp only [twoDigits?_padded hminute]
  rw [following_colon hne]
  simp only [twoDigits?_padded hsecond]
  cases h with
  | nothing => rfl
  | places hmicro =>
    rw [following_point (padded_ne_nil (by decide) hmicro)]
    simp only [readFraction?_padded hmicro, Option.map_some]

theorem of_mem_printed (h : IsFraction microsecond fraction) {c : Char}
    (hc : c ∈ printed hour minute second fraction) : c.isDigit = true ∨ c = ':' ∨ c = '.' := by
  simp only [printed, List.mem_append, List.mem_cons] at hc
  rcases hc with hc | rfl | hc | rfl | hc | hc
  · exact .inl (isDigit_of_mem_padded hc)
  · exact .inr (.inl rfl)
  · exact .inl (isDigit_of_mem_padded hc)
  · exact .inr (.inl rfl)
  · exact .inl (isDigit_of_mem_padded hc)
  · cases h with
    | nothing => exact absurd hc List.not_mem_nil
    | places _ =>
      rcases List.mem_cons.mp hc with rfl | hc
      · exact .inr (.inr rfl)
      · exact .inl (isDigit_of_mem_padded hc)

theorem isOffsetSign_of_mem_printed (h : IsFraction microsecond fraction) {c : Char}
    (hc : c ∈ printed hour minute second fraction) : isOffsetSign c = false := by
  rcases of_mem_printed h hc with hdigit | rfl | rfl
  · have hcode := code_of_isDigit hdigit
    simp only [isOffsetSign, Bool.or_eq_false_iff, beq_eq_false_iff_ne]
    refine ⟨⟨?_, ?_⟩, ?_⟩ <;> rintro rfl <;> revert hcode <;> decide
  · rfl
  · rfl

/-- A time of day goes up to the first sign of an offset. -/
theorem span_printed (hour minute second : Nat) (h : IsFraction microsecond fraction) {r : Text}
    (hr : ∀ c ∈ r.head?, isOffsetSign c = true) :
    let t := printed hour minute second fraction ++ r
    t.takeWhile (fun c => !isOffsetSign c) = printed hour minute second fraction
      ∧ t.dropWhile (fun c => !isOffsetSign c) = r := by
  have hplain : ∀ c ∈ printed hour minute second fraction, (!isOffsetSign c) = true := by
    intro c hc
    rw [isOffsetSign_of_mem_printed h hc]
    rfl
  dsimp only
  rw [List.takeWhile_append_of_pos hplain, List.dropWhile_append_of_pos hplain]
  cases r with
  | nil => exact ⟨List.append_nil _, rfl⟩
  | cons c r =>
    have hsign : ¬ (!isOffsetSign c) = true := by simp [hr c rfl]
    rw [List.takeWhile_cons_of_neg (p := fun c => !isOffsetSign c) hsign,
      List.dropWhile_cons_of_neg (p := fun c => !isOffsetSign c) hsign]
    exact ⟨List.append_nil _, rfl⟩

theorem readWithOffset?_printed (hhour : hour < 100) (hminute : minute < 100)
    (hsecond : second < 100) (h : IsFraction microsecond fraction) :
    readWithOffset? (printed hour minute second fraction)
      = some (⟨hour, minute, second, microsecond, true⟩, none) := by
  obtain ⟨htake, hdrop⟩ := span_printed hour minute second h (r := []) (by simp)
  rw [List.append_nil] at htake hdrop
  rw [readWithOffset?, htake, read?_printed hhour hminute hsecond h]
  simp only [hdrop, if_true]

end Clock

namespace DateTime

variable {t : DateTime}

/-- The time of day as the store keeps it. -/
def storeClock (t : DateTime) : Text :=
  padded 2 t.hour ++ (':' :: (padded 2 t.minute ++ (':' :: (padded 2 t.second
    ++ ('.' :: padded 6 t.microsecond)))))

theorem storeText_eq (t : DateTime) : t.storeText = t.date.text ++ (' ' :: t.storeClock) := by
  simp [storeText, storeClock]

theorem bounds_of_hasClock (h : t.hasClock = true) :
    t.hour < 24 ∧ t.minute < 60 ∧ t.second < 60 ∧ t.microsecond < 1000000 := by
  simp only [hasClock, Bool.and_eq_true, decide_eq_true_eq] at h
  exact ⟨h.1.1.1.1, h.1.1.1.2, h.1.1.2, h.1.2⟩

theorem readWithOffset?_storeClock (h : t.hasClock = true) :
    Clock.readWithOffset? t.storeClock
      = some (⟨t.hour, t.minute, t.second, t.microsecond, true⟩, none) := by
  obtain ⟨hhour, hminute, hsecond, hmicro⟩ := bounds_of_hasClock h
  exact Clock.readWithOffset?_printed (by omega) (by omega) (by omega) (.places hmicro)

/-- What the store keeps of a date-time is all of it but the offset. -/
theorem ofIso_storeText (h : t.isValid = true) :
    DateTime.ofIso t.storeText = .ok { t with offset := none } := by
  obtain ⟨hdate, hclock⟩ := Bool.and_eq_true_iff.mp h
  obtain ⟨hhour, hminute, hsecond, -⟩ := bounds_of_hasClock hclock
  have hsize : ¬ byteCount t.storeText < 7 := by
    rw [storeText_eq, byteCount_append, Date.byteCount_text hdate]
    omega
  have hdrop : (t.date.text ++ (' ' :: t.storeClock)).drop 10 = ' ' :: t.storeClock :=
    List.drop_left' (Date.length_text hdate)
  rw [ofIso, if_neg hsize, storeText_eq]
  simp only [Date.widthIn_text hdate, Date.read?_text hdate, hdrop,
    readWithOffset?_storeClock hclock]
  simp only [checked, checked.timed, WrittenDate.date, Date.checked_of_isValid hdate]
  rw [if_neg (by omega), if_neg (by omega), if_neg (by omega)]

end DateTime
end TableService
