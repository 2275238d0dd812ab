import Mathlib.Data.List.TakeWhile
import TableService.Proofs.Separators
import TableService.Proofs.ValueFaults

/-!
# What a number is written with

A number literal has digits, signs and the letter of an exponent in it, and **one point at most**.
So a token that is a number, white space around it aside, has neither a sign of the query language
in it nor one of its separators. The rule that asks for a number first takes nothing away from the
rules behind it.
-/

namespace TableService

/-! ## 1. Literals -/

namespace NumberLiteral

/-- The characters of a literal without its point. -/
def IsMark (c : Char) : Prop := c ∈ ['+', '-', 'e', 'E'] ∨ Text.isDigit c = true

theorem isMark_of_mem_sign {sign : Text} (h : sign ∈ [[], ['+'], ['-']]) :
    ∀ c ∈ sign, IsMark c := by
  simp only [List.mem_cons, List.not_mem_nil, or_false] at h
  rcases h with rfl | rfl | rfl <;> simp [IsMark]

theorem isMark_of_readExponent? {t : Text} {e : Option Int} (h : readExponent? t = some e) :
    ∀ c ∈ t, IsMark c := by
  unfold readExponent? at h
  split at h
  · simp
  · next c r =>
    split at h
    · next hc =>
      obtain ⟨sign, hsign, hr⟩ := exists_sign r
      obtain ⟨digits, hdigits, hall, -⟩ := exists_digits (takeSign r).2
      -- Nothing may follow the digits of an exponent.
      have hend : (takeDigits (takeSign r).2).2 = [] := by
        dsimp only at h
        split at h
        · cases h
        · next hd => rw [hd]
        · cases h
      rw [hend, List.append_nil] at hdigits
      rw [hr, hdigits]
      intro d hd
      rcases List.mem_cons.mp hd with rfl | hd
      · rcases hc with rfl | rfl <;> simp [IsMark]
      · rcases List.mem_append.mp hd with hd | hd
        · exact isMark_of_mem_sign hsign d hd
        · exact .inr (hall d hd)
    · cases h

/-- **A literal is marks, with one point among them at most.** -/
theorem exists_of_read? {t : Text} {x : NumberLiteral} (h : read? t = some x) :
    ∃ front back, (t = front ++ back ∨ t = front ++ '.' :: back) ∧
      ∀ c ∈ front ++ back, IsMark c := by
  obtain ⟨sign, hsign, ht⟩ := exists_sign t
  obtain ⟨digits, hr, hdigits, -⟩ := exists_digits (takeSign t).2
  have hfront : ∀ c ∈ sign ++ digits, IsMark c := by
    intro c hc
    rcases List.mem_append.mp hc with hc | hc
    · exact isMark_of_mem_sign hsign c hc
    · exact .inr (hdigits c hc)
  unfold read? at h
  dsimp only at h
  split at h
  · next rest hpoint =>
    split at h
    · cases h
    · obtain ⟨e, he, -⟩ := Option.map_eq_some_iff.mp h
      obtain ⟨more, hmore, hmarks, -⟩ := exists_digits rest
      refine ⟨sign ++ digits, rest, .inr ?_, ?_⟩
      · rw [List.append_assoc, ← hpoint, ← hr]
        exact ht
      · rw [hmore]
        intro c hc
        rcases List.mem_append.mp hc with hc | hc
        · exact hfront c hc
        · rcases List.mem_append.mp hc with hc | hc
          · exact .inr (hmarks c hc)
          · exact isMark_of_readExponent? he c hc
  · split at h
    · cases h
    · obtain ⟨e, he, -⟩ := Option.map_eq_some_iff.mp h
      refine ⟨sign ++ digits, (takeDigits (takeSign t).2).2, .inl ?_, ?_⟩
      · rw [List.append_assoc, ← hr]
        exact ht
      · intro c hc
        rcases List.mem_append.mp hc with hc | hc
        · exact hfront c hc
        · exact isMark_of_readExponent? he c hc

theorem point_not_isMark : ¬ IsMark '.' := by
  rintro (h | h)
  · exact absurd h (by decide)
  · exact absurd h (by decide)

end NumberLiteral

/-! ## 2. Tokens -/

namespace Text

/-- Nothing but white space is stripped. -/
theorem exists_strip (t : Text) : ∃ front back, t = front ++ (strip t ++ back) ∧
    (∀ c ∈ front, isBlank c = true) ∧ ∀ c ∈ back, isBlank c = true := by
  refine ⟨t.takeWhile isBlank, ((t.dropWhile isBlank).reverse.takeWhile isBlank).reverse,
    ?_, ?_, ?_⟩
  · have hend : strip t ++ ((t.dropWhile isBlank).reverse.takeWhile isBlank).reverse
        = t.dropWhile isBlank := by
      rw [strip, trim, trimEnd, ← List.reverse_append, List.takeWhile_append_dropWhile,
        List.reverse_reverse]
    rw [hend, List.takeWhile_append_dropWhile]
  · intro c hc
    exact List.mem_takeWhile_imp hc
  · intro c hc
    exact List.mem_takeWhile_imp (List.mem_reverse.mp hc)

theorem two_le_count_of_hasPair {a : Char} : ∀ {t : Text}, hasPair a a t = true → 2 ≤ t.count a
  | [], h => by simp [hasPair] at h
  | [_], h => by simp [hasPair] at h
  | c :: d :: t, h => by
    rw [hasPair, Bool.or_eq_true] at h
    rcases h with h | h
    · obtain ⟨rfl, rfl⟩ : c = a ∧ d = a := by simpa using h
      simp
    · have ih := two_le_count_of_hasPair h
      have hle := (List.sublist_cons_self c (d :: t)).count_le a
      omega

end Text

/-- A number has at most one point, and marks and white space besides. -/
theorem exists_of_isNumber {token : Text} (h : isNumber token = true) :
    ∃ front back, (token = front ++ back ∨ token = front ++ '.' :: back) ∧
      ∀ c ∈ front ++ back, NumberLiteral.IsMark c ∨ Text.isBlank c = true := by
  obtain ⟨x, hx⟩ := Option.isSome_iff_exists.mp h
  obtain ⟨front, back, hstrip, hmarks⟩ := NumberLiteral.exists_of_read? hx
  obtain ⟨before, after, htoken, hbefore, hafter⟩ := Text.exists_strip token
  refine ⟨before ++ front, back ++ after, ?_, ?_⟩
  · rcases hstrip with hstrip | hstrip
    · exact .inl (by rw [hstrip] at htoken; simpa using htoken)
    · exact .inr (by rw [hstrip] at htoken; simpa using htoken)
  · intro c hc
    simp only [List.mem_append] at hc
    rcases hc with (hc | hc) | hc | hc
    · exact .inr (hbefore c hc)
    · exact .inl (hmarks c (List.mem_append_left _ hc))
    · exact .inl (hmarks c (List.mem_append_right _ hc))
    · exact .inr (hafter c hc)

/-- The signs and the separator that stand in no number. -/
def signs : List Char := ['!', '<', '>', '=', '~', '@', ',']

theorem not_isMark_of_mem_signs {c : Char} (h : c ∈ signs) :
    ¬ (NumberLiteral.IsMark c ∨ Text.isBlank c = true) := by
  have hplain : c ∉ ['+', '-', 'e', 'E'] ∧ Text.isDigit c = false ∧ Text.isBlank c = false := by
    simp only [signs, List.mem_cons, List.not_mem_nil, or_false] at h
    rcases h with rfl | rfl | rfl | rfl | rfl | rfl | rfl
    all_goals decide
  obtain ⟨hmark, hdigit, hblank⟩ := hplain
  rintro ((h | h) | h)
  · exact hmark h
  · rw [hdigit] at h
    cases h
  · rw [hblank] at h
    cases h

/-- **No number has a sign of the query language in it.** -/
theorem isNumber_of_mem_signs {token : Text} {c : Char} (hc : c ∈ token) (h : c ∈ signs) :
    isNumber token = false := by
  rw [Bool.eq_false_iff]
  intro hnumber
  obtain ⟨front, back, htoken, hmarks⟩ := exists_of_isNumber hnumber
  have hpoint : c ≠ '.' := by
    rintro rfl
    exact absurd h (by decide)
  have hmem : c ∈ front ++ back := by
    rcases htoken with rfl | rfl
    · exact hc
    · simpa [hpoint] using hc
  exact not_isMark_of_mem_signs h (hmarks c hmem)

/-- **No number has two points next to each other.** -/
theorem isNumber_of_hasPair {token : Text} (h : Text.hasPair '.' '.' token = true) :
    isNumber token = false := by
  rw [Bool.eq_false_iff]
  intro hnumber
  obtain ⟨front, back, htoken, hmarks⟩ := exists_of_isNumber hnumber
  have hpoint : '.' ∉ front ++ back := by
    intro hmem
    rcases hmarks '.' hmem with h | h
    · exact NumberLiteral.point_not_isMark h
    · exact absurd h (by decide)
  have hnone : (front ++ back).count '.' = 0 := List.count_eq_zero.mpr hpoint
  rw [List.count_append] at hnone
  have htwo := Text.two_le_count_of_hasPair h
  rcases htoken with rfl | rfl
  · rw [List.count_append] at htwo
    omega
  · rw [List.count_append, List.count_cons_self] at htwo
    omega

end TableService
