import Mathlib.Data.List.Infix
import Mathlib.Data.List.TakeWhile
import TableService.Resource.Search

/-!
# What a search pattern matches

A search looks for a text by a pattern, and a pattern has a language of its own: `%` stands for any
text, `_` for any character, and a backslash takes their meaning away. The text that is looked for
is put into the pattern with a backslash in front of each of the three. That this is enough is

> a text matches the pattern of a query **exactly if it contains the query**, in either case.

The pattern is read first: the escaped query gives its own characters back, whatever follows it
(`read_escape`). What is left to match is a run of characters between two `%`. The first `%` leaves
any end of the text (`accepts_anyText_iff`, by induction on the text, which is where the matcher
goes back), the run takes its own letters off the front of it (`accepts_exactly_iff`, by induction
on the run), and the second `%` takes the rest.
-/

namespace TableService

/-! ## 1. Reading an escaped text -/

namespace SearchBackend

open Store

/-- A character that needs no backslash stands for itself. -/
theorem part_of_not_isSpecial {c : Char} (h : isSpecial c = false) :
    Pattern.part c = .exactly c := by
  simp only [isSpecial, Bool.or_eq_false_iff, beq_eq_false_iff_ne] at h
  rw [Pattern.part, if_neg h.1.2, if_neg h.2]

theorem read_cons_of_ne {c : Char} (h : c ≠ '\\') (r : Text) :
    Pattern.read (some '\\') (c :: r)
      = (Pattern.read (some '\\') r).map (Pattern.part c :: ·) := by
  rw [Pattern.read.eq_def]
  exact if_neg (by simpa using h)

/-- **An escaped text is read as its own characters.** -/
theorem read_escape (q rest : Text) :
    Pattern.read (some '\\') (escape q ++ rest)
      = (Pattern.read (some '\\') rest).map (q.map .exactly ++ ·) := by
  induction q with
  | nil =>
    show Pattern.read (some '\\') rest = _
    cases Pattern.read (some '\\') rest <;> rfl
  | cons c q ih =>
    have hcons : Pattern.read (some '\\') (escape (c :: q) ++ rest)
        = (Pattern.read (some '\\') (escape q ++ rest)).map (.exactly c :: ·) := by
      unfold escape
      rw [List.flatMap_cons]
      cases hc : isSpecial c with
      | true => rfl
      | false =>
        have hplain : c ≠ '\\' := by
          rintro rfl
          exact absurd hc (by decide)
        show Pattern.read (some '\\') (c :: _) = _
        rw [read_cons_of_ne hplain, part_of_not_isSpecial hc]
        rfl
    rw [hcons, ih, Option.map_map]
    rfl

theorem read_containing (q : Text) :
    Pattern.read (some '\\') (containing q)
      = some (.anyText :: (q.map .exactly ++ [.anyText])) := by
  show Pattern.read (some '\\') ('%' :: (escape q ++ ['%'])) = _
  rw [read_cons_of_ne (by decide), read_escape]
  rfl

/-- A query without a NUL has a pattern without one. -/
theorem not_mem_containing {q : Text} (h : '\x00' ∉ q) : '\x00' ∉ containing q := by
  simp only [containing, escape, List.cons_append, List.mem_cons, List.mem_append, List.mem_flatMap,
    not_or, not_exists, not_and]
  refine ⟨by decide, fun c hc hmem => ?_, by decide⟩
  have hne : '\x00' ≠ c := fun heq => h (heq ▸ hc)
  split at hmem
  · rcases List.mem_cons.mp hmem with heq | hmem
    · exact absurd heq (by decide)
    · exact hne (List.mem_singleton.mp hmem)
  · exact hne (List.mem_singleton.mp hmem)

end SearchBackend

namespace Store
namespace Pattern

/-! ## 2. Matching the parts -/

theorem visible_eq_self {t : Text} (h : '\x00' ∉ t) : visible t = t :=
  List.takeWhile_eq_self_iff.mpr fun _ hc => bne_iff_ne.mpr fun heq => h (heq ▸ hc)

/-- What stands for any text leaves any end of the text to the rest. -/
theorem accepts_anyText_iff {ps : List PatternPart} {t : Text} :
    accepts (.anyText :: ps) t = true ↔ ∃ s, s <:+ t ∧ accepts ps s = true := by
  induction t with
  | nil => simp [accepts]
  | cons c t ih =>
    rw [accepts, Bool.or_eq_true, ih]
    constructor
    · rintro (h | ⟨s, hs, h⟩)
      · exact ⟨c :: t, List.suffix_refl _, h⟩
      · exact ⟨s, hs.trans (List.suffix_cons c t), h⟩
    · rintro ⟨s, hs, h⟩
      rcases List.suffix_cons_iff.mp hs with rfl | hs
      · exact .inl h
      · exact .inr ⟨s, hs, h⟩

theorem accepts_anyText (t : Text) : accepts [.anyText] t = true :=
  accepts_anyText_iff.mpr ⟨[], List.nil_suffix, by rw [accepts, List.isEmpty_nil]⟩

/-- A run of characters takes its letters off the front of the text. -/
theorem accepts_exactly_iff {q t : Text} {ps : List PatternPart} :
    accepts (q.map .exactly ++ ps) t = true ↔
      ∃ u s, t = u ++ s ∧ Text.asciiLower u = Text.asciiLower q ∧ accepts ps s = true := by
  induction q generalizing t with
  | nil =>
    constructor
    · intro h
      exact ⟨[], t, rfl, rfl, h⟩
    · rintro ⟨u, s, rfl, hu, h⟩
      obtain rfl := List.map_eq_nil_iff.mp hu
      exact h
  | cons c q ih =>
    cases t with
    | nil =>
      simp only [List.map_cons, List.cons_append, accepts, Bool.false_eq_true, false_iff]
      rintro ⟨u, s, hnil, hu, -⟩
      obtain ⟨rfl, -⟩ := List.append_eq_nil_iff.mp hnil.symm
      cases hu
    | cons d t =>
      rw [List.map_cons, List.cons_append, accepts, Bool.and_eq_true, ih, sameLetter, beq_iff_eq]
      constructor
      · rintro ⟨hletter, u, s, rfl, hu, h⟩
        refine ⟨d :: u, s, rfl, ?_, h⟩
        exact congrArg₂ List.cons hletter.symm hu
      · rintro ⟨u, s, hcut, hu, h⟩
        cases u with
        | nil => cases hu
        | cons e u =>
          obtain ⟨rfl, rfl⟩ := List.cons_eq_cons.mp hcut
          obtain ⟨hletter, hu⟩ := List.cons_eq_cons.mp hu
          exact ⟨hletter.symm, u, s, rfl, hu, h⟩

/-- A text contains another up to case exactly if one of its ends begins with it. -/
theorem infix_asciiLower_iff {q t : Text} :
    Text.asciiLower q <:+: Text.asciiLower t ↔
      ∃ s, s <:+ t ∧ ∃ u r, s = u ++ r ∧ Text.asciiLower u = Text.asciiLower q := by
  constructor
  · rintro ⟨front, back, h⟩
    obtain ⟨a, b, rfl, ha, -⟩ := List.append_eq_map_iff.mp h
    obtain ⟨a', u, rfl, -, hu⟩ := List.append_eq_map_iff.mp ha.symm
    exact ⟨u ++ b, ⟨a', (List.append_assoc _ _ _).symm⟩, u, b, rfl, hu⟩
  · rintro ⟨s, ⟨a, rfl⟩, u, r, rfl, hu⟩
    refine ⟨Text.asciiLower a, Text.asciiLower r, ?_⟩
    rw [← hu]
    simp [Text.asciiLower]

/-! ## 3. The pattern of a query -/

/-- **A text matches the pattern of a query exactly if it contains the query**, letters of the ASCII
alphabet in either case. -/
theorem like_containing_iff {q t : Text} (hq : '\x00' ∉ q) (ht : '\x00' ∉ t) :
    like (some '\\') (SearchBackend.containing q) t = true ↔
      Text.asciiLower q <:+: Text.asciiLower t := by
  rw [like, visible_eq_self (SearchBackend.not_mem_containing hq), visible_eq_self ht,
    SearchBackend.read_containing, infix_asciiLower_iff]
  dsimp only
  simp only [accepts_anyText_iff, accepts_exactly_iff, accepts_anyText, and_true]

/-- A capital becomes a small letter, and every other character stays what it is. -/
theorem toLower_cases (d : Char) :
    d.toLower = d ∨ 97 ≤ d.toLower.toNat ∧ d.toLower.toNat ≤ 122 := by
  unfold Char.toLower
  split
  · next hcapital =>
    have hlow : 65 ≤ d.val.toNat := hcapital.1
    have hhigh : d.val.toNat ≤ 90 := hcapital.2
    have hmoved : (d.val + ('a'.val - 'A'.val)).toNat = d.val.toNat + 32 := by
      rw [UInt32.toNat_add]
      exact Nat.mod_eq_of_lt (show d.val.toNat + 32 < 2 ^ 32 by omega)
    simp only [Char.toNat, hmoved]
    omega
  · exact .inl rfl

/-- **The characters with a meaning in patterns match only themselves.** -/
theorem toLower_eq_of_isSpecial {c d : Char} (hc : SearchBackend.isSpecial c = true) :
    d.toLower = c.toLower ↔ d = c := by
  have hfixed : c.toLower = c ∧ (c.toNat < 97 ∨ 122 < c.toNat) := by
    simp only [SearchBackend.isSpecial, Bool.or_eq_true, beq_iff_eq] at hc
    rcases hc with (rfl | rfl) | rfl <;> decide
  rw [hfixed.1]
  constructor
  · intro h
    rcases toLower_cases d with hsame | hsmall
    · rw [← hsame, h]
    · rw [h] at hsmall
      omega
  · rintro rfl
    exact hfixed.1

end Pattern
end Store
end TableService
