import Mathlib.Algebra.Order.Field.Power
import TableService.Proofs.PageCount

/-!
# The number nearest to a quotient

Every rounding of a quotient is one rounding of an integer quotient, by `ofRatio`. This module says
what comes out of it:

> the number a quotient is rounded to is **a nearest one of the format**, and it has an even
> significand wherever another number is as near.

The numbers of the exponent that is chosen are the multiples of one step, and the significand is
the nearest integer to the quotient in that step. Numbers of a larger exponent are multiples of the
step as well. Those of a smaller one all lie below a power of two which is itself such a multiple
and not above the quotient, so that none of them is nearer.

With this, the number of pages is what it is said to be: the quotient, rounded to the nearest
number and then up, is the integer quotient rounded up, for up to 2^53 rows. One row more, on pages
of one row each, has no number of its own, and a page is missing.
-/

namespace TableService
namespace Binary64

/-! ## 1. The numbers of the format -/

/-- A significand and an exponent of the format. -/
def IsFormat (m : Nat) (q : Int) : Prop := m < 2 ^ 53 ∧ -1074 ≤ q ∧ q ≤ 971

/-- A significand and an exponent that make a nearest number of the format to a value. -/
structure IsNearest (v : ℚ) (m : Nat) (q : Int) : Prop where
  format : IsFormat m q
  near : ∀ s m' q', IsFormat m' q' → |value false m q - v| ≤ |value s m' q' - v|
  /-- A tie goes to the even significand. -/
  even : ∀ s m' q', IsFormat m' q' → value s m' q' ≠ value false m q →
    |value s m' q' - v| = |value false m q - v| → m % 2 = 0

theorem value_true (m : Nat) (q : Int) : value true m q = -value false m q := by
  simp [value, signedRatio, neg_div]

theorem value_le (s : Bool) (m : Nat) (q : Int) : value s m q ≤ m * (2 : ℚ) ^ q := by
  cases s with
  | false => exact (value_eq m q).le
  | true =>
    rw [value_true, value_eq]
    exact neg_le_self (by positivity)

/-- A number is a multiple of every step that is no larger than its own. -/
theorem exists_multiple (s : Bool) (m : Nat) {q k : Int} (hk : k ≤ q) :
    ∃ t : Int, value s m q = t * (2 : ℚ) ^ k := by
  obtain ⟨j, rfl⟩ : ∃ j : Nat, q = j + k := ⟨(q - k).toNat, by omega⟩
  have hvalue : value false m (j + k) = (m * 2 ^ j : Nat) * (2 : ℚ) ^ k := by
    rw [value_eq, zpow_add₀ (by norm_num), zpow_natCast]
    push_cast
    ring
  cases s with
  | false => exact ⟨(m * 2 ^ j : Nat), by rw [hvalue]; norm_cast⟩
  | true =>
    refine ⟨-(m * 2 ^ j : Nat), ?_⟩
    rw [value_true, hvalue]
    push_cast
    ring

/-- A number of a smaller step lies below the least one with all its digits of a larger. -/
theorem value_lt {s : Bool} {m : Nat} {q k : Int} (hm : m < 2 ^ 53) (hk : q < k) :
    value s m q < 2 ^ 52 * (2 : ℚ) ^ k := by
  have hm : (m : ℚ) < 2 ^ 53 := by exact_mod_cast hm
  have hstep : (2 : ℚ) ^ q ≤ 2 ^ (k - 1) := zpow_le_zpow_right₀ (by norm_num) (by omega)
  calc value s m q ≤ m * (2 : ℚ) ^ q := value_le s m q
    _ < 2 ^ 53 * (2 : ℚ) ^ q := mul_lt_mul_of_pos_right hm (by positivity)
    _ ≤ 2 ^ 53 * (2 : ℚ) ^ (k - 1) := mul_le_mul_of_nonneg_left hstep (by positivity)
    _ = 2 ^ 52 * (2 : ℚ) ^ k := by
      rw [zpow_sub₀ (by norm_num)]
      ring

/-! ## 2. The nearest integer is the nearest one -/

section

variable {a b : Nat} (hb : 0 < b)
include hb

/-- A quotient is rounded by half a step at most, and by half a step to an even integer only. -/
theorem divideHalfEven_half :
    2 * |(divideHalfEven a b : ℚ) - a / b| ≤ 1
      ∧ (2 * |(divideHalfEven a b : ℚ) - a / b| = 1 → divideHalfEven a b % 2 = 0) := by
  have hb' : (0 : ℚ) < b := by exact_mod_cast hb
  have hsplit : (a : ℚ) / b = (a / b : Nat) + ((a % b : Nat) : ℚ) / b := by
    have hdiv : (a : ℚ) = b * (a / b : Nat) + (a % b : Nat) := by
      exact_mod_cast (Nat.div_add_mod a b).symm
    rw [div_eq_iff hb'.ne', add_mul, div_mul_cancel₀ _ hb'.ne', mul_comm]
    exact hdiv
  have hrest : (0 : ℚ) ≤ ((a % b : Nat) : ℚ) / b := by positivity
  have hrest' : ((a % b : Nat) : ℚ) / b < 1 := by
    rw [div_lt_one hb']
    exact_mod_cast Nat.mod_lt a hb
  have hhalf : 2 * (((a % b : Nat) : ℚ) / b) = 1 ↔ 2 * (a % b) = b := by
    rw [← mul_div_assoc, div_eq_one_iff_eq hb'.ne']
    exact_mod_cast Iff.rfl
  have hbelow : 2 * (((a % b : Nat) : ℚ) / b) < 1 ↔ 2 * (a % b) < b := by
    rw [← mul_div_assoc, div_lt_one hb']
    exact_mod_cast Iff.rfl
  rw [hsplit]
  unfold divideHalfEven
  generalize ((a % b : Nat) : ℚ) / b = rest at *
  split
  · next hdown =>
    rw [sub_add_cancel_left, abs_neg, abs_of_nonneg hrest]
    refine ⟨?_, fun htie => ?_⟩
    · rcases hdown with hlt | ⟨heq, -⟩
      · exact (hbelow.mpr hlt).le
      · exact (hhalf.mpr heq).le
    · have := hhalf.mp htie
      omega
  · next hup =>
    push_cast
    rw [add_sub_add_left_eq_sub, abs_of_nonneg (by linarith)]
    have hup' : 1 ≤ 2 * rest := not_lt.mp fun hlt => hup (.inl (hbelow.mp hlt))
    refine ⟨by linarith, fun htie => ?_⟩
    have := hhalf.mp (by linarith)
    omega

/-- No integer is nearer. -/
theorem divideHalfEven_nearest {t : Int} (ht : t ≠ divideHalfEven a b) :
    |(divideHalfEven a b : ℚ) - a / b| ≤ |(t : ℚ) - a / b|
      ∧ (|(t : ℚ) - a / b| = |(divideHalfEven a b : ℚ) - a / b| → divideHalfEven a b % 2 = 0) := by
  have happart : 1 ≤ |(t : ℚ) - divideHalfEven a b| := by
    have : 1 ≤ |t - (divideHalfEven a b : Int)| := Int.one_le_abs (sub_ne_zero.mpr ht)
    exact_mod_cast this
  have htriangle : |(t : ℚ) - divideHalfEven a b|
      ≤ |(t : ℚ) - a / b| + |(divideHalfEven a b : ℚ) - a / b| := by
    rw [abs_sub_comm (divideHalfEven a b : ℚ)]
    exact abs_sub_le _ _ _
  obtain ⟨hnear, heven⟩ := @divideHalfEven_half a b hb
  exact ⟨by linarith, fun heq => heven (by linarith)⟩

end

/-! ## 3. Rounding a quotient -/

theorem unscale_pos {n d : Nat} (hd : 0 < d) (k : Int) : 0 < (unscale n d k).2 := by
  unfold unscale
  split
  · exact Nat.mul_pos hd (Nat.pow_pos Nat.two_pos)
  · exact hd

theorem unscale_div (n d : Nat) (k : Int) :
    ((unscale n d k).1 : ℚ) / (unscale n d k).2 = n / d / 2 ^ k := by
  unfold unscale
  split
  · next hk =>
    obtain ⟨k, rfl⟩ := Int.eq_ofNat_of_zero_le hk
    simp [div_div]
  · next hk =>
    obtain ⟨k, rfl⟩ : ∃ l : Nat, k = -(l : Int) := ⟨(-k).toNat, by omega⟩
    simp [div_eq_mul_inv, mul_right_comm]

/-- The exponent of a quotient is none too small. -/
theorem lt_pow_exponentOf (n : Nat) {d : Nat} (hd : 0 < d) :
    (n : ℚ) / d < 2 ^ (exponentOf n d + 1) := by
  have hd' : (0 : ℚ) < d := by exact_mod_cast hd
  unfold exponentOf
  dsimp only
  split
  · next hlt =>
    rw [Int.sub_add_cancel]
    exact (unscale_lt_iff hd _).mp hlt
  · have hlow : ((2 ^ d.log2 : Nat) : ℚ) ≤ d := by exact_mod_cast Nat.log2_self_le hd.ne'
    have hhigh : (n : ℚ) < ((2 ^ (n.log2 + 1) : Nat) : ℚ) := by
      exact_mod_cast Nat.lt_log2_self
    rw [div_lt_iff₀ hd']
    calc (n : ℚ) < ((2 ^ (n.log2 + 1) : Nat) : ℚ) := hhigh
      _ = (2 : ℚ) ^ ((n.log2 : Int) - d.log2 + 1) * ((2 ^ d.log2 : Nat) : ℚ) := by
        push_cast
        rw [← zpow_natCast, ← zpow_natCast, ← zpow_add₀ (by norm_num)]
        congr 1
        push_cast
        ring
      _ ≤ (2 : ℚ) ^ ((n.log2 : Int) - d.log2 + 1) * d :=
        mul_le_mul_of_nonneg_left hlow (by positivity)

/-- The integer nearest to a quotient in steps of `2 ^ k`. -/
def significand (n d : Nat) (k : Int) : Nat :=
  divideHalfEven (unscale n d k).1 (unscale n d k).2

theorem ofRatio_eq {n : Nat} (hn : 0 < n) (d : Nat) :
    ofRatio false n d = normalize false (significand n d (max (exponentOf n d - 52) (-1074)))
      (max (exponentOf n d - 52) (-1074)) := by
  unfold ofRatio significand
  rw [if_neg hn.ne']

theorem significand_le {n d c : Nat} {k : Int} (hd : 0 < d) (h : (n : ℚ) / d ≤ c * 2 ^ k) :
    significand n d k ≤ c := by
  have hb := unscale_pos (n := n) hd k
  refine divideHalfEven_le hb ?_
  have hstep : (0 : ℚ) < 2 ^ k := by positivity
  have hb' : (0 : ℚ) < (unscale n d k).2 := by exact_mod_cast hb
  rw [← div_le_iff₀ hstep, ← unscale_div, div_le_iff₀ hb'] at h
  exact_mod_cast h

/-- No other multiple of the step is nearer to the quotient. -/
theorem significand_nearest {n d : Nat} {k : Int} (hd : 0 < d) {t : Int}
    (ht : t ≠ significand n d k) :
    |value false (significand n d k) k - n / d| ≤ |(t : ℚ) * 2 ^ k - n / d|
      ∧ (|(t : ℚ) * 2 ^ k - n / d| = |value false (significand n d k) k - n / d|
          → significand n d k % 2 = 0) := by
  have hstep : (0 : ℚ) < 2 ^ k := by positivity
  have hdistance (x : ℚ) : |x * 2 ^ k - n / d|
      = |x - ((unscale n d k).1 : ℚ) / (unscale n d k).2| * 2 ^ k := by
    rw [← abs_of_pos hstep, ← abs_mul, abs_of_pos hstep, sub_mul, unscale_div,
      div_mul_cancel₀ _ hstep.ne']
  obtain ⟨hnear, heven⟩ := divideHalfEven_nearest (unscale_pos hd k) ht
  rw [value_eq, hdistance, hdistance, mul_le_mul_iff_left₀ hstep]
  exact ⟨hnear, fun htie => heven (mul_right_cancel₀ hstep.ne' htie)⟩

/-- **No number of the format is nearer** than the multiple of the step that is chosen, and one as
near leaves it an even significand. -/
theorem significand_isNearest {n d : Nat} (hn : 0 < n) (hd : 0 < d) {k : Int}
    (hk : max (exponentOf n d - 52) (-1074) = k) {s : Bool} {m : Nat} {q : Int}
    (hformat : IsFormat m q) (hother : value s m q ≠ value false (significand n d k) k) :
    |value false (significand n d k) k - n / d| ≤ |value s m q - n / d|
      ∧ (|value s m q - n / d| = |value false (significand n d k) k - n / d|
          → significand n d k % 2 = 0) := by
  obtain ⟨hm, hleast, -⟩ := hformat
  rcases le_or_gt k q with hle | hlt
  · obtain ⟨t, ht⟩ := exists_multiple s m hle
    rw [ht] at hother ⊢
    refine significand_nearest hd fun heq => hother ?_
    rw [heq, value_eq]
    norm_cast
  · -- The number lies below a multiple of the step that is not above the quotient.
    have hexponent : exponentOf n d = 52 + k := by omega
    have hpower : (2 ^ 52 : ℚ) * 2 ^ k ≤ n / d := by
      have := pow_exponentOf_le hn hd
      rwa [hexponent, zpow_add₀ (by norm_num)] at this
    have hbelow := value_lt (s := s) hm hlt
    have hfarther : |(2 ^ 52 : ℚ) * 2 ^ k - n / d| < |value s m q - n / d| := by
      rw [abs_of_nonpos (by linarith), abs_of_nonpos (by linarith)]
      linarith
    have hnear : |value false (significand n d k) k - n / d| ≤ |(2 ^ 52 : ℚ) * 2 ^ k - n / d| := by
      by_cases hsame : ((2 ^ 52 : Nat) : Int) = significand n d k
      · rw [value_eq, ← Int.cast_natCast (significand n d k), ← hsame]
        norm_cast
      · have := (significand_nearest hd hsame).1
        exact_mod_cast this
    exact ⟨hnear.trans hfarther.le, fun htie => absurd (htie ▸ hnear) hfarther.not_ge⟩

/-- **A quotient is rounded to a nearest number.** The bound keeps the number finite. -/
theorem ofRatio_nearest {n d : Nat} (hn : 0 < n) (hd : 0 < d) (hbound : exponentOf n d ≤ 1022) :
    ∃ m q, ofRatio false n d = .finite false m q ∧ IsNearest (n / d) m q := by
  rw [ofRatio_eq hn]
  generalize hk : max (exponentOf n d - 52) (-1074) = k
  have hfits : significand n d k ≤ 2 ^ 53 := by
    refine significand_le hd ((lt_pow_exponentOf n hd).le.trans ?_)
    calc (2 : ℚ) ^ (exponentOf n d + 1) ≤ 2 ^ (53 + k) :=
          zpow_le_zpow_right₀ (by norm_num) (by omega)
      _ = (2 ^ 53 : Nat) * 2 ^ k := by
        rw [zpow_add₀ (by norm_num)]
        norm_num
  have hnearest {s : Bool} {m : Nat} {q : Int} := @significand_isNearest n d hn hd k hk s m q
  obtain ⟨m, q, hnormal, hvalue, hcarry⟩ := @normalize_eq (significand n d k) k (by omega)
  refine ⟨m, q, hnormal, ⟨?_, fun s m' q' hformat => ?_, fun s m' q' hformat hother htie => ?_⟩⟩
  · unfold IsFormat
    omega
  · rw [hvalue]
    by_cases hsame : value s m' q' = value false (significand n d k) k
    · rw [hsame]
    · exact (hnearest hformat hsame).1
  · rw [hvalue] at hother htie
    have := (hnearest hformat hother).2 htie
    omega

end Binary64

/-! ## 4. The number of pages -/

namespace PageSpec

open Binary64

theorem exponentOf_le {n d : Nat} (hn : 0 < n) (hn' : n ≤ 2 ^ 53) (hd : 0 < d) :
    exponentOf n d ≤ 53 := by
  have hle : (n : ℚ) / d ≤ 2 ^ (53 : Int) := by
    have hd : (1 : ℚ) ≤ d := by exact_mod_cast hd
    exact (div_le_self (by positivity) hd).trans (by exact_mod_cast hn')
  exact (zpow_le_zpow_iff_right₀ one_lt_two).mp ((pow_exponentOf_le hn hd).trans hle)

/-- An integer quotient rounded up. -/
theorem ceil_bounds {count size : Int} (hsize : 1 ≤ size) :
    (⌈(count : ℚ) / size⌉ - 1) * size < count ∧ count ≤ ⌈(count : ℚ) / size⌉ * size := by
  have hsize : (0 : ℚ) < size := by exact_mod_cast hsize
  have hlow := Int.ceil_lt_add_one ((count : ℚ) / size)
  have hhigh := Int.le_ceil ((count : ℚ) / size)
  rw [← sub_lt_iff_lt_add, lt_div_iff₀ hsize] at hlow
  rw [div_le_iff₀ hsize] at hhigh
  exact_mod_cast And.intro hlow hhigh

/-- **The number of pages is the integer quotient rounded up**, although it is computed from the
nearest number to the quotient: for up to 2^53 rows, and page sizes up to 2^1022. -/
theorem pageCount_isCeiling {p : PageSpec} {count : Int} (hsize : 1 ≤ p.size)
    (hsize' : p.size ≤ 2 ^ 1022) (hcount : 0 ≤ count) (hcount' : count ≤ 2 ^ 53) :
    ∃ pages : Int, p.pageCount count = .ok pages
      ∧ (∀ results, ∃ fields, p.envelope results count = .ok (.object fields)
          ∧ (Text.ofString "page_count", .integer pages) ∈ fields)
      ∧ (count = 0 → pages = 0)
      ∧ (0 < count → (pages - 1) * p.size < count ∧ count ≤ pages * p.size
          ∧ ∃ m q, ofRatio false count.toNat p.size.toNat = .finite false m q
              ∧ IsNearest ((count : ℚ) / p.size) m q ∧ pages = ⌈value false m q⌉) := by
  obtain ⟨n, rfl⟩ := Int.eq_ofNat_of_zero_le hcount
  obtain ⟨d, hd⟩ := Int.eq_ofNat_of_zero_le (show 0 ≤ p.size by omega)
  have hn : n ≤ 2 ^ 53 := by exact_mod_cast hcount'
  have hpages := pageCount_eq hn hsize hsize' (by decide)
  refine ⟨_, hpages, fun results => ?_, fun hzero => ?_, fun hpos => ?_⟩
  · rw [envelope, hpages]
    exact ⟨_, rfl, by simp [Text.ofString]⟩
  · rw [Int.natCast_eq_zero.mp hzero]
    simp
  · have hd0 : 0 < d := by omega
    have hn0 : 0 < n := by omega
    have hd' : d ≤ 2 ^ 1022 := by
      rw [hd] at hsize'
      exact_mod_cast hsize'
    have hexponent := exponentOf_le hn0 hn hd0
    obtain ⟨m, q, hround, hnearest⟩ := ofRatio_nearest hn0 hd0 (by omega)
    have hceil := ceil_ofRatio hn0 hn hd0 hd' (by decide)
    rw [hround, ceil?_finite, Option.some_inj] at hceil
    have hbounds := @ceil_bounds n _ hsize
    rw [Int.cast_natCast] at hbounds
    rw [hd] at hbounds ⊢
    exact ⟨hbounds.1, hbounds.2, m, q, hround, hnearest, hceil.symm⟩

/-- The row count is the largest one, and the page size one for which the quotient is no number. -/
theorem pageCount_isCeiling_thirds :
    (1 : Int) ≤ 3 ∧ (3 : Int) ≤ 2 ^ 1022 ∧ (0 : Int) ≤ 2 ^ 53 ∧ (2 : Int) ^ 53 ≤ 2 ^ 53
      ∧ ∃ pages, (⟨true, 1, 3, false, false⟩ : PageSpec).pageCount (2 ^ 53) = .ok pages
        ∧ (pages - 1) * 3 < 2 ^ 53 ∧ 2 ^ 53 ≤ pages * 3 := by
  have hsize : (3 : Int) ≤ 2 ^ 1022 :=
    (by decide : (3 : Int) ≤ 2 ^ 2).trans (pow_le_pow_right₀ (by decide) (by decide))
  obtain ⟨pages, hpages, -, -, hbounds⟩ := @pageCount_isCeiling ⟨true, 1, 3, false, false⟩ (2 ^ 53)
    (by decide) hsize (by decide) le_rfl
  obtain ⟨hlow, hhigh, -⟩ := hbounds (by decide)
  exact ⟨by decide, hsize, by decide, le_rfl, pages, hpages, hlow, hhigh⟩

example : (⟨true, 1, 1, false, false⟩ : PageSpec).pageCount (2 ^ 53 + 1) = .ok (2 ^ 53) := by
  decide +kernel

end PageSpec
end TableService
