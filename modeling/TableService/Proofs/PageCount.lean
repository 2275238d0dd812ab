import Mathlib.Data.Rat.Floor
import TableService.Query.Page
import TableService.Proofs.CellOrder

/-!
# The number of pages

The number of pages is computed in binary64: the quotient of the row count and the page size is
rounded to the nearest number, and then up to an integer. Rounding a quotient first can change what
it is rounded up to, and for large counts it does. Up to 2^53 rows,

> the number of pages is **the exact quotient, rounded up**.

A quotient `n / d` lies above the integer below it by `1 / d` at least. With `n` up to 2^53 this is
more than half of the step between two numbers of its size, so that rounding never comes down to
that integer; and it never passes the integer above, which is a number itself. In one case `1 / d`
is half a step exactly, and there `n` and `d` are both even, so that the distance is `2 / d` at
least.
-/

namespace TableService

/-! ## 1. The nearest integer -/

/-- A quotient that an integer bounds is rounded to no more than it. -/
theorem divideHalfEven_le {a b c : Nat} (hb : 0 < b) (h : a ≤ c * b) : divideHalfEven a b ≤ c := by
  unfold divideHalfEven
  have hle : a / b ≤ c := Nat.div_le_of_le_mul (by rwa [Nat.mul_comm])
  split
  · exact hle
  · next htie =>
    refine Nat.lt_of_le_of_ne hle fun heq => htie (.inl ?_)
    have hmod : a % b = 0 := by
      have := Nat.div_add_mod a b
      rw [heq, Nat.mul_comm] at this
      omega
    omega

/-- A quotient that is nearer to what follows an integer is rounded to more than the integer. -/
theorem lt_divideHalfEven {a b c : Nat} (hb : 0 < b) (h : 2 * (c * b) + b < 2 * a) :
    c < divideHalfEven a b := by
  unfold divideHalfEven
  have hle : c ≤ a / b := (Nat.le_div_iff_mul_le hb).mpr (by omega)
  split
  · next htie =>
    refine Nat.lt_of_le_of_ne hle fun heq => ?_
    have hdiv := Nat.div_add_mod a b
    rw [← heq, Nat.mul_comm] at hdiv
    omega
  · omega

namespace Binary64

/-! ## 2. Values -/

theorem value_eq (m : Nat) (q : Int) : value false m q = m * (2 : ℚ) ^ q := by
  have hratio : value false m q = ((ratio m q).1 : ℚ) / (ratio m q).2 := by
    simp [value, signedRatio]
  rw [hratio, ratio]
  split
  · next hq =>
    obtain ⟨k, rfl⟩ := Int.eq_ofNat_of_zero_le hq
    simp
  · next hq =>
    obtain ⟨k, rfl⟩ : ∃ k : Nat, q = -(k : Int) := ⟨(-q).toNat, by omega⟩
    simp [div_eq_mul_inv]

theorem ceil?_finite (s : Bool) (m : Nat) (q : Int) :
    ceil? (.finite s m q) = some ⌈value s m q⌉ := by
  unfold value ceil?
  dsimp only
  rw [← Rat.floor_intCast_div_natCast, ← Int.ceil_neg]
  simp [neg_div]

/-- A carry into the exponent changes nothing of the value. -/
theorem normalize_eq {m : Nat} {q : Int} (hq : q ≤ 970) :
    ∃ m' q', normalize false m q = .finite false m' q' ∧ value false m' q' = value false m q
      ∧ (m ≠ 2 ^ 53 ∧ m' = m ∧ q' = q ∨ m = 2 ^ 53 ∧ m' = 2 ^ 52 ∧ q' = q + 1) := by
  unfold normalize
  by_cases hm : m = Nat.pow 2 53
  · refine ⟨Nat.pow 2 52, q + 1, ?_, ?_, .inr ⟨hm, rfl, rfl⟩⟩
    · simp only [hm, if_pos]
      rw [if_neg (by omega)]
    · rw [value_eq, value_eq, hm, zpow_add₀ (by norm_num)]
      norm_num
      ring
  · refine ⟨m, q, ?_, rfl, .inl ⟨hm, rfl, rfl⟩⟩
    simp only [if_neg hm]
    rw [if_neg (by omega)]

theorem unscale_neg (n d k : Nat) : unscale n d (-(k : Int)) = (n * 2 ^ k, d) := by
  unfold unscale
  cases k with
  | zero => simp
  | succ k =>
    rw [if_neg (by omega)]
    simp

theorem unscale_lt_iff {n d : Nat} (hd : 0 < d) (k : Int) :
    (unscale n d k).1 < (unscale n d k).2 ↔ (n : ℚ) / d < 2 ^ k := by
  have hd : (0 : ℚ) < d := by exact_mod_cast hd
  unfold unscale
  split
  · next hk =>
    obtain ⟨k, rfl⟩ := Int.eq_ofNat_of_zero_le hk
    rw [div_lt_iff₀ hd, mul_comm, zpow_natCast, Int.toNat_natCast]
    exact_mod_cast Iff.rfl
  · next hk =>
    obtain ⟨k, rfl⟩ : ∃ l : Nat, k = -(l : Int) := ⟨(-k).toNat, by omega⟩
    rw [zpow_neg, zpow_natCast, div_lt_iff₀ hd, ← div_eq_inv_mul, lt_div_iff₀ (by positivity),
      neg_neg, Int.toNat_natCast]
    exact_mod_cast Iff.rfl

/-- The exponent of a quotient is none too large. -/
theorem pow_exponentOf_le {n d : Nat} (hn : 0 < n) (hd : 0 < d) :
    (2 : ℚ) ^ exponentOf n d ≤ n / d := by
  have hd' : (0 : ℚ) < d := by exact_mod_cast hd
  unfold exponentOf
  dsimp only
  split
  · -- Both logarithms are rounded down, so their difference is one too large at most.
    have hlow : ((2 ^ n.log2 : Nat) : ℚ) ≤ n := by exact_mod_cast Nat.log2_self_le hn.ne'
    have hhigh : (d : ℚ) ≤ ((2 ^ (d.log2 + 1) : Nat) : ℚ) := by
      exact_mod_cast Nat.lt_log2_self.le
    rw [le_div_iff₀ hd']
    calc (2 : ℚ) ^ ((n.log2 : Int) - d.log2 - 1) * d
        ≤ (2 : ℚ) ^ ((n.log2 : Int) - d.log2 - 1) * ((2 ^ (d.log2 + 1) : Nat) : ℚ) :=
          mul_le_mul_of_nonneg_left hhigh (zpow_nonneg (by norm_num) _)
      _ = ((2 ^ n.log2 : Nat) : ℚ) := by
        push_cast
        rw [← zpow_natCast, ← zpow_natCast, ← zpow_add₀ (by norm_num)]
        congr 1
        push_cast
        ring
      _ ≤ n := hlow
  · next hlt => exact not_lt.mp (mt (unscale_lt_iff hd _).mpr hlt)

/-- A denominator is no larger than two steps of the numbers around the quotient. It is as large in
one case only. -/
theorem denominator_le {n d k e : Nat} (hn : 0 < n) (hn' : n ≤ 2 ^ 53) (hd : 0 < d)
    (hd' : d ≤ 2 ^ e) (he : e ≤ 1074) (hk : max (exponentOf n d - 52) (-1074) = -(k : Int)) :
    d < 2 * 2 ^ k ∨ d = 2 * 2 ^ k ∧ n = 2 ^ 53 := by
  rcases max_choice (exponentOf n d - 52) (-1074) with hmax | hmax
  · have hle := pow_exponentOf_le hn hd
    have hexponent : exponentOf n d = (52 : Int) - k := by omega
    have hd' : (0 : ℚ) < d := by exact_mod_cast hd
    rw [hexponent, zpow_sub₀ (by norm_num), zpow_natCast,
      div_le_div_iff₀ (pow_pos (by norm_num) k) hd'] at hle
    have hle : 2 ^ 52 * d ≤ n * 2 ^ k := by exact_mod_cast hle
    have hscaled : n * 2 ^ k ≤ 2 ^ 53 * 2 ^ k := Nat.mul_le_mul_right _ hn'
    rcases Nat.lt_or_ge d (2 * 2 ^ k) with hlt | hge
    · exact .inl hlt
    · have heq : d = 2 * 2 ^ k := by omega
      refine .inr ⟨heq, Nat.le_antisymm hn' ?_⟩
      refine Nat.le_of_mul_le_mul_right ?_ (Nat.two_pow_pos k)
      omega
  · have hdk : d ≤ 2 ^ k := hd'.trans (Nat.pow_le_pow_right Nat.two_pos (by omega))
    have := Nat.two_pow_pos k
    exact .inl (by omega)

/-- A quotient of at most 2^53, scaled and rounded, comes down to no integer below the quotient. -/
theorem lt_divideHalfEven_scaled {n d c k : Nat} (hd : 0 < d) (hc : c * d < n)
    (hbound : d < 2 * 2 ^ k ∨ d = 2 * 2 ^ k ∧ n = 2 ^ 53) :
    c * 2 ^ k < divideHalfEven (n * 2 ^ k) d := by
  refine lt_divideHalfEven hd ?_
  obtain ⟨t, ht⟩ : ∃ t, n = c * d + t := ⟨n - c * d, by omega⟩
  have hsplit : n * 2 ^ k = c * 2 ^ k * d + t * 2 ^ k := by rw [ht]; ring
  have hstep : d < 2 * (t * 2 ^ k) := by
    rcases hbound with hlt | ⟨heq, hn⟩
    · have : 2 ^ k ≤ t * 2 ^ k := Nat.le_mul_of_pos_left _ (by omega)
      omega
    · -- Both numbers are even, and so is their difference.
      have heven : 2 ≤ t := by
        have hd2 : c * d = 2 * (c * 2 ^ k) := by rw [heq]; ring
        omega
      have : 2 * 2 ^ k ≤ t * 2 ^ k := Nat.mul_le_mul_right _ heven
      have := Nat.two_pow_pos k
      omega
  omega

/-- A positive quotient lies above an integer, and not above the next. -/
theorem exists_lt_and_le {n d : Nat} (hn : 0 < n) (hd : 0 < d) :
    ∃ c, c * d < n ∧ n ≤ (c + 1) * d := by
  have hdiv := Nat.div_add_mod (n - 1) d
  have hmod := Nat.mod_lt (n - 1) hd
  refine ⟨(n - 1) / d, ?_, ?_⟩
  · rw [Nat.mul_comm]
    omega
  · rw [Nat.add_mul, Nat.one_mul, Nat.mul_comm]
    omega

/-- The next integer is what the quotient is rounded up to. -/
theorem ceil_div_eq {n d c : Nat} (hd : 0 < d) (hc : c * d < n) (hc' : n ≤ (c + 1) * d) :
    ⌈(n : ℚ) / d⌉ = (c + 1 : Nat) := by
  have hd : (0 : ℚ) < d := by exact_mod_cast hd
  rw [Int.ceil_eq_iff, lt_div_iff₀ hd, div_le_iff₀ hd]
  constructor
  · push_cast
    rw [add_sub_cancel_right]
    exact_mod_cast hc
  · exact_mod_cast hc'

/-- **Rounding before rounding up changes nothing**, for up to 2^53 rows. -/
theorem ceil_ofRatio {n d e : Nat} (hn : 0 < n) (hn' : n ≤ 2 ^ 53) (hd : 0 < d) (hd' : d ≤ 2 ^ e)
    (he : e ≤ 1074) :
    (ofRatio false n d).ceil? = some ⌈(n : ℚ) / d⌉ := by
  by_cases hlarge : 0 < max (exponentOf n d - 52) (-1074)
  · -- The quotient is 2^53 itself, and no rounding takes place.
    have hle : ((2 ^ 53 : Nat) : ℚ) ≤ n / d := by
      refine le_trans ?_ (pow_exponentOf_le hn hd)
      have hexponent : (53 : Int) ≤ exponentOf n d := by omega
      exact_mod_cast zpow_le_zpow_right₀ (by norm_num : (1 : ℚ) ≤ 2) hexponent
    rw [le_div_iff₀ (by exact_mod_cast hd)] at hle
    have hle : 2 ^ 53 * d ≤ n := by exact_mod_cast hle
    obtain rfl : d = 1 := by omega
    obtain rfl : n = 2 ^ 53 := by omega
    have hround : (ofRatio false (2 ^ 53) 1).ceil? = some (2 ^ 53) := by decide +kernel
    rw [hround]
    norm_num
  · obtain ⟨k, hk⟩ : ∃ k : Nat, max (exponentOf n d - 52) (-1074) = -(k : Int) :=
      ⟨(-max (exponentOf n d - 52) (-1074)).toNat, by omega⟩
    have hbound := denominator_le hn hn' hd hd' he hk
    have hround : ofRatio false n d
        = normalize false (divideHalfEven (n * 2 ^ k) d) (-(k : Int)) := by
      unfold ofRatio
      rw [if_neg hn.ne', hk]
      dsimp only
      rw [unscale_neg]
    obtain ⟨m, q, hnormal, hvalue, -⟩ :=
      @normalize_eq (divideHalfEven (n * 2 ^ k) d) _ (show -(k : Int) ≤ 970 by omega)
    rw [hround, hnormal, ceil?_finite, hvalue, value_eq, zpow_neg, zpow_natCast, ← div_eq_mul_inv]
    -- The integers around the quotient are those around what it is rounded to.
    obtain ⟨c, hc, hc'⟩ := exists_lt_and_le hn hd
    have hhigh : divideHalfEven (n * 2 ^ k) d ≤ (c + 1) * 2 ^ k := by
      refine divideHalfEven_le hd ?_
      calc n * 2 ^ k ≤ (c + 1) * d * 2 ^ k := Nat.mul_le_mul_right _ hc'
        _ = (c + 1) * 2 ^ k * d := by ring
    have hrounded := ceil_div_eq (Nat.two_pow_pos k) (lt_divideHalfEven_scaled hd hc hbound) hhigh
    rw [ceil_div_eq hd hc hc', ← hrounded]
    push_cast
    rfl

end Binary64

/-- **The number of pages is the quotient of the row count and the page size, rounded up.** -/
theorem PageSpec.pageCount_eq {p : PageSpec} {count e : Nat} (hcount : count ≤ 2 ^ 53)
    (hsize : 1 ≤ p.size) (hsize' : p.size ≤ 2 ^ e) (he : e ≤ 1074) :
    p.pageCount count = .ok ⌈(count : ℚ) / p.size⌉ := by
  obtain ⟨d, hd⟩ := Int.eq_ofNat_of_zero_le (show 0 ≤ p.size by omega)
  have hd' : d ≤ 2 ^ e := by
    rw [hd] at hsize'
    exact_mod_cast hsize'
  unfold pageCount
  rcases Nat.eq_zero_or_pos count with rfl | hpos
  · simp
  · rw [if_neg (by omega), hd, Int.toNat_natCast, Int.toNat_natCast,
      Binary64.ceil_ofRatio hpos hcount (by omega) hd' he]
    simp

end TableService
