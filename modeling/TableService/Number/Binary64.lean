/-!
# Binary floating-point numbers

A number of the format with 53 significant bits, as **exact integers**: a finite number is
`significand · 2 ^ exponent`, where the significand has 53 bits unless the exponent is the least
one. All rounding goes through `ofRatio`, which takes an exact quotient of naturals to the
nearest number and a tie to the even significand. So every statement about rounding is one about
integer division, and no operation depends on the machine.
-/

namespace TableService

/-- A binary64 number. Zero is `finite _ 0 (-1074)`, with its sign. -/
inductive Binary64 where
  | nan
  | infinite (negative : Bool)
  | finite (negative : Bool) (significand : Nat) (exponent : Int)
  deriving DecidableEq, Repr, Inhabited

/-- The integer nearest to a quotient; a tie goes to the even one. -/
def divideHalfEven (n d : Nat) : Nat :=
  if 2 * (n % d) < d ∨ (2 * (n % d) = d ∧ n / d % 2 = 0) then n / d else n / d + 1

namespace Binary64

/-! ## 1. Rounding a quotient -/

/-- Numerator and denominator of `n / d / 2 ^ k`. -/
def unscale (n d : Nat) (k : Int) : Nat × Nat :=
  if 0 ≤ k then (n, d * Nat.pow 2 k.toNat) else (n * Nat.pow 2 (-k).toNat, d)

/-- The greatest `e` with `2 ^ e ≤ n / d`, for a positive quotient. -/
def exponentOf (n d : Nat) : Int :=
  let e : Int := (n.log2 : Int) - (d.log2 : Int)
  let (a, b) := unscale n d e
  if a < b then e - 1 else e

/-- A significand of at most 53 bits after rounding, with its exponent. A carry to the 54th bit
moves into the exponent, and a value beyond the largest number is infinite. -/
def normalize (negative : Bool) (m : Nat) (q : Int) : Binary64 :=
  let (m, q) := if m = Nat.pow 2 53 then (Nat.pow 2 52, q + 1) else (m, q)
  if q > 971 then infinite negative else finite negative m q

/-- The number nearest to a quotient. -/
def ofRatio (negative : Bool) (n d : Nat) : Binary64 :=
  if n = 0 then finite negative 0 (-1074)
  else
    let q := max (exponentOf n d - 52) (-1074)
    let (a, b) := unscale n d q
    normalize negative (divideHalfEven a b) q

/-- How many decimal digits a natural number has. -/
def digitCount (n : Nat) : Nat := (Nat.toDigits 10 n).length

/-- The number nearest to `coefficient · 10 ^ exponent`. Powers far outside the range are decided
by the number of digits alone. -/
def ofDecimal (negative : Bool) (coefficient : Nat) (exponent : Int) : Binary64 :=
  if coefficient = 0 then finite negative 0 (-1074)
  else
    let size : Int := digitCount coefficient + exponent
    if size > 310 then infinite negative
    else if size < -330 then finite negative 0 (-1074)
    else if 0 ≤ exponent then ofRatio negative (coefficient * Nat.pow 10 exponent.toNat) 1
    else ofRatio negative coefficient (Nat.pow 10 (-exponent).toNat)

/-- The number nearest to an integer. -/
def ofInt (n : Int) : Binary64 := ofRatio (decide (n < 0)) n.natAbs 1

/-! ## 2. Bits -/

/-- The 64 bits of a number, as a natural number. -/
def toBits : Binary64 → Nat
  | nan => 0x7FF8000000000000
  | infinite s => (if s then Nat.pow 2 63 else 0) + 0x7FF0000000000000
  | finite s m q =>
    (if s then Nat.pow 2 63 else 0)
      + (if m < Nat.pow 2 52 then m else (q + 1075).toNat * Nat.pow 2 52 + (m - Nat.pow 2 52))

/-- The number with given bits. -/
def ofBits (w : Nat) : Binary64 :=
  let s : Bool := decide (w / Nat.pow 2 63 % 2 = 1)
  let field : Nat := w / Nat.pow 2 52 % Nat.pow 2 11
  let fraction : Nat := w % Nat.pow 2 52
  if field = 2047 then (if fraction = 0 then infinite s else nan)
  else if field = 0 then finite s fraction (-1074)
  else finite s (Nat.pow 2 52 + fraction) ((field : Int) - 1075)

/-! ## 3. Value and order -/

/-- Numerator and denominator of the magnitude of a finite number. -/
def ratio (m : Nat) (q : Int) : Nat × Nat :=
  if 0 ≤ q then (m * Nat.pow 2 q.toNat, 1) else (m, Nat.pow 2 (-q).toNat)

/-- Signed numerator and denominator of a finite number. -/
def signedRatio (s : Bool) (m : Nat) (q : Int) : Int × Nat :=
  let (n, d) := ratio m q
  (if s then -(n : Int) else n, d)

/-- The integer a number is equal to, if there is one. -/
def toInt? : Binary64 → Option Int
  | finite s m q =>
    let (n, d) := signedRatio s m q
    if n % (d : Int) = 0 then some (n / (d : Int)) else none
  | _ => none

/-- The least integer not below a finite number. -/
def ceil? : Binary64 → Option Int
  | finite s m q =>
    let (n, d) := signedRatio s m q
    some (-((-n) / (d : Int)))
  | _ => none

/-- Whether a number is neither infinite nor a NaN. -/
def isFinite : Binary64 → Bool
  | finite .. => true
  | _ => false

/-- Order of two numbers by value; the two zeros are equal. NaN is put first so that the order is
total. -/
def compareValue : Binary64 → Binary64 → Ordering
  | nan, nan => .eq
  | nan, _ => .lt
  | _, nan => .gt
  | infinite s, infinite t => if s = t then .eq else if s then .lt else .gt
  | infinite s, finite .. => if s then .lt else .gt
  | finite .., infinite t => if t then .gt else .lt
  | finite s m q, finite t n r =>
    let (a, b) := signedRatio s m q
    let (c, d) := signedRatio t n r
    compare (a * d) (c * b)

/-- Order of an integer and a number by value. -/
def compareInt (k : Int) : Binary64 → Ordering
  | nan => .gt
  | infinite s => if s then .gt else .lt
  | finite s m q =>
    let (a, b) := signedRatio s m q
    compare (k * b) a

end Binary64
end TableService
