import TableService.Number.Shortest
import TableService.Number.Literal

/-!
# Decimal numbers

A decimal keeps the digits it was written with: `1.50` and `1.5` are equal in value and different
as decimals. Its text is positional where the exponent is not positive and not too small, and
scientific with a capital `E` elsewhere. **Exponents have bounds**, and a decimal beyond them
cannot be written (`Decimal.isWithinBounds`).
-/

namespace TableService

/-- An infinity, or the number `± coefficient · 10 ^ exponent`, digits kept as written. -/
inductive Decimal where
  | infinite (negative : Bool)
  | finite (negative : Bool) (coefficient : Nat) (exponent : Int)
  deriving DecidableEq, Repr, Inhabited

namespace Decimal

/-! ## 1. Text -/

/-- The text of digits with an exponent. -/
def digitsText (digits : Text) (exponent : Int) : Text :=
  let place : Int := digits.length + exponent
  if exponent ≤ 0 ∧ -6 < place then
    if exponent = 0 then digits
    else if place ≤ 0 then '0' :: '.' :: List.replicate (-place).toNat '0' ++ digits
    else digits.take place.toNat ++ '.' :: digits.drop place.toNat
  else
    let fraction := digits.drop 1
    let e := place - 1
    digits.take 1 ++ (if fraction.isEmpty then [] else '.' :: fraction)
      ++ 'E' :: (if e < 0 then '-' else '+') :: natText e.natAbs

/-- The text of a decimal. -/
def text : Decimal → Text
  | infinite s => Binary64.signed s (Text.ofString "Infinity")
  | finite s c e => Binary64.signed s (digitsText (natText c) e)

/-! ## 2. Making decimals -/

/-- The decimal of a number literal. -/
def ofLiteral (x : NumberLiteral) : Decimal :=
  let fraction := x.fraction.getD []
  finite x.negative (Text.numberOf (x.whole ++ fraction)) (x.exponent.getD 0 - fraction.length)

/-- The decimal of an integer. -/
def ofInt (n : Int) : Decimal := finite (decide (n < 0)) n.natAbs 0

/-- The decimal with two places that is nearest to a number; a tie goes to the even one. -/
def twoPlaces? : Binary64 → Option Decimal
  | .nan => none
  | .infinite s => some (infinite s)
  | .finite s m q =>
    let (n, d) := Binary64.ratio m q
    some (finite s (divideHalfEven (n * 100) d) (-2))

/-- The largest exponent that the first digit of a decimal may have. -/
def maxExponent : Int := 999999999999999999

/-- The least exponent that the last digit of a decimal may have. -/
def minExponent : Int := -1999999999999999997

/-- Whether the exponent of a decimal is within its bounds. -/
def isWithinBounds : Decimal → Bool
  | infinite _ => true
  | finite _ c e =>
    decide (minExponent ≤ e) && decide (e + (Binary64.digitCount c : Int) - 1 ≤ maxExponent)

/-! ## 3. Value -/

/-- The binary64 number nearest to a decimal. -/
def toBinary64 : Decimal → Binary64
  | infinite s => .infinite s
  | finite s c e => Binary64.ofDecimal s c e

/-- The integer a decimal is equal to, if there is one. -/
def toInt? : Decimal → Option Int
  | infinite _ => none
  | finite s c e =>
    let signed (n : Nat) : Int := if s then -(n : Int) else n
    if 0 ≤ e then some (signed (c * Nat.pow 10 e.toNat))
    else
      let d := Nat.pow 10 (-e).toNat
      if c % d = 0 then some (signed (c / d)) else none

end Decimal
end TableService
