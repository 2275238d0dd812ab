import TableService.Number.Binary64
import TableService.Text.Basic

/-!
# Decimal text of a number

**The shortest decimal that reads back.** For 1, 2, … 17 digits the two neighbours of the value
on that decimal grid are tried in exact arithmetic; the first grid on which one of them reads
back as the same number wins, of two the nearer, and of two equally near the even one.
-/

namespace TableService
namespace Binary64

/-! ## 1. Digits -/

/-- A decimal number `coefficient · 10 ^ exponent`. -/
structure Digits where
  coefficient : Nat
  exponent : Int
  deriving DecidableEq, Repr

/-- `n / d / 10 ^ k`, as numerator and denominator. -/
def unscaleTen (n d : Nat) (k : Int) : Nat × Nat :=
  if 0 ≤ k then (n, d * Nat.pow 10 k.toNat) else (n * Nat.pow 10 (-k).toNat, d)

/-- The greatest `p` with `10 ^ p ≤ n / d`, for a positive quotient. -/
def leadingPower (n d : Nat) : Int :=
  let p : Int := (digitCount n : Int) - (digitCount d : Int)
  let (a, b) := unscaleTen n d p
  if a < b then p - 1 else p

/-- Whether a decimal reads back as the number with this significand and exponent. -/
def readsBack (m : Nat) (q : Int) (x : Digits) : Bool :=
  ofDecimal false x.coefficient x.exponent == finite false m q

/-- The neighbour that reads back on the grid with step `10 ^ k`; the nearer one of two. -/
def onGrid? (m : Nat) (q : Int) (k : Int) : Option Digits :=
  let (n, d) := ratio m q
  let (a, b) := unscaleTen n d k
  let below : Digits := ⟨a / b, k⟩
  let above : Digits := ⟨a / b + 1, k⟩
  match readsBack m q below, readsBack m q above with
  | false, false => none
  | true, false => some below
  | false, true => some above
  | true, true => if divideHalfEven a b = a / b then some below else some above

/-- The shortest decimal that reads back as a positive number. -/
def shortestDigits (m : Nat) (q : Int) : Digits :=
  let (n, d) := ratio m q
  let p := leadingPower n d
  match (List.range 17).findSome? fun (k : Nat) => onGrid? m q (p - (k : Int)) with
  | some x => x
  | none => ⟨n / d, 0⟩

/-! ## 2. Layout -/

/-- The digits without zeros at the end, and the place of the point: the number is
`0.digits · 10 ^ place`. -/
def Digits.normal (x : Digits) : Text × Int :=
  let all := natText x.coefficient
  (Text.trimEnd (· == '0') all, (all.length : Int) + x.exponent)

/-- Digits with the point inside or beside them, and at least one digit on either side. -/
def positional (digits : Text) (place : Int) : Text :=
  if place ≤ 0 then '0' :: '.' :: List.replicate (-place).toNat '0' ++ digits
  else
    let whole := digits.take place.toNat
    let fraction := digits.drop place.toNat
    whole ++ List.replicate (place.toNat - whole.length) '0'
      ++ '.' :: (if fraction.isEmpty then ['0'] else fraction)

/-- An exponent with its sign and at least two digits. -/
def exponentText (e : Int) : Text :=
  let n := natText e.natAbs
  (if e < 0 then '-' else '+') :: (if n.length < 2 then '0' :: n else n)

/-- Digits with one of them before the point, and an exponent. With `point`, at least one digit
follows the point. -/
def scientific (point : Bool) (digits : Text) (place : Int) : Text :=
  let fraction := digits.drop 1
  digits.take 1
    ++ (if fraction.isEmpty then (if point then ['.', '0'] else []) else '.' :: fraction)
    ++ 'e' :: exponentText (place - 1)

/-- The sign in front of a text. -/
def signed (negative : Bool) (t : Text) : Text := if negative then '-' :: t else t

/-- The text of a number: the shortest digits, positional from `0.0001` up to sixteen digits. -/
def text : Binary64 → Text
  | nan => ['n', 'a', 'n']
  | infinite s => signed s ['i', 'n', 'f']
  | finite s m q =>
    if m = 0 then signed s ['0', '.', '0']
    else
      let (digits, place) := (shortestDigits m q).normal
      signed s (if -4 < place ∧ place ≤ 16 then positional digits place
        else scientific false digits place)

end Binary64
end TableService
