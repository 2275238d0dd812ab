import TableService.Number.Extended
import TableService.Number.Shortest
import TableService.Number.Literal

/-!
# Numbers as text in the store

The store reads a decimal into an integer of eighteen or nineteen digits and a power of ten, and
multiplies or divides by that power **in numbers of 64 significant bits**. So what it reads is not
always the nearest number. It writes fifteen digits, which it takes one by one after it has added
half a unit of the last of them, in the same numbers.
-/

namespace TableService
namespace Store
namespace Numeral

/-! ## 1. Reading -/

/-- From this integer on, further digits are not read. -/
def enough : Nat := 922337203685477579

/-- From this integer on, a power of ten is not taken into the integer. -/
def full : Nat := 922337203685477580

/-- An integer with a power of ten. -/
structure Scaled where
  coefficient : Nat
  exponent : Int
  deriving DecidableEq, Repr

/-- Take in a digit before the point. -/
def Scaled.putWhole (x : Scaled) (d : Nat) : Scaled :=
  if x.coefficient ≥ enough then ⟨x.coefficient, x.exponent + 1⟩
  else ⟨10 * x.coefficient + d, x.exponent⟩

/-- Take in a digit after the point. -/
def Scaled.putFraction (x : Scaled) (d : Nat) : Scaled :=
  if x.coefficient ≥ enough then x else ⟨10 * x.coefficient + d, x.exponent - 1⟩

/-- The digits of a literal that are read, and its power of ten. -/
def Scaled.ofLiteral (l : NumberLiteral) : Scaled :=
  let x := (l.fraction.getD []).foldl putFraction (l.whole.foldl putWhole ⟨0, 0⟩)
  ⟨x.coefficient, x.exponent + l.exponent.getD 0⟩

/-- Take powers of ten into an integer, as many as it has room for; the rest stays. -/
def raise (s : Nat) : Nat → Nat × Nat
  | 0 => (s, 0)
  | e + 1 => if s ≥ full then (s, e + 1) else raise (10 * s) e

/-- Take negative powers of ten into an integer, as long as it can be divided. -/
def lower (s : Nat) : Nat → Nat × Nat
  | 0 => (s, 0)
  | e + 1 => if s % 10 = 0 then lower (s / 10) e else (s, e + 1)

/-- The largest power of ten that a number has. -/
def largestPower : Binary64 := Binary64.ofDecimal false 1 308

/-- A number multiplied or divided by the largest power of ten. -/
def byLargestPower (multiplied negative : Bool) (x : Binary64) : Binary64 :=
  match x, largestPower with
  | .finite _ m q, .finite _ n r =>
    let (a, b) := Binary64.ratio m q
    let (c, d) := Binary64.ratio n r
    if multiplied then Binary64.ofRatio negative (a * c) (b * d)
    else Binary64.ofRatio negative (a * d) (b * c)
  | x, _ => x

/-- An integer times a power of ten. -/
def timesPower (negative : Bool) (s e : Nat) : Binary64 :=
  let (s, e) := raise s e
  if e = 0 then Binary64.ofRatio negative s 1
  else if e ≤ 307 then ((Extended.ofNat s).mul (.powerOfTen e)).toBinary64 negative
  else if e < 342 then
    byLargestPower true negative
      (((Extended.ofNat s).mul (.powerOfTen (e - 308))).toBinary64 negative)
  else .infinite negative

/-- An integer divided by a power of ten. -/
def overPower (negative : Bool) (s e : Nat) : Binary64 :=
  let (s, e) := lower s e
  if e = 0 then Binary64.ofRatio negative s 1
  else if e ≤ 307 then ((Extended.ofNat s).div (.powerOfTen e)).toBinary64 negative
  else if e < 342 then
    byLargestPower false negative
      (((Extended.ofNat s).div (.powerOfTen (e - 308))).toBinary64 negative)
  else Binary64.ofRatio negative 0 1

/-- The number that the store reads in a literal. -/
def number (l : NumberLiteral) : Binary64 :=
  let x := Scaled.ofLiteral l
  if x.coefficient = 0 then Binary64.ofRatio l.negative 0 1
  else if 0 ≤ x.exponent then timesPower l.negative x.coefficient x.exponent.toNat
  else overPower l.negative x.coefficient (-x.exponent).toNat

/-! ## 2. Writing -/

/-- A number on its way to text: `value · 10 ^ exponent`. -/
structure Shifted where
  value : Extended
  exponent : Int
  deriving Repr

/-- Repeat a step while a test holds, at most a number of times. -/
def repeatWhile {α : Type} (test : α → Bool) (step : α → α) : Nat → α → α
  | 0, x => x
  | n + 1, x => if test x then repeatWhile test step n (step x) else x

/-- A decimal number that the store uses as a constant. -/
def constant (coefficient : Nat) (exponent : Int) : Extended :=
  .ofBinary64 (Binary64.ofDecimal false coefficient exponent)

/-- Half a unit of the fifteenth digit, as a rounded product of two constants. -/
def halfUnit : Extended :=
  let (a, b) := (constant 5 (-5)).ratio
  let (c, d) := (constant 1 (-10)).ratio
  .ofBinary64 (Binary64.ofRatio false (a * c) (b * d))

/-- Raise a power of ten by a factor as long as a number is not below it. -/
def raiseScale (x : Extended) (power : Nat) (rounds : Nat) (scale : Shifted) : Shifted :=
  let factor := constant 1 power
  repeatWhile (fun s => (factor.mul s.value).atMost x)
    (fun s => ⟨s.value.mul factor, s.exponent + power⟩) rounds scale

/-- Multiply by a power of ten as long as a number is below a bound. -/
def raiseValue (bound : Extended) (power : Nat) (rounds : Nat) (x : Shifted) : Shifted :=
  repeatWhile (fun s => !bound.atMost s.value)
    (fun s => ⟨s.value.mul (constant 1 power), s.exponent - power⟩) rounds x

/-- A positive number between one and ten, with the power of ten that it was divided by. -/
def shift (x : Extended) : Shifted :=
  let scale := raiseScale x 1 10 (raiseScale x 10 10 (raiseScale x 100 4 ⟨.ofNat 1, 0⟩))
  raiseValue (.ofNat 1) 1 9
    (raiseValue (constant 1 (-8)) 8 45 ⟨x.div scale.value, scale.exponent⟩)

/-- Half a unit added; if that makes ten, the number is one tenth of it. -/
def rounded (x : Shifted) : Shifted :=
  let y := x.value.add halfUnit
  if (Extended.ofNat 10).atMost y then ⟨y.mul (constant 1 (-1)), x.exponent + 1⟩
  else ⟨y, x.exponent⟩

/-- The first digits of a number below ten. -/
def digits : Nat → Extended → Text
  | 0, _ => []
  | n + 1, x => let (d, rest) := x.splitDigit; Char.ofNat (48 + d) :: digits n rest

/-- The text that the store writes for a number: fifteen digits, of which zeros at the end are
dropped, and a point always. -/
def text : Binary64 → Text
  | .nan => []
  | .infinite s => Binary64.signed s ['I', 'n', 'f']
  | .finite s m q =>
    if m = 0 then ['0', '.', '0']
    else
      let x := rounded (shift ⟨m, q⟩)
      let ds := Text.trimEnd (· == '0') (digits 15 x.value)
      Binary64.signed s <|
        if -4 ≤ x.exponent ∧ x.exponent ≤ 14 then Binary64.positional ds (x.exponent + 1)
        else Binary64.scientific true ds (x.exponent + 1)

end Numeral
end Store
end TableService
