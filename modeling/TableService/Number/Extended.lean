import TableService.Number.Binary64

/-!
# Numbers with 64 significant bits

The numbers in which the store computes while it reads and writes decimal text. They are never
negative here, and each is **an exact integer times a power of two**; a result that needs more bits
is rounded to 64 of them, a tie to even. Their range is so wide that no bound of it is ever met.
-/

namespace TableService

/-- The number `significand · 2 ^ exponent`. -/
structure Extended where
  significand : Nat
  exponent : Int
  deriving DecidableEq, Repr, Inhabited

namespace Extended

/-- Numerator and denominator of a number. -/
def ratio (x : Extended) : Nat × Nat := Binary64.ratio x.significand x.exponent

/-- The number nearest to a quotient. -/
def ofRatio (n d : Nat) : Extended :=
  if n = 0 then ⟨0, 0⟩
  else
    let q := Binary64.exponentOf n d - 63
    let (a, b) := Binary64.unscale n d q
    ⟨divideHalfEven a b, q⟩

/-- A natural number below `2 ^ 64`. -/
def ofNat (n : Nat) : Extended := ⟨n, 0⟩

/-- The magnitude of a binary64 number. -/
def ofBinary64 : Binary64 → Extended
  | .finite _ m q => ⟨m, q⟩
  | _ => ⟨0, 0⟩

/-- The binary64 number nearest to a number. -/
def toBinary64 (negative : Bool) (x : Extended) : Binary64 :=
  let (n, d) := x.ratio
  Binary64.ofRatio negative n d

/-- The product, rounded. -/
def mul (x y : Extended) : Extended :=
  let (a, b) := x.ratio
  let (c, d) := y.ratio
  ofRatio (a * c) (b * d)

/-- The quotient, rounded. -/
def div (x y : Extended) : Extended :=
  let (a, b) := x.ratio
  let (c, d) := y.ratio
  ofRatio (a * d) (b * c)

/-- The sum, rounded. -/
def add (x y : Extended) : Extended :=
  let (a, b) := x.ratio
  let (c, d) := y.ratio
  ofRatio (a * d + c * b) (b * d)

/-- Whether one number is at most another. -/
def atMost (x y : Extended) : Bool :=
  let (a, b) := x.ratio
  let (c, d) := y.ratio
  decide (a * d ≤ c * b)

/-- The whole part, and the rest times ten, rounded. -/
def splitDigit (x : Extended) : Nat × Extended :=
  let (a, b) := x.ratio
  (a / b, ofRatio (a % b * 10) b)

/-- `x ^ e` times a number, by squaring; every product is rounded. -/
def powerFrom (e : Nat) (x r : Extended) : Extended :=
  if h : e = 0 then r
  else powerFrom (e / 2) (x.mul x) (if e % 2 = 1 then r.mul x else r)
termination_by e
decreasing_by omega

/-- A power of ten. -/
def powerOfTen (e : Nat) : Extended := powerFrom e (ofNat 10) (ofNat 1)

end Extended
end TableService
