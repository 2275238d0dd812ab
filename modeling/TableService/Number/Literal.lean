import TableService.Number.Binary64
import TableService.Text.Blank
import TableService.Text.Digit

/-!
# Number literals

A number in a query is a decimal literal: a sign, digits with at most one point, an exponent.
Nothing else counts — no `nan`, no `inf`, no digit separators — and **a literal without point and
exponent is an integer**, all others are binary64 numbers. Digits of every script count.

Whole numbers of a page parameter follow a rule of their own (`readInteger?`): there, single
underscores may stand between digits.
-/

namespace TableService

/-- A number literal, taken apart. -/
structure NumberLiteral where
  negative : Bool
  whole : List Nat
  fraction : Option (List Nat)
  exponent : Option Int
  deriving DecidableEq, Repr

namespace NumberLiteral

/-- The longest run of digits at the front, as digit values, and what follows it. -/
def takeDigits : Text → List Nat × Text
  | [] => ([], [])
  | c :: r =>
    match Text.digitValue? c with
    | some d => let (ds, rest) := takeDigits r; (d :: ds, rest)
    | none => ([], c :: r)

/-- A sign at the front: whether it is a minus, and what follows it. -/
def takeSign : Text → Bool × Text
  | '-' :: r => (true, r)
  | '+' :: r => (false, r)
  | t => (false, t)

/-- What may follow the digits: nothing, or an exponent up to the end of the text. -/
def readExponent? : Text → Option (Option Int)
  | [] => some none
  | c :: r =>
    if c = 'e' ∨ c = 'E' then
      let (negative, r) := takeSign r
      match takeDigits r with
      | ([], _) => none
      | (ds, []) =>
        let n : Int := Text.numberOf ds
        some (some (if negative then -n else n))
      | _ => none
    else none

/-- Read a whole text as a number literal. -/
def read? (t : Text) : Option NumberLiteral :=
  let (negative, r) := takeSign t
  let (whole, r) := takeDigits r
  let (fraction, r) := match r with
    | '.' :: r => let (ds, r) := takeDigits r; (some ds, r)
    | r => (none, r)
  if whole.isEmpty && (fraction.getD []).isEmpty then none
  else (readExponent? r).map fun exponent => ⟨negative, whole, fraction, exponent⟩

/-- Whether a literal is an integer: it has neither point nor exponent. -/
def isInteger (x : NumberLiteral) : Bool := x.fraction.isNone && x.exponent.isNone

/-- The integer of an integer literal. -/
def toInt (x : NumberLiteral) : Int :=
  let n : Int := Text.numberOf x.whole
  if x.negative then -n else n

/-- The binary64 number nearest to a literal. -/
def toBinary64 (x : NumberLiteral) : Binary64 :=
  let fraction := x.fraction.getD []
  Binary64.ofDecimal x.negative (Text.numberOf (x.whole ++ fraction))
    (x.exponent.getD 0 - fraction.length)

end NumberLiteral

/-- Whether a token is a number literal, white space around it aside. -/
def isNumber (token : Text) : Bool := (NumberLiteral.read? (Text.strip token)).isSome

/-! ## Whole numbers -/

/-- The first positive integer that 64 bits do not hold. -/
def wordEnd : Int := 9223372036854775808

/-- Whether an integer fits into 64 bits. -/
def fitsWord (n : Int) : Bool := decide (-wordEnd ≤ n) && decide (n < wordEnd)

/-- Digits with single underscores between them; `none` where one stands elsewhere. -/
def separatedDigits? (digit? : Char → Option Nat) : Text → Option (List Nat)
  | [] => none
  | [c] => (digit? c).map ([·])
  | c :: '_' :: r => do return (← digit? c) :: (← separatedDigits? digit? r)
  | c :: r => do return (← digit? c) :: (← separatedDigits? digit? r)

/-- The longest integer, in digits, that is read at all. -/
def maxIntegerDigits : Nat := 4300

/-- The whole number that a text without white space around it writes. -/
def readInteger? (t : Text) : Option Int :=
  let (negative, r) := NumberLiteral.takeSign t
  match separatedDigits? Text.digitValue? r with
  | none => none
  | some ds =>
    if ds.length > maxIntegerDigits then none
    else
      let n : Int := Text.numberOf ds
      some (if negative then -n else n)

end TableService
