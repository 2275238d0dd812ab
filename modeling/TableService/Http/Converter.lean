import TableService.Value
import TableService.Number.Literal

/-!
# Kinds of path parameters

A parameter of a path has a kind, which says what it takes and what value it has: a text without
slashes, the rest of the path, a number, or an identifier of 32 hexadecimal digits in five groups.
**A kind is given by the lengths that it can take at the front of a path, the preferred first**;
which of them is right depends on what follows the parameter.
-/

namespace TableService
namespace Http

/-- The kinds of path parameters. -/
inductive Converter where
  | text
  | path
  | integer
  | real
  | identifier
  deriving DecidableEq, Repr

namespace Converter

/-- The names of the kinds. -/
def names : List (Text × Converter) := [
  (Text.ofString "str", text), (Text.ofString "path", path), (Text.ofString "int", integer),
  (Text.ofString "float", real), (Text.ofString "uuid", identifier)]

/-- The kind with a name. -/
def ofName? (name : Text) : Option Converter := names.lookup name

/-- The numbers from `most` down to `least`. -/
def downTo (least most : Nat) : List Nat :=
  ((List.range (most + 1)).filter fun n => decide (least ≤ n)).reverse

/-- How many characters at the front of a text have a property. -/
def run (p : Char → Bool) (t : Text) : Nat := (t.takeWhile p).length

/-- The lengths of a fraction with its point that follows digits. -/
def fractionLengths : Text → List Nat
  | '.' :: r => downTo 2 (run Char.isDigit r + 1)
  | _ => []

/-- How many hexadecimal digits each group of an identifier has. -/
def groups : List Nat := [8, 4, 4, 4, 12]

/-- Whether a character is a hexadecimal digit. -/
def isHexDigit (c : Char) : Bool :=
  c.isDigit || (decide ('a' ≤ c) && decide (c ≤ 'f')) || (decide ('A' ≤ c) && decide (c ≤ 'F'))

/-- The digits of an identifier by groups, between which a dash may stand, with the length of it
all. -/
def takeGroups? : List Nat → Text → Option (List Text × Nat)
  | [], _ => some ([], 0)
  | n :: ns, t =>
    let digits := t.take n
    if digits.length = n && digits.all isHexDigit then
      let (dash, rest) := match ns, t.drop n with
        | _ :: _, '-' :: r => (1, r)
        | _, r => (0, r)
      (takeGroups? ns rest).map fun (ds, k) => (digits :: ds, n + dash + k)
    else none

/-- The lengths that a parameter can take at the front of a text, the preferred first. -/
def lengths (k : Converter) (t : Text) : List Nat :=
  match k with
  | .text => downTo 1 (run (· != '/') t)
  | .path => downTo 0 (run (· != '\n') t)
  | .integer => downTo 1 (run Char.isDigit t)
  | .real =>
    let digits := run Char.isDigit t
    if digits = 0 then []
    else (fractionLengths (t.drop digits)).map (digits + ·) ++ downTo 1 digits
  | .identifier => ((takeGroups? groups t).map (·.2)).toList

/-- The value of a parameter that took a text. An identifier is written in lower case, with dashes
between its groups. -/
def value (k : Converter) (t : Text) : Value :=
  match k with
  | .text | .path => .text t
  | .integer => .ofOption (fun l => .integer (NumberLiteral.toInt l)) (NumberLiteral.read? t)
  | .real => .ofOption (fun l => .real (NumberLiteral.toBinary64 l)) (NumberLiteral.read? t)
  | .identifier =>
    .ofOption (fun (ds, _) => .text (Text.asciiLower (Text.join ['-'] ds))) (takeGroups? groups t)

end Converter
end Http
end TableService
