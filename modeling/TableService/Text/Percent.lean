import TableService.Text.Utf8
import TableService.Text.Quoted

/-!
# Percent-encoding

`%` and two hexadecimal digits stand for one byte; what follows a `%` that is no such pair is
kept as written. **Decoding happens on bytes**: every other character contributes its own UTF-8
bytes, so an escaped and an unescaped spelling of a character read alike. `escape` writes a
character class as escapes; it is the inverse that clients use.
-/

namespace TableService
namespace Percent

/-- The value of a hexadecimal digit. -/
def hexValue? (c : Char) : Option Nat :=
  if '0' ≤ c ∧ c ≤ '9' then some (c.toNat - 48)
  else if 'a' ≤ c ∧ c ≤ 'f' then some (c.toNat - 87)
  else if 'A' ≤ c ∧ c ≤ 'F' then some (c.toNat - 55)
  else none

/-- The bytes a text stands for. -/
def bytes : Text → List UInt8
  | '%' :: a :: b :: r =>
    match hexValue? a, hexValue? b with
    | some x, some y => UInt8.ofNat (16 * x + y) :: bytes r
    | _, _ => Utf8.encodeChar '%' ++ bytes (a :: b :: r)
  | c :: r => Utf8.encodeChar c ++ bytes r
  | [] => []

/-- A text with its escapes read. -/
def decode (t : Text) : Text := Utf8.decode (bytes t)

/-- One hexadecimal digit in upper case. -/
def upperHexDigit (n : Nat) : Char := if n < 10 then Char.ofNat (48 + n) else Char.ofNat (55 + n)

/-- The escape of one byte. -/
def escapeByte (b : UInt8) : Text :=
  ['%', upperHexDigit (b.toNat / 16), upperHexDigit (b.toNat % 16)]

/-- A text in which the characters of a class are written as escapes. -/
def escape (special : Char → Bool) (t : Text) : Text :=
  t.flatMap fun c => if special c then (Utf8.encodeChar c).flatMap escapeByte else [c]

end Percent
end TableService
