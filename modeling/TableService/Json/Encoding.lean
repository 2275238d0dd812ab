import TableService.Json.Reader
import TableService.Text.Utf8

/-!
# JSON in bytes

A JSON text begins with two ASCII characters, unless it is very short, so **the NULs among its first
bytes tell its encoding**: UTF-8 has none, UTF-16 one in every two bytes, UTF-32 three in every
four. A mark at the front of UTF-8 is dropped. Surrogates without a partner are let through; the
reader sees them spelled as escapes.
-/

namespace TableService
namespace Json

/-- An encoding of JSON. In a big-endian one the high bytes come first. -/
inductive Encoding where
  | utf8
  | utf16 (bigEndian : Bool)
  | utf32 (bigEndian : Bool)
  deriving DecidableEq, Repr

namespace Encoding

/-- The encoding of bytes, by where their first NULs stand. -/
def ofBytes : List UInt8 → Encoding
  | [a, b] =>
    if a = 0 then utf16 true else if b = 0 then utf16 false else utf8
  | a :: b :: c :: d :: _ =>
    if a = 0 then (if b = 0 then utf32 true else utf16 true)
    else if b = 0 then (if c = 0 ∧ d = 0 then utf32 false else utf16 false)
    else utf8
  | _ => utf8

/-- The number that bytes write, the highest first. -/
def number (bytes : List UInt8) : Nat := bytes.foldl (fun n b => 256 * n + b.toNat) 0

/-- The code units of two bytes each; `none` if a byte is left over. -/
def pairUnits? (bigEndian : Bool) : List UInt8 → Option (List Nat)
  | [] => some []
  | a :: b :: r =>
    (pairUnits? bigEndian r).map (number (if bigEndian then [a, b] else [b, a]) :: ·)
  | _ => none

/-- The code points of four bytes each; `none` if bytes are left over or stand for none. -/
def quadUnits? (bigEndian : Bool) : List UInt8 → Option (List Nat)
  | [] => some []
  | a :: b :: c :: d :: r =>
    let n := number (if bigEndian then [a, b, c, d] else [d, c, b, a])
    if n < 0x110000 then (quadUnits? bigEndian r).map (n :: ·) else none
  | _ => none

/-- Code points as text, an unpaired surrogate as its escape. -/
def textOf (ns : List Nat) : Text :=
  ns.flatMap fun n => if isSurrogate n then unicodeEscape n else [Char.ofNat n]

end Encoding

/-- The JSON text in the bytes of a text; `none` if they do not fit the encoding they tell. -/
def decode? (t : Text) : Option Text :=
  let bytes := Utf8.encode t
  match Encoding.ofBytes bytes with
  | .utf8 =>
    match t with
    | '\ufeff' :: r => some r
    | t => some t
  | .utf16 e => (Encoding.pairUnits? e bytes).map fun ns => Encoding.textOf (joinPairs ns)
  | .utf32 e => (Encoding.quadUnits? e bytes).map Encoding.textOf

end Json
end TableService
