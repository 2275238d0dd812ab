import TableService.Text.Basic

/-!
# White space

Two classes are in use. A query token is stripped of **all white space, the four information
separators (U+001C to U+001F) included**; a page parameter, and a value that a schema converts, is
stripped of Unicode white space alone, which leaves those four in place.
-/

namespace TableService
namespace Text

/-- Unicode white space. -/
def isWhite (c : Char) : Bool :=
  let n := c.toNat
  (decide (9 ≤ n) && decide (n ≤ 13)) || n == 32 || n == 0x85 || n == 0xA0 || n == 0x1680
    || (decide (0x2000 ≤ n) && decide (n ≤ 0x200A))
    || n == 0x2028 || n == 0x2029 || n == 0x202F || n == 0x205F || n == 0x3000

/-- White space around a query token: Unicode white space and the information separators. -/
def isBlank (c : Char) : Bool :=
  isWhite c || (decide (0x1C ≤ c.toNat) && decide (c.toNat ≤ 0x1F))

/-- A query token without the white space around it. -/
def strip (t : Text) : Text := trim isBlank t

end Text
end TableService
