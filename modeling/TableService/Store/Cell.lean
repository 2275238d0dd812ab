import TableService.Sql.Meaning
import TableService.Shown
import TableService.Store.Numeral

/-!
# Cells

What the store keeps in a row: null, an integer of 64 bits, a binary64 number, or a text. Cells of
different kinds are ordered too: **null before numbers, numbers before texts**. Numbers compare by
value, whatever their kind, and texts by their code points.

A column has an affinity, the kind it prefers. A cell takes on the affinity of its column when it is
stored: a text that spells a number becomes that number in a number column, a number becomes its
text in a text column, and what has no such form stays as it is. An operand is treated alike when
it is compared with a column.
-/

namespace TableService
namespace Store

/-- What a row holds in a column. -/
inductive Cell where
  | null
  | integer (n : Int)
  | real (x : Binary64)
  | text (t : Text)
  deriving DecidableEq, Repr, Inhabited

/-- The kind of cell that a column prefers. -/
inductive Affinity where
  | integer
  | real
  | text
  | numeric
  deriving DecidableEq, Repr, Inhabited

/-- The affinity of a column type. -/
def affinityOf : ColumnType → Affinity
  | .integer | .bigInteger => .integer
  | .float => .real
  | .string | .text => .text
  | _ => .numeric

namespace Cell

/-! ## 1. Order -/

/-- The order of two cells. -/
def compare : Cell → Cell → Ordering
  | null, null => .eq
  | null, _ => .lt
  | _, null => .gt
  | integer m, integer n => Ord.compare m n
  | integer m, real y => Binary64.compareInt m y
  | real x, integer n => (Binary64.compareInt n x).swap
  | real x, real y => Binary64.compareValue x y
  | text s, text t => Text.compareText s t
  | text _, _ => .gt
  | _, text _ => .lt

/-- Whether a cell is null. -/
def isNull : Cell → Bool
  | null => true
  | _ => false

/-! ## 2. Forms of a cell -/

/-- The white space that may stand around a number. -/
def isSpace (c : Char) : Bool := c == ' ' || (decide (9 ≤ c.toNat) && decide (c.toNat ≤ 13))

/-- The number that a text spells in plain digits. -/
def ofNumberText? (t : Text) : Option Cell :=
  let t := Text.trim isSpace t
  if t.all fun c => c.toNat < 128 then
    (NumberLiteral.read? t).map fun l =>
      if l.isInteger && fitsWord l.toInt then integer l.toInt else real (Numeral.number l)
  else none

/-- The text of a cell; null has none. -/
def toText? : Cell → Option Text
  | null => none
  | integer n => some (intText n)
  | real x => some (Numeral.text x)
  | text t => some t

/-- A number with no fraction as an integer, if it lies strictly between the bounds of those. -/
def shrink : Cell → Cell
  | real x =>
    match x.toInt? with
    | some n => if -wordEnd < n ∧ n < wordEnd then integer n else real x
    | none => real x
  | c => c

/-- A number as a binary64 number; there is no negative zero. -/
def widen : Cell → Cell
  | integer n => real (Binary64.ofInt n)
  | real (.finite _ 0 q) => real (.finite false 0 q)
  | c => c

/-- A text as the number it spells, everything else as it is. -/
def spelled : Cell → Cell
  | text t => (ofNumberText? t).getD (text t)
  | c => c

/-- A cell with the affinity of the column that stores it. -/
def withAffinity (c : Cell) : Affinity → Cell
  | .integer | .numeric => c.spelled.shrink
  | .real => c.spelled.widen
  | .text =>
    match c.toText? with
    | some t => text t
    | none => null

/-- The cell that a literal is bound as. There is no cell for NaN. -/
def ofLiteral : Literal → Cell
  | .null => null
  | .boolean b => integer (if b then 1 else 0)
  | .integer n => integer n
  | .real .nan => null
  | .real x => real x
  | .text t => text t
  | .date d => text d.text
  | .moment t => text t.storeText

/-- The cell that an operand is sent as for a column. A column of a custom type leaves a date-time
in its plain form. -/
def sent (c : Column) (l : Literal) : Cell :=
  match c.type, l with
  | .custom, .moment t => text (Value.plainText (.moment t))
  | _, l => ofLiteral l

/-- An operand as it is compared with a column: as a text if the column is one, else with what it
spells as a number, which is compared by value. -/
def operand (c : Column) (l : Literal) : Cell :=
  if affinityOf c.type = .text then (sent c l).withAffinity .text else (sent c l).spelled

end Cell
end Store
end TableService
