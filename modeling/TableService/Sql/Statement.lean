import TableService.Sql.Compile
import TableService.Sql.Identifier
import TableService.Shown

/-!
# Printed statements

A condition is printed as **a list of pieces: text of the statement, and slots for parameters**.
The text comes from the table, the dialect and the shape of the condition; what a request sent is
only ever in a slot. Filling the slots with placeholders gives the text of the statement,
collecting them gives its parameters, and the two agree in number because they are read off one
list.

Parentheses stand around a disjunction inside a conjunction, around a negated list test always,
and around an array test that is an operand.
-/

namespace TableService
namespace Sql

/-- A piece of a printed statement. A boolean constant is no parameter. -/
inductive Piece where
  | words (t : Text)
  | truth (b : Bool)
  | slot (x : Literal)
  deriving DecidableEq, Repr, Inhabited

/-- Fixed text. -/
def w (s : String) : List Piece := [.words s.toList]

/-- Lists of pieces with fixed text between them. -/
def separated (sep : String) : List (List Piece) → List Piece
  | [] => []
  | [p] => p
  | p :: q :: ps => p ++ w sep ++ separated sep (q :: ps)

/-- Slots with commas between them. -/
def slots (xs : List Literal) : List Piece := separated ", " (xs.map fun x => [.slot x])

/-- Elements of an array; a null is written out. -/
def arraySlots (xs : List Literal) : List Piece :=
  separated ", " (xs.map fun x => if x = .null then w "NULL" else [.slot x])

/-- A column of a table. -/
def columnPieces (d : Dialect) (table : Table) (c : Column) : List Piece :=
  [.words (identifier d table.name ++ '.' :: identifier d c.name)]

/-- The sign of a relation. -/
def relationSign : Relation → String
  | .eq => " = "
  | .ne => " != "
  | .gt => " > "
  | .ge => " >= "
  | .lt => " < "
  | .le => " <= "

/-- A test of a column, printed. -/
def testPieces (d : Dialect) (x : List Piece) : Test → List Piece
  | .isNull false => x ++ w " IS NULL"
  | .isNull true => x ++ w " IS NOT NULL"
  | .compare r v => x ++ w (relationSign r) ++ [.slot v]
  | .equalsConstant negated b =>
    x ++ w (relationSign (if negated then .ne else .eq)) ++ [.truth b]
  | .among false vs => x ++ w " IN (" ++ slots vs ++ w ")"
  | .among true vs => w "(" ++ x ++ w " NOT IN (" ++ slots vs ++ w "))"
  | .between false low high => x ++ w " BETWEEN " ++ [.slot low] ++ w " AND " ++ [.slot high]
  | .between true low high => x ++ w " NOT BETWEEN " ++ [.slot low] ++ w " AND " ++ [.slot high]
  | .like false false v => x ++ w " LIKE " ++ [.slot v]
  | .like false true v => x ++ w " NOT LIKE " ++ [.slot v]
  | .like true negated v =>
    match d with
    | .postgresql => x ++ w (if negated then " NOT ILIKE " else " ILIKE ") ++ [.slot v]
    | .sqlite =>
      w "lower(" ++ x ++ w (if negated then ") NOT LIKE lower(" else ") LIKE lower(")
        ++ [.slot v] ++ w ")"
  | .array test vs =>
    x ++ w (match test with
      | .contains => " @> ARRAY["
      | .contained => " <@ ARRAY[") ++ arraySlots vs ++ w "]"

/-- Where a condition stands. -/
inductive Position where
  | top
  | conjunct
  | disjunct
  deriving DecidableEq, Repr

/-- Whether a condition needs parentheses where it stands. -/
def needsParens (p : Position) : Condition → Bool
  | .test _ (.array _ _) => p != .top
  | .any _ => p == .conjunct
  | _ => false

mutual

/-- A condition, printed, without the parentheses its place may ask for. -/
def barePieces (d : Dialect) (table : Table) : Condition → List Piece
  | .test c t => testPieces d (columnPieces d table c) t
  | .all parts => separated " AND " (operands d table .conjunct parts)
  | .any parts => separated " OR " (operands d table .disjunct parts)
  | .not part => w "NOT (" ++ barePieces d table part ++ w ")"

/-- The operands of a conjunction or disjunction, printed. -/
def operands (d : Dialect) (table : Table) (p : Position) : List Condition → List (List Piece)
  | [] => []
  | c :: cs =>
    (if needsParens p c then w "(" ++ barePieces d table c ++ w ")" else barePieces d table c)
      :: operands d table p cs

end

/-- A whole condition, printed. -/
def conditionPieces (d : Dialect) (table : Table) (c : Condition) : List Piece :=
  barePieces d table c

/-- A sort key, printed. -/
def sortPieces (d : Dialect) (table : Table) (k : SortKey) : List Piece :=
  columnPieces d table k.column ++ w (if k.descending then " DESC" else " ASC")

/-- A query for rows of a table. -/
structure Select where
  table : Table
  columns : List Column
  condition : Option Condition
  order : List SortKey
  window : Option (Int × Int)
  deriving Repr, Inhabited

/-- A query, printed. The window is its limit and its offset. -/
def Select.pieces (d : Dialect) (s : Select) : List Piece :=
  w "SELECT " ++ separated ", " (s.columns.map (columnPieces d s.table))
    ++ w " FROM " ++ [.words (identifier d s.table.name)]
    ++ (match s.condition with
      | none => []
      | some c => w " WHERE " ++ conditionPieces d s.table c)
    ++ (match s.order with
      | [] => []
      | ks => w " ORDER BY " ++ separated ", " (ks.map (sortPieces d s.table)))
    ++ match s.window with
      | none => []
      | some (limit, offset) =>
        w " LIMIT " ++ [.slot (.integer limit)] ++ w " OFFSET " ++ [.slot (.integer offset)]

/-- Whether a dialect has a form for a condition. Arrays are known to one dialect only. -/
def Dialect.supports (d : Dialect) (c : Condition) : Bool :=
  match d with
  | .postgresql => true
  | .sqlite => !c.hasArrayTest

/-- Whether a dialect has a form for a query. -/
def Select.isSupported (d : Dialect) (s : Select) : Bool := s.condition.all d.supports

/-! ## Text and parameters -/

/-- What stands for a parameter. -/
def placeholder : Dialect → Text
  | .postgresql => ['%', 's']
  | .sqlite => ['?']

/-- A boolean constant. -/
def constantText : Dialect → Bool → Text
  | .postgresql, true => ['t', 'r', 'u', 'e']
  | .postgresql, false => ['f', 'a', 'l', 's', 'e']
  | .sqlite, true => ['1']
  | .sqlite, false => ['0']

/-- The text of pieces, with placeholders in the slots. -/
def textOf (d : Dialect) (ps : List Piece) : Text :=
  ps.flatMap fun p => match p with
    | .words t => t
    | .truth b => constantText d b
    | .slot _ => placeholder d

/-- The parameters of pieces, in the order of their slots. -/
def parametersOf (ps : List Piece) : List Literal :=
  ps.filterMap fun p => match p with
    | .words _ | .truth _ => none
    | .slot x => some x

/-- A literal written into the text of a statement. -/
def inlineText (d : Dialect) : Literal → Text
  | .null => Text.ofString "NULL"
  | .boolean b => (constantText d b).map Char.toUpper
  | .integer n => intText n
  | .real x => x.text
  | .text t =>
    let body := Text.replaceChar '\'' ['\'', '\''] t
    let body := if d = .postgresql then
        Text.replaceChar '%' ['%', '%'] (Text.replaceChar '\\' ['\\', '\\'] body)
      else body
    '\'' :: body ++ ['\'']
  | .date x => '\'' :: x.text ++ ['\'']
  | .moment t =>
    '\'' :: (match d with
      | .postgresql => Value.plainText (.moment t)
      | .sqlite => t.storeText) ++ ['\'']

/-- The text of pieces with the literals written into the slots, and constants in upper case like
all other words. -/
def inlined (d : Dialect) (ps : List Piece) : Text :=
  ps.flatMap fun p => match p with
    | .words t => t
    | .truth b => inlineText d (.boolean b)
    | .slot x => inlineText d x

end Sql
end TableService
