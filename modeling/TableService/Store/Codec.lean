import TableService.Store.Cell
import TableService.Schema.Convert
import TableService.Json.Reader
import TableService.Json.Printer

/-!
# Values and cells

How a value becomes a cell of a column, and a cell a value. **A column accepts what its type can
represent**: a date column only dates, a boolean column only booleans and the numbers 0 and 1, a
number column what converts to a number. What is accepted becomes a parameter of the statement,
which fails if the store has no cell for it. A column of structured values keeps their JSON text.

Reading gives back the stored form of a value that was written through the same column: a date-time
without its offset, a decimal with two places. A cell that came there otherwise, from a default of
the store, may be none that the column's type can read.
-/

namespace TableService
namespace Store

/-- Why the store refuses a statement: it has no operation for a test, a value is of the wrong type
for its column, the table is gone, an integer is too large, a value has no cell or no encoding, or
the rows would break a rule of the table. -/
inductive StoreFault where
  | unsupported
  | rejected
  | missingTable
  | oversized
  | foreign
  | unencodable
  | unfilled (column : Text)
  | duplicate
  | misnumbered
  deriving DecidableEq, Repr

/-- The name of a fault. -/
def StoreFault.name : StoreFault → String
  | .unsupported => "UnsupportedCompilationError"
  | .rejected => "StatementError"
  | .missingTable => "OperationalError"
  | .oversized => "OverflowError"
  | .foreign => "ProgrammingError"
  | .unencodable => "UnicodeEncodeError"
  | .unfilled _ | .duplicate | .misnumbered => "IntegrityError"

/-- A fault of a statement on a table, as a problem. -/
def StoreFault.problem (f : StoreFault) (statement : String) (table : Table) : Problem :=
  match f with
  | .oversized => .overflow
  | .unencodable => .outside (Text.ofString f.name) []
  | f => .backend (statement.toList ++ Text.ofString " on \"" ++ table.name ++ ['"'])
      (some table.name) (some (Text.ofString f.name))

/-- What a statement is sent for a value: a cell, or something that there is no cell for. -/
inductive Parameter where
  | cell (x : Cell)
  | foreign
  | unencodable
  deriving DecidableEq, Repr, Inhabited

/-- The cell of a parameter. An integer of more than 64 bits has none. -/
def Parameter.cell? : Parameter → Except StoreFault Cell
  | .cell (.integer n) => if fitsWord n then .ok (.integer n) else .error .oversized
  | .cell x => .ok x
  | .foreign => .error .foreign
  | .unencodable => .error .unencodable

namespace Codec

/-! ## 1. Writing -/

/-- A value that is sent as it is. -/
def plain : Value → Parameter
  | .moment t => .cell (.text (Value.plainText (.moment t)))
  | .literal l => .cell (Cell.ofLiteral l)
  | .unpaired _ => .unencodable
  | _ => .foreign

/-- A value that is sent as a binary64 number. -/
def number (v : Value) : Except StoreFault Cell :=
  match Convert.toFloat v with
  | .ok x => .ok (Cell.ofLiteral (.real x))
  | .error _ => .error .rejected

/-- A value that is sent as a boolean. -/
def boolean : Value → Except StoreFault Cell
  | .boolean b => .ok (.integer (if b then 1 else 0))
  | .integer n => if n = 0 ∨ n = 1 then .ok (.integer n) else .error .rejected
  | .real x =>
    match x.toInt? with
    | some n => if n = 0 ∨ n = 1 then .ok (.integer n) else .error .rejected
    | none => .error .rejected
  | _ => .error .rejected

/-- A value that is sent as a date. -/
def date : Value → Except StoreFault Cell
  | .date d => .ok (.text d.text)
  | .moment t => .ok (.text t.date.text)
  | _ => .error .rejected

/-- A value that is sent as a date-time. -/
def moment : Value → Except StoreFault Cell
  | .moment t => .ok (.text t.storeText)
  | .date d => .ok (.text (DateTime.ofDate d).storeText)
  | _ => .error .rejected

/-- A value that is sent as JSON text. -/
def json : Value → Except StoreFault Cell
  | .date _ | .moment _ | .decimal _ => .error .rejected
  | v => .ok (.text (Json.text v))

/-- A value, not null, as a parameter for a column type. -/
def send : ColumnType → Value → Except StoreFault Parameter
  | .float, v | .numeric, v => (number v).map .cell
  | .boolean, v => (boolean v).map .cell
  | .date, v => (date v).map .cell
  | .dateTime, v => (moment v).map .cell
  | .json, v => (json v).map .cell
  | .strings, _ | .integers, _ => .error .rejected
  | _, v => .ok (plain v)

/-- A value as a parameter for a column type. Only a JSON column tells null from no value. -/
def parameter (t : ColumnType) (v : Value) : Except StoreFault Parameter :=
  if v.isNull && t != .json then .ok (.cell .null) else send t v

/-- A cell as the column stores it. -/
def stored (c : Column) (x : Cell) : Cell := x.withAffinity (affinityOf c.type)

/-! ## 2. Reading -/

/-- A cell as the value it holds. -/
def raw : Cell → Value
  | .null => .null
  | .integer n => .integer n
  | .real x => .real x
  | .text t => .text t

/-- Whether a cell counts as true. -/
def isTrue : Cell → Bool
  | .null => false
  | .integer n => n != 0
  | .real (.finite _ m _) => m != 0
  | .real _ => true
  | .text t => !t.isEmpty

/-- A number as a decimal with two places. There is no cell for NaN. -/
def twoPlaces (x : Binary64) : Value := .ofOption .decimal (Decimal.twoPlaces? x)

/-- A text as the JSON value it spells. -/
def readJson (t : Text) : Except Problem Value :=
  match Json.read t with
  | .ok v => .ok v
  | .error e =>
    match e.reason with
    | .oversizedInteger => .error .oversizedInteger
    | .nestedTooDeep => .error .nestedTooDeep
    | _ => .error (.unreadableJson (e.message t))

/-- A cell, not null, of a column type, as a value. -/
def decodePresent : ColumnType → Cell → Except Problem Value
  | .boolean, x => .ok (.boolean (isTrue x))
  | .date, .text t =>
    match Date.ofIso t with
    | .ok d => .ok (.date d)
    | .error e => .error (.invalidValue (e.message t))
  | .dateTime, .text t =>
    match DateTime.ofIso t with
    | .ok d => .ok (.moment d)
    | .error e => .error (.invalidValue (e.message t))
  | .numeric, .integer n => .ok (twoPlaces (Binary64.ofInt n))
  | .numeric, .real x => .ok (twoPlaces x)
  | .date, _ | .dateTime, _ | .numeric, _ => .error .wrongType
  | .json, .text t => readJson t
  | _, x => .ok (raw x)

/-- A cell of a column type, as a value. -/
def decode (t : ColumnType) (x : Cell) : Except Problem Value :=
  if x.isNull then .ok .null else decodePresent t x

end Codec
end Store
end TableService
