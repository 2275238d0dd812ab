import TableService.Schema.Field
import TableService.Time.Timestamp

/-!
# Conversion of values

A value is taken for a field if it can stand for a value of the field's kind **without loss**:
`"42"` and `42.0` for an integer, `1` and `"yes"` for a boolean, a date-time at midnight for a
date. What cannot is refused with the fault that fits best. Conversion is idempotent: a converted
value converts to itself.
-/

namespace TableService
namespace Convert

/-! ## 1. Integers -/

/-- A text without the zeros, and underscores between them, in front of its first other digit or
of a minus; `none` if something else stands there. -/
def dropLeadingZeros? (t : Text) : Option Text :=
  match t with
  | '0' :: _ =>
    let zeros := t.takeWhile fun c => c == '0' || c == '_'
    match t.dropWhile fun c => c == '0' || c == '_' with
    | [] => some (t.drop (t.length - 1))
    | '.' :: r => some (zeros.drop (zeros.length - 1) ++ '.' :: r)
    | c :: r => if c.isDigit || c == '-' then some (c :: r) else none
  | '-' :: _ => none
  | t => some t

/-- A text without a point and the zeros after it, of which there is at least one. -/
def dropZeroFraction (t : Text) : Text :=
  match Text.cutAt '.' t with
  | (whole, some (c :: r)) => if (c :: r).all (· == '0') then whole else t
  | _ => t

/-- A text without its underscores, if they stand singly and inside it. -/
def dropUnderscores? (t : Text) : Option Text :=
  if t.contains '_' && t.head? != some '_' && t.getLast? != some '_' && !Text.hasPair '_' '_' t then
    some (t.filter (· != '_'))
  else none

/-- The digits of a whole number: a zero alone, or digits of which the first is no zero. -/
def plainDigits? (t : Text) : Option (List Nat) :=
  match t.mapM Text.asciiDigit? with
  | some [] | some (0 :: _ :: _) => none
  | ds => ds

/-- The integer a text writes. A minus may stand in front of it or, if no sign stands there, behind
the zeros in front. -/
def readInt (t : Text) : Except FieldFault Int :=
  let (negative, r) := NumberLiteral.takeSign (Text.trim Text.isWhite t)
  match dropLeadingZeros? r with
  | none => .error (.parsing .int)
  | some r =>
    let r := dropZeroFraction r
    let (inner, r) := match (dropUnderscores? r).getD r with
      | '-' :: r => (true, r)
      | r => (false, r)
    match plainDigits? r with
    | none => .error (.parsing .int)
    | some ds =>
      if negative && inner then .error (.parsing .int)
      else if ds.length > maxIntegerDigits then .error .intParsingSize
      else
        let n : Int := Text.numberOf ds
        .ok (if negative || inner then -n else n)

/-- Whether an integer lies strictly between the bounds of 64 bits. -/
def isInsideWord (n : Int) : Bool := decide (-wordEnd < n) && decide (n < wordEnd)

/-- The integer a number is equal to. One that 64 bits do not hold is too large to be read. -/
def intOfReal (x : Binary64) : Except FieldFault Int :=
  if !x.isFinite then .error .finiteNumber
  else match x.toInt? with
    | some n => if isInsideWord n then .ok n else .error .intParsingSize
    | none => .error .intFromFloat

/-- The integer a decimal is equal to. -/
def intOfDecimal : Decimal → Except FieldFault Int
  | .infinite _ => .error .finiteNumber
  | x =>
    match x.toInt? with
    | some n => .ok n
    | none => .error .intFromFloat

/-- A value as an integer. -/
def toInt : Value → Except FieldFault Int
  | .integer n => .ok n
  | .boolean b => .ok (if b then 1 else 0)
  | .real x => intOfReal x
  | .text t => readInt t
  | .decimal x => intOfDecimal x
  | _ => .error (.typed .int)

/-! ## 2. Booleans -/

/-- The words for true and for false, in lower case. -/
def truthWords : List (Text × Bool) := [
  (['0'], false), (['o', 'f', 'f'], false), (['f'], false), (['f', 'a', 'l', 's', 'e'], false),
  (['n'], false), (['n', 'o'], false),
  (['1'], true), (['o', 'n'], true), (['t'], true), (['t', 'r', 'u', 'e'], true), (['y'], true),
  (['y', 'e', 's'], true)]

/-- An integer as a boolean. -/
def boolOfInt (n : Int) : Except FieldFault Bool :=
  if n = 0 then .ok false else if n = 1 then .ok true else .error (.parsing .bool)

/-- A number as a boolean. -/
def boolOfReal (x : Binary64) : Except FieldFault Bool :=
  match intOfReal x with
  | .ok n => boolOfInt n
  | .error _ => .error (.typed .bool)

/-- A value as a boolean. -/
def toBool : Value → Except FieldFault Bool
  | .boolean b => .ok b
  | .integer n => if fitsWord n then boolOfInt n else .error (.typed .bool)
  | .real x => boolOfReal x
  | .decimal x => boolOfReal x.toBinary64
  | .text t =>
    match truthWords.lookup (Text.asciiLower t) with
    | some b => .ok b
    | none => .error (.parsing .bool)
  | _ => .error (.typed .bool)

/-! ## 3. Numbers -/

/-- The number a text writes, infinities and NaN included. -/
def readFloat? (t : Text) : Option Binary64 :=
  let (negative, r) := NumberLiteral.takeSign t
  let word := Text.asciiLower r
  if word = ['n', 'a', 'n'] then some .nan
  else if word = ['i', 'n', 'f'] ∨ word = ['i', 'n', 'f', 'i', 'n', 'i', 't', 'y'] then
    some (.infinite negative)
  else if t.all fun c => c.toNat < 128 then (NumberLiteral.read? t).map NumberLiteral.toBinary64
  else none

/-- A value as a binary64 number. An integer beyond the range of those is refused. -/
def toFloat : Value → Except FieldFault Binary64
  | .real x => .ok x
  | .integer n =>
    let x := Binary64.ofInt n
    if x.isFinite then .ok x else .error (.typed .float)
  | .boolean b => .ok (Binary64.ofInt (if b then 1 else 0))
  | .decimal x => .ok x.toBinary64
  | .text t =>
    match readFloat? (Text.trim Text.isWhite t) with
    | some x => .ok x
    | none =>
      match (dropUnderscores? t).bind readFloat? with
      | some x => .ok x
      | none => .error (.parsing .float)
  | _ => .error (.typed .float)

/-- Whether a text writes an infinity or a NaN as a decimal. -/
def isSpecialDecimal (t : Text) : Bool :=
  let (_, r) := NumberLiteral.takeSign t
  let word := Text.trimEnd Text.isDigit (Text.asciiLower r)
  let whole := Text.asciiLower r
  whole == ['i', 'n', 'f'] || whole == ['i', 'n', 'f', 'i', 'n', 'i', 't', 'y']
    || word == ['n', 'a', 'n'] || word == ['s', 'n', 'a', 'n']

/-- The decimal a text writes, if its exponent is within the bounds. -/
def readDecimal (t : Text) : Except FieldFault Decimal :=
  if isSpecialDecimal t then .error .finiteNumber
  else match (NumberLiteral.read? t).map Decimal.ofLiteral with
    | some x => if x.isWithinBounds then .ok x else .error (.parsing .decimal)
    | none => .error (.parsing .decimal)

/-- A value as a decimal. -/
def toDecimal : Value → Except FieldFault Decimal
  | .decimal (.infinite _) => .error .finiteNumber
  | .decimal x => .ok x
  | .integer n => .ok (Decimal.ofInt n)
  | .real x =>
    match NumberLiteral.read? x.text with
    | some l => .ok (Decimal.ofLiteral l)
    | none => .error .finiteNumber
  | .text t => readDecimal ((Text.strip t).filter (· != '_'))
  | _ => .error (.typed .decimal)

/-! ## 4. Dates and times -/

/-- The date of a date-time at midnight. -/
def dateOfMoment (t : DateTime) : Except FieldFault Date :=
  if t.sinceMidnight = 0 then .ok t.date else .error .dateFromDateTimeInexact

/-- A moment that was read, or the fault of not reading one. -/
def momentOr {α : Type} (fault : FieldFault) (x : Option DateTime)
    (f : DateTime → Except FieldFault α) : Except FieldFault α :=
  match x with
  | some t => f t
  | none => .error fault

/-- The moment of a timestamp. An integer beyond the range of numbers is no timestamp. -/
def timestampOr {α : Type} (kind : FieldKind) (fault : FieldFault) (n : Int)
    (f : DateTime → Except FieldFault α) : Except FieldFault α :=
  if (Binary64.ofInt n).isFinite then momentOr fault (DateTime.ofTimestamp? n) f
  else .error (.typed kind)

/-- A value as a date, in the year 0 perhaps. -/
def readDate : Value → Except FieldFault Date
  | .date d => .ok d
  | .moment t => dateOfMoment t
  | .integer n => timestampOr .date .dateFromDateTimeParsing n dateOfMoment
  | .real x => momentOr .dateFromDateTimeParsing (DateTime.ofReal? x) dateOfMoment
  | .decimal x => momentOr .dateFromDateTimeParsing (DateTime.ofReal? x.toBinary64) dateOfMoment
  | .text t =>
    match DateTime.readDate? t with
    | some d => .ok d
    | none => momentOr .dateFromDateTimeParsing (DateTime.readBody? t) dateOfMoment
  | _ => .error (.typed .date)

/-- A value as a date. -/
def toDate (v : Value) : Except FieldFault Date :=
  match readDate v with
  | .ok d => if d.isValid then .ok d else .error (.parsing .date)
  | .error e => .error e

/-- A value as a date-time, in the year 0 perhaps. -/
def readMoment : Value → Except FieldFault DateTime
  | .moment t => .ok t
  | .date d => .ok (DateTime.ofDate d)
  | .integer n => timestampOr .dateTime (.parsing .dateTime) n .ok
  | .real x => momentOr (.parsing .dateTime) (DateTime.ofReal? x) .ok
  | .decimal x => momentOr (.parsing .dateTime) (DateTime.ofReal? x.toBinary64) .ok
  | .text t =>
    match DateTime.readBody? t with
    | some x => .ok x
    | none =>
      match DateTime.readDate? t with
      | some d => .ok (DateTime.ofDate d)
      | none => .error .dateTimeFromDateParsing
  | _ => .error (.typed .dateTime)

/-- A value as a date-time. -/
def toMoment (v : Value) : Except FieldFault DateTime :=
  match readMoment v with
  | .ok t => if t.isValid then .ok t else .error (.parsing .dateTime)
  | .error e => .error e

/-! ## 5. All kinds -/

/-- The fault of a string that is no text, in a field of a kind that reads texts. -/
def unpairedFault : FieldKind → FieldFault
  | .decimal => .parsing .decimal
  | .list => .typed .list
  | _ => .stringUnicode

/-- A value as a value of a kind. -/
def toKind : FieldKind → Value → Except FieldFault Value
  | .str, .unpaired t => .ok (.unpaired t)
  | .object, v => .ok v
  | .anything, v => .ok v
  | kind, .unpaired _ => .error (unpairedFault kind)
  | .int, v => (toInt v).map .integer
  | .bool, v => (toBool v).map .boolean
  | .float, v => (toFloat v).map .real
  | .decimal, v => (toDecimal v).map .decimal
  | .date, v => (toDate v).map .date
  | .dateTime, v => (toMoment v).map .moment
  | .str, .text t => .ok (.text t)
  | .str, _ => .error (.typed .str)
  | .list, .list vs => .ok (.list vs)
  | .list, _ => .error (.typed .list)

/-- A value for a field: null where the field may be null, else a value of its kind. -/
def toField (f : Field) (v : Value) : Except FieldFault Value :=
  if f.nullable && v.isNull then .ok .null else toKind f.kind v

end Convert
end TableService
