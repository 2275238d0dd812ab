import TableService.Time.Calendar
import TableService.Text.Digit
import TableService.Text.Quoted

/-!
# Dates and times in ISO form

A date is `YYYY-MM-DD`, or a week `YYYY-Www` with an optional day, each also without the hyphens. A
date-time is a date, **any one character**, and a time of day in extended (`10:30:45`) or basic
(`103045`) form, with seconds and minutes optional, a fraction after a point or comma cut to six
digits, and an offset. What stands in front of an offset may end with one ASCII character that
belongs to nothing; at the end of the whole text nothing may be left over, and a NUL counts as the
end.

`DateTime.text` is one of the spellings read here, which is what lets the JSON form of an operand
be read again.
-/

namespace TableService

/-- Two ASCII digits and what follows them. -/
def twoDigits? : Text → Option (Nat × Text)
  | a :: b :: r =>
    match Text.asciiDigit? a, Text.asciiDigit? b with
    | some x, some y => some (10 * x + y, r)
    | _, _ => none
  | _ => none

/-- Four ASCII digits and what follows them. -/
def fourDigits? (t : Text) : Option (Nat × Text) :=
  match twoDigits? t with
  | none => none
  | some (x, r) => (twoDigits? r).map fun (y, r) => (100 * x + y, r)

/-! ## 1. Faults -/

/-- Why a text is no date or date-time: it has none of the forms, or a part is out of range. -/
inductive IsoFault where
  | malformed
  | year (n : Nat)
  | month
  | day
  | hour
  | minute
  | second
  | offset (microseconds : Int)
  deriving DecidableEq, Repr

namespace IsoFault

/-- A span of time by its days, seconds and microseconds, of which only the days may be negative. -/
def spanText (microseconds : Int) : Text :=
  let days := Int.fdiv microseconds 86400000000
  let rest := (Int.fmod microseconds 86400000000).toNat
  let part (name : String) (n : Int) : List Text :=
    if n = 0 then [] else [Text.ofString name ++ '=' :: intText n]
  Text.ofString "datetime.timedelta("
    ++ Text.join [',', ' '] (part "days" days ++ part "seconds" (rest / 1000000)
      ++ part "microseconds" (rest % 1000000)) ++ [')']

/-- The wording of a fault of a text. -/
def message (t : Text) : IsoFault → Text
  | malformed => Text.ofString "Invalid isoformat string: " ++ Text.quoted t
  | year n => Text.ofString "year " ++ natText n ++ Text.ofString " is out of range"
  | month => Text.ofString "month must be in 1..12"
  | day => Text.ofString "day is out of range for month"
  | hour => Text.ofString "hour must be in 0..23"
  | minute => Text.ofString "minute must be in 0..59"
  | second => Text.ofString "second must be in 0..59"
  | offset o => Text.ofString ("offset must be a timedelta strictly between "
      ++ "-timedelta(hours=24) and timedelta(hours=24), not ") ++ spanText o ++ ['.']

end IsoFault

/-! ## 2. Dates -/

/-- A date whose parts are in their ranges. -/
def Date.checked (d : Date) : Except IsoFault Date :=
  if d.year = 0 ∨ 9999 < d.year then .error (.year d.year)
  else if d.month = 0 ∨ 12 < d.month then .error .month
  else if d.isInMonth then .ok d
  else .error .day

/-- A date as it is written: by month and day, or by week and day of the week. -/
inductive WrittenDate where
  | calendar (d : Date)
  | week (year week day : Nat)
  deriving DecidableEq, Repr

namespace WrittenDate

/-- The weekday of the first of January, Monday being 0. -/
def firstWeekday (year : Nat) : Nat := (Int.fmod (Date.firstDay year + 3) 7).toNat

/-- Whether a year has a 53rd week: it begins on a Thursday, or on a Wednesday in a leap year. -/
def hasLongYear (year : Nat) : Bool :=
  firstWeekday year == 3 || (firstWeekday year == 2 && Date.isLeap year)

/-- The date that is written. The first week of a year is the one with its first Thursday. -/
def date : WrittenDate → Except IsoFault Date
  | calendar d => d.checked
  | week year n day =>
    if n = 0 ∨ 53 < n ∨ day = 0 ∨ 7 < day then .error .malformed
    else if n = 53 ∧ (year = 0 ∨ !hasLongYear year) then .error .malformed
    else if year = 0 then .error .month
    else
      let shift : Int := if firstWeekday year > 3 then 7 else 0
      let monday := Date.firstDay year - (firstWeekday year : Int) + shift
      let (y, m, d) := Date.ofDays (monday + ((n - 1) * 7 + (day - 1) : Nat))
      (⟨y.toNat, m, d⟩ : Date).checked

/-- Read a week, after its `W`: two digits and, if the text goes on, a day. -/
def readWeek? (year : Nat) (hyphens goesOn : Bool) (t : Text) : Option WrittenDate :=
  match twoDigits? t with
  | none => none
  | some (w, r) =>
    if goesOn then
      match if hyphens then Text.dropFront? ['-'] r else some r with
      | some (c :: _) => (Text.asciiDigit? c).map fun d => week year w d
      | _ => none
    else some (week year w 1)

/-- Read a month and a day, of which the second may follow a hyphen. -/
def readDay? (year : Nat) (hyphens : Bool) (t : Text) : Option WrittenDate :=
  match twoDigits? t with
  | none => none
  | some (month, r) =>
    match if hyphens then Text.dropFront? ['-'] r else some r with
    | none => none
    | some r => (twoDigits? r).map fun (day, _) => calendar ⟨year, month, day⟩

/-- Read a date that takes up `width` characters. -/
def read? (width : Nat) (t : Text) : Option WrittenDate :=
  match fourDigits? t with
  | none => none
  | some (year, r) =>
    let (hyphens, r) := match r with
      | '-' :: r => (true, r)
      | r => (false, r)
    match r with
    | 'W' :: r => readWeek? year hyphens (decide ((if hyphens then 8 else 7) < width)) r
    | r => readDay? year hyphens r

/-- The number of characters of the date at the front of a date-time. -/
def widthIn (t : Text) : Nat :=
  match t.drop 4 with
  | '-' :: 'W' :: _ =>
    if t[8]? = some '-' then
      if (t[10]?.bind Text.asciiDigit?).isSome then 8 else 10
    else 8
  | '-' :: _ => 10
  | 'W' :: r =>
    let digits := ((r.drop 2).takeWhile fun c => (Text.asciiDigit? c).isSome).length
    if digits < 2 then 7 + digits else if digits % 2 = 1 then 7 else 8
  | _ => 8

end WrittenDate

/-- How many bytes a text takes up. -/
def byteCount : Text → Nat
  | [] => 0
  | c :: t => c.utf8Size + byteCount t

/-- The date a text writes. -/
def Date.ofIso (t : Text) : Except IsoFault Date :=
  let size := byteCount t
  if size = 7 ∨ size = 8 ∨ size = 10 then
    match WrittenDate.read? size t with
    | some d => d.date
    | none => .error .malformed
  else .error .malformed

/-! ## 3. The time of day -/

/-- A time of day, or an offset, as read; `complete` says that nothing was left over. -/
structure Clock where
  hour : Nat
  minute : Nat
  second : Nat
  microsecond : Nat
  complete : Bool
  deriving DecidableEq, Repr

/-- Whether a text is at its end. -/
def atEnd (t : Text) : Bool :=
  match t with
  | [] => true
  | c :: _ => c == '\x00'

/-- What follows a two-digit part of a time of day. -/
inductive Following where
  | nothing (complete : Bool)
  | part (rest : Text)
  | fraction (rest : Text)
  | broken
  deriving DecidableEq, Repr

/-- Look at what follows a part, in extended or basic form. -/
def following (extended : Bool) : Text → Following
  | [] => .nothing true
  | c :: r =>
    if r.isEmpty && c.toNat < 128 then .nothing (c == '\x00')
    else if extended && c == ':' then .part r
    else if c == '.' || c == ',' then .fraction r
    else if extended then .broken
    else .part (c :: r)

/-- Read a fraction of a second; digits after the sixth are cut. -/
def readFraction? (r : Text) : Option (Nat × Bool) :=
  let width := min 6 r.length
  match (r.take width).mapM Text.asciiDigit? with
  | none => none
  | some ds =>
    let rest := (r.drop width).dropWhile fun c => (Text.asciiDigit? c).isSome
    some (Text.numberOf ds * Nat.pow 10 (6 - width), atEnd rest)

/-- Read a time of day: `HH`, then minutes, seconds and a fraction as far as they are given. -/
def Clock.read? (t : Text) : Option Clock :=
  match twoDigits? t with
  | none => none
  | some (h, r) =>
    let extended := r.head? == some ':'
    match following extended r with
    | .broken => none
    | .nothing complete => some ⟨h, 0, 0, 0, complete⟩
    | .fraction r => (readFraction? r).map fun (us, complete) => ⟨h, 0, 0, us, complete⟩
    | .part r =>
      match twoDigits? r with
      | none => none
      | some (m, r) =>
        match following extended r with
        | .broken => none
        | .nothing complete => some ⟨h, m, 0, 0, complete⟩
        | .fraction r => (readFraction? r).map fun (us, complete) => ⟨h, m, 0, us, complete⟩
        | .part r =>
          match twoDigits? r with
          | none => none
          | some (s, r) =>
            match following extended r with
            | .broken => none
            | .nothing complete => some ⟨h, m, s, 0, complete⟩
            | .fraction r | .part r =>
              (readFraction? r).map fun (us, complete) => ⟨h, m, s, us, complete⟩

/-- The length of an offset. Below one second there is none. -/
def Clock.offset (c : Clock) (negative : Bool) : Int :=
  let seconds := c.hour * 3600 + c.minute * 60 + c.second
  if seconds = 0 then 0
  else
    let o : Int := seconds * 1000000 + c.microsecond
    if negative then -o else o

/-- Whether a character begins an offset. -/
def isOffsetSign (c : Char) : Bool := c == '+' || c == '-' || c == 'Z'

/-- Read a time of day with its offset. -/
def Clock.readWithOffset? (t : Text) : Option (Clock × Option Int) :=
  match Clock.read? (t.takeWhile fun c => !isOffsetSign c) with
  | none => none
  | some c =>
    match t.dropWhile fun c => !isOffsetSign c with
    | [] => if c.complete then some (c, none) else none
    | 'Z' :: r => if atEnd r then some (c, some 0) else none
    | sign :: r =>
      match Clock.read? r with
      | some o => if o.complete then some (c, some (o.offset (sign == '-'))) else none
      | none => none

/-! ## 4. Dates with a time -/

/-- A date-time whose parts are in their ranges. The offset is looked at first, the date next. -/
def DateTime.checked (d : WrittenDate) (c : Clock) (offset : Option Int) :
    Except IsoFault DateTime :=
  let date := d.date
  match date, offset with
  | .error .malformed, _ => .error .malformed
  | date, some o =>
    if DateTime.dayLength ≤ o.natAbs then .error (.offset o) else timed date (some o)
  | date, none => timed date none
where
  /-- The date with the time of day and an offset. -/
  timed (date : Except IsoFault Date) (offset : Option Int) : Except IsoFault DateTime :=
    match date with
    | .error e => .error e
    | .ok d =>
      if 24 ≤ c.hour then .error .hour
      else if 60 ≤ c.minute then .error .minute
      else if 60 ≤ c.second then .error .second
      else .ok ⟨d, c.hour, c.minute, c.second, c.microsecond, offset⟩

/-- The date-time a text writes; a date alone is its midnight. -/
def DateTime.ofIso (t : Text) : Except IsoFault DateTime :=
  if byteCount t < 7 then .error .malformed
  else
    let width := WrittenDate.widthIn t
    match WrittenDate.read? width t with
    | none => .error .malformed
    | some d =>
      match t.drop width with
      | [] => DateTime.checked d ⟨0, 0, 0, 0, true⟩ none
      | _ :: r =>
        match Clock.readWithOffset? r with
        | some (c, offset) => DateTime.checked d c offset
        | none => .error .malformed

/-! ## 5. Dates in queries -/

/-- Read a date of a query. -/
def Date.read? (t : Text) : Option Date := (Date.ofIso t).toOption

/-- Read a date-time of a query; a capital `Z` anywhere stands for the offset `+00:00`. -/
def DateTime.read? (t : Text) : Option DateTime :=
  (DateTime.ofIso (Text.replaceChar 'Z' ['+', '0', '0', ':', '0', '0'] t)).toOption

/-- Whether a token begins like a date: digits of any script in the places of `YYYY-MM-DD`. -/
def looksLikeDate (t : Text) : Bool :=
  match t with
  | a :: b :: c :: d :: '-' :: e :: f :: '-' :: g :: h :: _ =>
    [a, b, c, d, e, f, g, h].all Text.isDigit
  | _ => false

end TableService
