import TableService.Text.Basic

/-!
# Dates and times

Dates of the proleptic Gregorian calendar, years 1 to 9999, and times of day to the microsecond
with an optional offset from UTC. **The printed form is the extended ISO form**, and it shows no
more than it must: microseconds, and seconds of an offset, only where they are not zero.

Days are also counted from 1970-01-01, for values that arrive as a number of seconds.
-/

namespace TableService

/-- A calendar date. -/
structure Date where
  year : Nat
  month : Nat
  day : Nat
  deriving DecidableEq, Repr, Inhabited

/-- A date with a time of day. The offset from UTC, if there is one, is in microseconds. -/
structure DateTime where
  date : Date
  hour : Nat
  minute : Nat
  second : Nat
  microsecond : Nat
  offset : Option Int
  deriving DecidableEq, Repr, Inhabited

/-- Decimal digits of a number, with zeros in front up to a width. -/
def padded (width n : Nat) : Text :=
  let digits := natText n
  List.replicate (width - digits.length) '0' ++ digits

namespace Date

/-- Whether a year has a 29th of February. -/
def isLeap (year : Nat) : Bool :=
  year % 4 == 0 && (year % 100 != 0 || year % 400 == 0)

/-- The number of days in a month. -/
def daysIn (year month : Nat) : Nat :=
  if month = 2 then (if isLeap year then 29 else 28)
  else if month = 4 ∨ month = 6 ∨ month = 9 ∨ month = 11 then 30
  else 31

/-- Whether the year has the month, and the month the day. -/
def isInMonth (d : Date) : Bool :=
  decide (1 ≤ d.month) && decide (d.month ≤ 12)
    && decide (1 ≤ d.day) && decide (d.day ≤ daysIn d.year d.month)

/-- Whether year, month and day name a date. -/
def isValid (d : Date) : Bool :=
  decide (1 ≤ d.year) && decide (d.year ≤ 9999) && d.isInMonth

/-- The date as `YYYY-MM-DD`. -/
def text (d : Date) : Text :=
  padded 4 d.year ++ '-' :: padded 2 d.month ++ '-' :: padded 2 d.day

/-- The date of a day counted from 1970-01-01. The count runs in eras of 400 years that begin on
the first of March, so that the leap day is the last day of its year. -/
def ofDays (days : Int) : Int × Nat × Nat :=
  let z := days + 719468
  let era := Int.fdiv z 146097
  let dayOfEra := (z - era * 146097).toNat
  let yearOfEra := (dayOfEra - dayOfEra / 1460 + dayOfEra / 36524 - dayOfEra / 146096) / 365
  let dayOfYear := dayOfEra - (365 * yearOfEra + yearOfEra / 4 - yearOfEra / 100)
  let shifted := (5 * dayOfYear + 2) / 153
  let day := dayOfYear - (153 * shifted + 2) / 5 + 1
  let month := if shifted < 10 then shifted + 3 else shifted - 9
  let year : Int := (yearOfEra : Int) + era * 400 + (if month ≤ 2 then 1 else 0)
  (year, month, day)

/-- The day of the first of January of a year, counted from 1970-01-01. -/
def firstDay (year : Nat) : Int :=
  let y := year - 1
  ((365 * y + y / 4 - y / 100 + y / 400 : Nat) : Int) - 719162

end Date

namespace DateTime

/-- Microseconds in a day. -/
def dayLength : Nat := 86400000000

/-- Whether the time of day and the offset lie in their ranges. -/
def hasClock (t : DateTime) : Bool :=
  decide (t.hour < 24) && decide (t.minute < 60) && decide (t.second < 60)
    && decide (t.microsecond < 1000000)
    && match t.offset with
      | none => true
      | some o => decide (o.natAbs < dayLength)

/-- Whether every part lies in its range. -/
def isValid (t : DateTime) : Bool := t.date.isValid && t.hasClock

/-- A fraction of a second, if it is not zero. -/
def fractionText (microsecond : Nat) : Text :=
  if microsecond = 0 then [] else '.' :: padded 6 microsecond

/-- An offset as `±HH:MM`, with seconds and microseconds only if they are not zero. -/
def offsetText (o : Int) : Text :=
  let n := o.natAbs
  let micro := n % 1000000
  let seconds := n / 1000000 % 60
  let minutes := n / 60000000
  (if o < 0 then '-' else '+') :: padded 2 (minutes / 60) ++ ':' :: padded 2 (minutes % 60)
    ++ if seconds = 0 ∧ micro = 0 then [] else ':' :: padded 2 seconds ++ fractionText micro

/-- The time of day as `HH:MM:SS`, with a fraction only if it is not zero. -/
def clockText (t : DateTime) : Text :=
  padded 2 t.hour ++ ':' :: padded 2 t.minute ++ ':' :: padded 2 t.second
    ++ fractionText t.microsecond

/-- The date-time as `YYYY-MM-DDTHH:MM:SS`, then its fraction and its offset. -/
def text (t : DateTime) : Text :=
  t.date.text ++ 'T' :: t.clockText ++ match t.offset with
    | none => []
    | some o => offsetText o

/-- The form in which a date-time is sent: an offset of zero is written `Z`. -/
def sentText (t : DateTime) : Text :=
  if t.offset = some 0 then { t with offset := none }.text ++ ['Z'] else t.text

/-- The form in which the store keeps a date-time: six places always, no offset. -/
def storeText (t : DateTime) : Text :=
  t.date.text ++ ' ' :: padded 2 t.hour ++ ':' :: padded 2 t.minute ++ ':' :: padded 2 t.second
    ++ '.' :: padded 6 t.microsecond

/-- The microsecond of its day at which a date-time lies. -/
def sinceMidnight (t : DateTime) : Nat :=
  ((t.hour * 60 + t.minute) * 60 + t.second) * 1000000 + t.microsecond

/-- Midnight at the beginning of a date. -/
def ofDate (d : Date) : DateTime := ⟨d, 0, 0, 0, 0, none⟩

/-- The time of day that lies a number of microseconds after midnight. -/
def atClock (d : Date) (micros : Nat) (offset : Option Int) : DateTime :=
  ⟨d, micros / 3600000000, micros / 60000000 % 60, micros / 1000000 % 60, micros % 1000000, offset⟩

end DateTime
end TableService
