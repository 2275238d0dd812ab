import TableService.Time.Iso
import TableService.Number.Literal

/-!
# Dates and times in bodies

A value of a body is read as a date-time more strictly than a token of a query, and in one more
form. The text is `YYYY-MM-DD`, one of `T`, `t`, `_` and a blank, `HH:MM` with optional seconds and
fraction, and an optional offset `Z` or `±HH:MM`. **A number counts seconds from 1970-01-01**, or
milliseconds if it is beyond twenty thousand million, and lands in UTC between the years 0 and
9999.

The year 0 can be read and is in no calendar, so who asked for a date has to refuse it
(`Date.isValid`).
-/

namespace TableService

/-! ## 1. Numbers -/

namespace Binary64

/-- The seconds and microseconds of a number of seconds: the whole part below it, and the rest to
the nearest microsecond, which may be a whole second. Every step is rounded to a number. -/
def secondsAndMicros? (x : Binary64) : Option (Int × Nat) :=
  match x with
  | finite s m q =>
    let (n, d) := signedRatio s m q
    match ofRatio false (n % (d : Int)).toNat d with
    | finite _ m q =>
      let (a, b) := ratio m q
      match ofRatio false (a * 1000000) b with
      | finite _ m q =>
        let (a, b) := ratio m q
        some (n / (d : Int), (2 * a + b) / (2 * b))
      | _ => none
    | _ => none
  | _ => none

/-- A number of milliseconds in seconds. -/
def inSeconds : Binary64 → Binary64
  | finite s m q =>
    let (n, d) := ratio m q
    ofRatio s n (d * 1000)
  | x => x

end Binary64

namespace DateTime

/-- The largest number of seconds; what lies beyond counts milliseconds. -/
def largestSeconds : Int := 20000000000

/-- The date-time, in UTC, of seconds and microseconds from 1970-01-01. -/
def ofEpoch (seconds : Int) (micros : Nat) : Option DateTime :=
  let seconds := seconds + micros / 1000000
  if seconds < -62167219200 ∨ seconds > 253402300799 then none
  else
    let day := Int.fdiv seconds 86400
    let clock := (seconds - day * 86400).toNat * 1000000 + micros % 1000000
    let (year, month, day) := Date.ofDays day
    some (atClock ⟨year.toNat, month, day⟩ clock (some 0))

/-- The date-time of a whole timestamp. -/
def ofTimestamp? (n : Int) : Option DateTime :=
  if n.natAbs ≤ largestSeconds.toNat then ofEpoch n 0
  else ofEpoch (Int.fdiv n 1000) ((Int.fmod n 1000).toNat * 1000)

/-- Whether a number counts seconds. -/
def countsSeconds : Binary64 → Bool
  | .finite _ m q => Binary64.compareInt largestSeconds (.finite false m q) != .lt
  | _ => false

/-- The date-time of a timestamp with a fraction. -/
def ofReal? (x : Binary64) : Option DateTime :=
  match (if countsSeconds x then x else x.inSeconds).secondsAndMicros? with
  | some (seconds, micros) => ofEpoch seconds micros
  | none => none

/-- The timestamp a text writes: digits, a sign before them, and a fraction after a point. -/
def ofNumberText? (t : Text) : Option DateTime :=
  let (negative, r) := NumberLiteral.takeSign t
  let whole := r.takeWhile Char.isDigit
  match r.dropWhile Char.isDigit with
  | [] =>
    if whole.isEmpty then none
    else
      let n : Int := Text.numberOf (whole.filterMap Text.asciiDigit?)
      ofTimestamp? (if negative then -n else n)
  | '.' :: _ =>
    if t.all fun c => c.toNat < 128 then
      match NumberLiteral.read? t with
      | some x => ofReal? x.toBinary64
      | none => none
    else none
  | _ => none

/-! ## 2. Text -/

/-- Read `YYYY-MM-DD` at the front. The year may be 0. -/
def takeDate? (t : Text) : Option (Date × Text) :=
  match twoDigits? t with
  | none => none
  | some (century, r) =>
    match twoDigits? r with
    | some (year, '-' :: r) =>
      match twoDigits? r with
      | some (month, '-' :: r) =>
        match twoDigits? r with
        | some (day, r) =>
          let d : Date := ⟨100 * century + year, month, day⟩
          if d.isInMonth then some (d, r) else none
        | none => none
      | _ => none
    | _ => none

/-- Read `YYYY-MM-DD`. -/
def readDate? (t : Text) : Option Date :=
  match takeDate? t with
  | some (d, []) => some d
  | _ => none

/-- Whether a character may stand between a date and a time. -/
def isSeparator (c : Char) : Bool := c == 'T' || c == 't' || c == ' ' || c == '_'

/-- A fraction of a second, cut to microseconds, and what follows it. -/
def takeFraction? (t : Text) : Option (Nat × Text) :=
  let digits := (t.takeWhile Char.isDigit).filterMap Text.asciiDigit?
  if digits.isEmpty then none
  else
    let kept := digits.take 6
    some (Text.numberOf kept * Nat.pow 10 (6 - kept.length), t.dropWhile Char.isDigit)

/-- Hours and minutes of an offset, in microseconds. -/
def offsetSize? (t : Text) : Option Int :=
  match twoDigits? t with
  | none => none
  | some (h, r) =>
    let r := match r with
      | ':' :: r => r
      | r => r
    match twoDigits? r with
    | some (m, []) =>
      if m < 60 ∧ h < 24 then some (((h * 60 + m) * 60000000 : Nat) : Int) else none
    | _ => none

/-- The offset at the end of a time; `some none` if there is none. -/
def zone? : Text → Option (Option Int)
  | [] => some none
  | ['Z'] | ['z'] => some (some 0)
  | '+' :: r => (offsetSize? r).map some
  | '-' :: r | '\u2212' :: r => (offsetSize? r).map fun o => some (-o)
  | _ => none

/-- A time of day with its offset, on a date. -/
def strictClock? (d : Date) (t : Text) : Option DateTime :=
  match twoDigits? t with
  | some (h, ':' :: r) =>
    match twoDigits? r with
    | none => none
    | some (m, r) =>
      let rest : Option (Nat × Nat × Text) :=
        match r with
        | ':' :: r =>
          match twoDigits? r with
          | none => none
          | some (s, c :: r) =>
            if c == '.' || c == ',' then (takeFraction? r).map fun (us, r) => (s, us, r)
            else some (s, 0, c :: r)
          | some (s, []) => some (s, 0, [])
        | r => some (0, 0, r)
      match rest with
      | none => none
      | some (s, us, r) =>
        match zone? r with
        | none => none
        | some offset =>
          let t : DateTime := ⟨d, h, m, s, us, offset⟩
          if t.hasClock then some t else none
  | _ => none

/-- A date and a time of day in a text. -/
def readStrict? (t : Text) : Option DateTime :=
  match takeDate? t with
  | some (d, c :: r) => if isSeparator c then strictClock? d r else none
  | _ => none

/-- A date-time in a text: written out, or as a timestamp. -/
def readBody? (t : Text) : Option DateTime :=
  match readStrict? t with
  | some x => some x
  | none => ofNumberText? t

end DateTime
end TableService
