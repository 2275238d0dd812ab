import TableService.Value
import TableService.Number.Literal
import TableService.Json.Printer

/-!
# Reading JSON

A request body is JSON text. Reading is recursive descent over the characters, and **a refusal
names what was expected and the place** where reading stopped. Beyond the standard, `NaN` and the
infinities are numbers, a later member of an object replaces an earlier one of the same name, and
a number with a point or an exponent is a binary64 number while any other is an integer of any
size (up to the limit of all integers read from text).

Lists and objects may be nested to a fixed depth. All else is bounded by the length of the text,
which is what makes reading total.
-/

namespace TableService
namespace Json

/-- Why a text is no JSON. -/
inductive Reason where
  | expectingValue
  | expectingName
  | expectingColon
  | expectingComma
  | extraData
  | unterminatedString
  | invalidEscape
  | invalidUnicodeEscape
  | controlCharacter
  | oversizedInteger
  | nestedTooDeep
  deriving DecidableEq, Repr

/-- The wording of a reason. -/
def Reason.message : Reason → String
  | .expectingValue => "Expecting value"
  | .expectingName => "Expecting property name enclosed in double quotes"
  | .expectingColon => "Expecting ':' delimiter"
  | .expectingComma => "Expecting ',' delimiter"
  | .extraData => "Extra data"
  | .unterminatedString => "Unterminated string starting at"
  | .invalidEscape => "Invalid \\escape"
  | .invalidUnicodeEscape => "Invalid \\uXXXX escape"
  | .controlCharacter => "Invalid control character at"
  | .oversizedInteger => "Exceeds the limit for integer string conversion"
  | .nestedTooDeep => "Nested too deep"

/-- A refusal: the reason, and how many characters were left at the place it speaks of. -/
structure Refusal where
  reason : Reason
  left : Nat
  deriving DecidableEq, Repr

/-- Refuse at the front of a text. -/
def refuse {α : Type} (reason : Reason) (t : Text) : Except Refusal α := .error ⟨reason, t.length⟩

/-- A refusal with its place in the text: line, column and count of characters before it. -/
def Refusal.message (t : Text) (e : Refusal) : Text :=
  let before := t.take (t.length - e.left)
  let line := before.count '\n' + 1
  let column := (before.reverse.takeWhile (· != '\n')).length + 1
  Text.ofString e.reason.message ++ Text.ofString ": line " ++ natText line
    ++ Text.ofString " column " ++ natText column ++ Text.ofString " (char "
    ++ natText before.length ++ [')']

/-- How deep lists and objects may be nested. -/
def maxNesting : Nat := 960

/-- White space between the parts of a JSON text. -/
def isSpace (c : Char) : Bool := c == ' ' || c == '\t' || c == '\n' || c == '\r'

/-- The text after white space. -/
def skipSpace (t : Text) : Text := t.dropWhile isSpace

/-! ## 1. Strings -/

/-- The character that follows a backslash, where it stands for a single character. -/
def escape? (c : Char) : Option Char :=
  match c with
  | '"' => some '"'
  | '\\' => some '\\'
  | '/' => some '/'
  | 'b' => some '\x08'
  | 'f' => some '\x0c'
  | 'n' => some '\n'
  | 'r' => some '\r'
  | 't' => some '\t'
  | _ => none

/-- The value of a hexadecimal digit. -/
def hexValue? (c : Char) : Option Nat :=
  if '0' ≤ c ∧ c ≤ '9' then some (c.toNat - 48)
  else if 'a' ≤ c ∧ c ≤ 'f' then some (c.toNat - 87)
  else if 'A' ≤ c ∧ c ≤ 'F' then some (c.toNat - 55)
  else none

/-- The number written by four hexadecimal digits. -/
def hexFour? (a b c d : Char) : Option Nat :=
  match hexValue? a, hexValue? b, hexValue? c, hexValue? d with
  | some w, some x, some y, some z => some (((16 * w + x) * 16 + y) * 16 + z)
  | _, _, _, _ => none

/-- The code units of a string up to its closing quote, and what follows; `start` is the text from
its opening quote on. A `\u` escape at the very end of the text counts as cut off. -/
def readUnits (start : Text) : Text → Except Refusal (List Nat × Text)
  | [] => refuse .unterminatedString start
  | '"' :: r => .ok ([], r)
  | ['\\'] => refuse .unterminatedString start
  | '\\' :: 'u' :: a :: b :: c :: d :: r =>
    match if r.isEmpty then none else hexFour? a b c d with
    | none => refuse .invalidUnicodeEscape ('u' :: a :: b :: c :: d :: r)
    | some n => (readUnits start r).map fun (ns, r) => (n :: ns, r)
  | '\\' :: c :: r =>
    if c = 'u' then refuse .invalidUnicodeEscape (c :: r)
    else match escape? c with
      | none => refuse .invalidEscape ('\\' :: c :: r)
      | some e => (readUnits start r).map fun (ns, r) => (e.toNat :: ns, r)
  | c :: r =>
    if c.toNat < 32 then refuse .controlCharacter (c :: r)
    else (readUnits start r).map fun (ns, r) => (c.toNat :: ns, r)

/-- Whether a code unit is one half of a pair. -/
def isSurrogate (n : Nat) : Bool := decide (0xD800 ≤ n) && decide (n < 0xE000)

/-- Code units with every pair of surrogates, first half first, put together. -/
def joinPairs : List Nat → List Nat
  | [] => []
  | [n] => [n]
  | n :: m :: r =>
    if 0xD800 ≤ n ∧ n < 0xDC00 ∧ 0xDC00 ≤ m ∧ m < 0xE000 then
      (0x10000 + (n - 0xD800) * 0x400 + (m - 0xDC00)) :: joinPairs r
    else n :: joinPairs (m :: r)

/-- A string after its opening quote, as code points, and what follows its closing quote. -/
def readString (start t : Text) : Except Refusal (List Nat × Text) :=
  (readUnits start t).map fun (ns, r) => (joinPairs ns, r)

/-- The text of code points; `none` if one of them is half a pair. -/
def textOf? (ns : List Nat) : Option Text :=
  if ns.any isSurrogate then none else some (ns.map Char.ofNat)

/-- Code points as they are spelled in a string. -/
def spelling (ns : List Nat) : Text :=
  '"' :: ns.flatMap (fun n => if isSurrogate n then unicodeEscape n else charText (Char.ofNat n))
    ++ ['"']

/-- The value of a string. -/
def stringValue (ns : List Nat) : Value :=
  match textOf? ns with
  | some t => .text t
  | none => .unpaired (spelling ns)

/-! ## 2. Numbers -/

/-- The ASCII digits at the front, as values, and what follows them. -/
def takeDigits : Text → List Nat × Text
  | [] => ([], [])
  | c :: r =>
    match Text.asciiDigit? c with
    | some d => let (ds, rest) := takeDigits r; (d :: ds, rest)
    | none => ([], c :: r)

/-- The digits before the point: a zero alone, or digits that begin with another one. -/
def takeWhole (t : Text) : Option (List Nat × Text) :=
  match takeDigits t with
  | ([], _) => none
  | (0 :: _, _) => some ([0], t.drop 1)
  | (ds, r) => some (ds, r)

/-- An exponent at the front, if a complete one stands there. -/
def takeExponent (t : Text) : Option Int × Text :=
  match t with
  | c :: r =>
    if c = 'e' ∨ c = 'E' then
      let (negative, r) := NumberLiteral.takeSign r
      match takeDigits r with
      | ([], _) => (none, t)
      | (ds, r) =>
        let n : Int := Text.numberOf ds
        (some (if negative then -n else n), r)
    else (none, t)
  | [] => (none, [])

/-- A number at the front, and what follows it. -/
def readNumber (t : Text) : Except Refusal (Value × Text) :=
  let (negative, r) := match t with
    | '-' :: r => (true, r)
    | t => (false, t)
  match takeWhole r with
  | none => refuse .expectingValue t
  | some (whole, r) =>
    let (fraction, r) := match r with
      | '.' :: s =>
        match takeDigits s with
        | ([], _) => (none, r)
        | (ds, s) => (some ds, s)
      | _ => (none, r)
    let (exponent, r) := takeExponent r
    let x : NumberLiteral := ⟨negative, whole, fraction, exponent⟩
    if x.isInteger then
      if whole.length > maxIntegerDigits then refuse .oversizedInteger t
      else .ok (.integer x.toInt, r)
    else .ok (.real x.toBinary64, r)

/-! ## 3. Values -/

/-- The words that are values. -/
def words : List (Text × Value) := [
  (['n', 'u', 'l', 'l'], .null),
  (['t', 'r', 'u', 'e'], .boolean true),
  (['f', 'a', 'l', 's', 'e'], .boolean false),
  (['N', 'a', 'N'], .real .nan),
  (['I', 'n', 'f', 'i', 'n', 'i', 't', 'y'], .real (.infinite false)),
  (['-', 'I', 'n', 'f', 'i', 'n', 'i', 't', 'y'], .real (.infinite true))]

/-- A word at the front, and what follows it. -/
def readWord? (t : Text) : Option (Value × Text) :=
  words.findSome? fun (word, v) => (Text.dropFront? word t).map fun r => (v, r)

/-- A member put into an object: the name keeps the place where it first stood. -/
def putMember (name : List Nat) (v : Value) : List (List Nat × Value) → List (List Nat × Value)
  | [] => [(name, v)]
  | (n, w) :: ms => if n = name then (n, v) :: ms else (n, w) :: putMember name v ms

/-- The members whose names are texts. -/
def namedMembers (ms : List (List Nat × Value)) : List (Text × Value) :=
  ms.filterMap fun (n, v) => (textOf? n).map fun t => (t, v)

/-- An object with given members. -/
def objectOf (ms : List (List Nat × Value)) : Value :=
  let named := namedMembers ms
  if named.length = ms.length then .object named
  else
    let texts := ms.map fun (n, v) => spelling n ++ ':' :: ' ' :: text v
    .unpairedNames ('\x7b' :: Text.join [',', ' '] texts ++ ['\x7d']) named

mutual

/-- A value at the front, and what follows it; `fuel` bounds the steps and `levels` the nesting. -/
def readValue (fuel levels : Nat) (t : Text) : Except Refusal (Value × Text) :=
  match fuel with
  | 0 => refuse .expectingValue t
  | fuel + 1 =>
    match t with
    | '"' :: r => (readString t r).map fun (ns, r) => (stringValue ns, r)
    | '[' :: r =>
      match levels with
      | 0 => refuse .nestedTooDeep t
      | levels + 1 =>
        match skipSpace r with
        | ']' :: r => .ok (.list [], r)
        | r => readItems fuel levels [] r
    | '{' :: r =>
      match levels with
      | 0 => refuse .nestedTooDeep t
      | levels + 1 =>
        match skipSpace r with
        | '}' :: r => .ok (.object [], r)
        | r => readMembers fuel levels [] r
    | t =>
      match readWord? t with
      | some x => .ok x
      | none => readNumber t

/-- The rest of a list from one of its items on; `before` holds the earlier items, last first. -/
def readItems (fuel levels : Nat) (before : List Value) (t : Text) :
    Except Refusal (Value × Text) :=
  match fuel with
  | 0 => refuse .expectingValue t
  | fuel + 1 =>
    match readValue fuel levels t with
    | .error e => .error e
    | .ok (v, r) =>
      match skipSpace r with
      | ']' :: r => .ok (.list (v :: before).reverse, r)
      | ',' :: r => readItems fuel levels (v :: before) (skipSpace r)
      | r => refuse .expectingComma r

/-- The rest of an object from one of its members on. -/
def readMembers (fuel levels : Nat) (before : List (List Nat × Value)) (t : Text) :
    Except Refusal (Value × Text) :=
  match fuel with
  | 0 => refuse .expectingValue t
  | fuel + 1 =>
    match t with
    | '"' :: r =>
      match readString t r with
      | .error e => .error e
      | .ok (name, r) =>
        match skipSpace r with
        | ':' :: r =>
          match readValue fuel levels (skipSpace r) with
          | .error e => .error e
          | .ok (v, r) =>
            let members := putMember name v before
            match skipSpace r with
            | '}' :: r => .ok (objectOf members, r)
            | ',' :: r => readMembers fuel levels members (skipSpace r)
            | r => refuse .expectingComma r
        | r => refuse .expectingColon r
    | t => refuse .expectingName t

end

/-- Read a whole text as JSON. -/
def read (t : Text) : Except Refusal Value :=
  match readValue (2 * t.length + 2) maxNesting (skipSpace t) with
  | .error e => .error e
  | .ok (v, r) =>
    match skipSpace r with
    | [] => .ok v
    | r => refuse .extraData r

end Json
end TableService
