import TableService.Value
import TableService.Text.Quoted

/-!
# Values in messages

A message shows a value in one of two ways: **plainly**, where a text stands for itself, or
**exactly**, where a text is quoted and a date names its parts, so that values of different types
never look alike.
-/

namespace TableService

/-- Texts with a comma and a blank between them. -/
def commaList (ts : List Text) : Text := Text.join [',', ' '] ts

/-- A date by its parts. -/
def Date.exactText (d : Date) : Text :=
  Text.ofString "datetime.date(" ++ commaList [natText d.year, natText d.month, natText d.day]
    ++ [')']

/-- An offset, by its length in seconds. -/
def offsetName (o : Int) : Text :=
  Text.ofString "TzInfo(" ++ intText (Int.tdiv o 1000000) ++ [')']

/-- A date-time by its parts, the seconds and microseconds only where they are needed. -/
def DateTime.exactText (t : DateTime) : Text :=
  let clock :=
    [natText t.date.year, natText t.date.month, natText t.date.day, natText t.hour,
      natText t.minute]
    ++ (if t.second = 0 ∧ t.microsecond = 0 then [] else [natText t.second])
    ++ (if t.microsecond = 0 then [] else [natText t.microsecond])
  let zone := match t.offset with
    | none => []
    | some o => [Text.ofString "tzinfo=" ++ offsetName o]
  Text.ofString "datetime.datetime(" ++ commaList (clock ++ zone) ++ [')']

/-- A literal, exactly. -/
def Literal.exactText : Literal → Text
  | .null => ['N', 'o', 'n', 'e']
  | .boolean true => ['T', 'r', 'u', 'e']
  | .boolean false => ['F', 'a', 'l', 's', 'e']
  | .integer n => intText n
  | .real x => x.text
  | .text t => Text.quoted t
  | .date d => d.exactText
  | .moment t => t.exactText

namespace Value

mutual

/-- A value, exactly. -/
def exactText : Value → Text
  | .literal l => l.exactText
  | .decimal x => Text.ofString "Decimal('" ++ x.text ++ ['\'', ')']
  | .list items => '[' :: itemsText items ++ [']']
  | .object members => '\x7b' :: membersText members ++ ['\x7d']
  | .unpaired spelling | .unpairedNames spelling _ => spelling

/-- List items, exactly, with commas between them. -/
def itemsText : List Value → Text
  | [] => []
  | [v] => exactText v
  | v :: w :: vs => exactText v ++ ',' :: ' ' :: itemsText (w :: vs)

/-- Members of an object, exactly, with commas between them. -/
def membersText : List (Text × Value) → Text
  | [] => []
  | [(n, v)] => Text.quoted n ++ ':' :: ' ' :: exactText v
  | (n, v) :: m :: ms =>
    Text.quoted n ++ ':' :: ' ' :: exactText v ++ ',' :: ' ' :: membersText (m :: ms)

end

/-- A value, plainly. -/
def plainText : Value → Text
  | .literal (.text t) => t
  | .literal (.date d) => d.text
  | .literal (.moment t) =>
    t.date.text ++ ' ' :: t.clockText ++ match t.offset with
      | none => []
      | some o => DateTime.offsetText o
  | .decimal x => x.text
  | v => exactText v

end Value
end TableService
