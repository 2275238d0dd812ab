import TableService.Value
import TableService.Text.Quoted

/-!
# Printing JSON

The text is plain ASCII: a character outside it is written as one `\u` escape, or as two for a
character beyond the basic plane. Integers are written in full, numbers by their shortest text,
dates and decimals as strings. `text` prints on one line, `indented` one member a line.
-/

namespace TableService
namespace Json

/-- A `\u` escape. -/
def unicodeEscape (n : Nat) : Text := '\\' :: 'u' :: Text.hexText 4 n

/-- One character inside a string. -/
def charText (c : Char) : Text :=
  if c = '"' then ['\\', '"']
  else if c = '\\' then ['\\', '\\']
  else if c = '\n' then ['\\', 'n']
  else if c = '\r' then ['\\', 'r']
  else if c = '\t' then ['\\', 't']
  else if c = '\x08' then ['\\', 'b']
  else if c = '\x0c' then ['\\', 'f']
  else if 32 ≤ c.toNat ∧ c.toNat < 127 then [c]
  else if c.toNat < 0x10000 then unicodeEscape c.toNat
  else
    let n := c.toNat - 0x10000
    unicodeEscape (0xD800 + n / 0x400) ++ unicodeEscape (0xDC00 + n % 0x400)

/-- A string with its quotes. -/
def stringText (t : Text) : Text := '"' :: t.flatMap charText ++ ['"']

/-- A value that is neither list nor object. -/
def literalText : Literal → Text
  | .null => ['n', 'u', 'l', 'l']
  | .boolean true => ['t', 'r', 'u', 'e']
  | .boolean false => ['f', 'a', 'l', 's', 'e']
  | .integer n => intText n
  | .real .nan => ['N', 'a', 'N']
  | .real (.infinite s) => Binary64.signed s ['I', 'n', 'f', 'i', 'n', 'i', 't', 'y']
  | .real x => x.text
  | .text t => stringText t
  | .date d => stringText d.text
  | .moment t => stringText t.text

mutual

/-- A value on one line. -/
def text : Value → Text
  | .literal l => literalText l
  | .decimal x => stringText x.text
  | .list items => '[' :: itemsText items ++ [']']
  | .object members => '{' :: membersText members ++ ['}']
  | .unpaired spelling | .unpairedNames spelling _ => spelling

/-- List items with commas between them. -/
def itemsText : List Value → Text
  | [] => []
  | [v] => text v
  | v :: w :: vs => text v ++ ',' :: ' ' :: itemsText (w :: vs)

/-- Members of an object with commas between them. -/
def membersText : List (Text × Value) → Text
  | [] => []
  | [(n, v)] => stringText n ++ ':' :: ' ' :: text v
  | (n, v) :: m :: ms => stringText n ++ ':' :: ' ' :: text v ++ ',' :: ' ' :: membersText (m :: ms)

end

/-- A new line at an indentation depth. -/
def newLine (depth : Nat) : Text := '\n' :: List.replicate (2 * depth) ' '

mutual

/-- A value with one item or member a line, indented by two blanks. -/
def indented (depth : Nat) : Value → Text
  | .literal l => literalText l
  | .decimal x => stringText x.text
  | .list [] => ['[', ']']
  | .list (v :: vs) =>
    '[' :: newLine (depth + 1) ++ indented (depth + 1) v ++ indentedItems (depth + 1) vs
      ++ newLine depth ++ [']']
  | .object [] => ['{', '}']
  | .object ((n, v) :: ms) =>
    '{' :: newLine (depth + 1) ++ stringText n ++ ':' :: ' ' :: indented (depth + 1) v
      ++ indentedMembers (depth + 1) ms ++ newLine depth ++ ['}']
  | .unpaired spelling | .unpairedNames spelling _ => spelling

/-- The items after the first. -/
def indentedItems (depth : Nat) : List Value → Text
  | [] => []
  | v :: vs => ',' :: newLine depth ++ indented depth v ++ indentedItems depth vs

/-- The members after the first. -/
def indentedMembers (depth : Nat) : List (Text × Value) → Text
  | [] => []
  | (n, v) :: ms =>
    ',' :: newLine depth ++ stringText n ++ ':' :: ' ' :: indented depth v
      ++ indentedMembers depth ms

end

end Json
end TableService
