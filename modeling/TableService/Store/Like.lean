import TableService.Store.Cell

/-!
# Patterns

In a pattern `%` stands for any text and `_` for any character; after the escape character, if
there is one, each stands for itself. **Letters of the ASCII alphabet match in either case**, all
other characters only themselves. A text ends at its first NUL, and so does a pattern.

A pattern is read into a list of parts first, and matched by recursion on that list.
-/

namespace TableService
namespace Store

/-- A part of a pattern. -/
inductive PatternPart where
  | anyText
  | anyChar
  | exactly (c : Char)
  deriving DecidableEq, Repr

namespace Pattern

/-- The part that a character of a pattern stands for. -/
def part (c : Char) : PatternPart :=
  if c = '%' then .anyText else if c = '_' then .anyChar else .exactly c

/-- Read a pattern. One that ends in the escape character matches nothing. -/
def read (escape : Option Char) : Text → Option (List PatternPart)
  | [] => some []
  | c :: r =>
    if some c = escape then
      match r with
      | [] => none
      | d :: r => (read escape r).map (.exactly d :: ·)
    else (read escape r).map (part c :: ·)

/-- Whether two characters are the same up to ASCII case. -/
def sameLetter (c d : Char) : Bool := c.toLower == d.toLower

/-- Whether a text matches a list of parts. -/
def accepts : List PatternPart → Text → Bool
  | [], t => t.isEmpty
  | .anyText :: ps, [] => accepts ps []
  | .anyText :: ps, c :: t => accepts ps (c :: t) || accepts (.anyText :: ps) t
  | .anyChar :: _, [] => false
  | .anyChar :: ps, _ :: t => accepts ps t
  | .exactly _ :: _, [] => false
  | .exactly c :: ps, d :: t => sameLetter c d && accepts ps t
termination_by ps t => (ps.length, t.length)

/-- A text up to its first NUL. -/
def visible (t : Text) : Text := t.takeWhile (· != '\x00')

/-- Whether a text matches a pattern. -/
def like (escape : Option Char) (pattern t : Text) : Bool :=
  match read escape (visible pattern) with
  | some ps => accepts ps (visible t)
  | none => false

end Pattern

/-- Whether a cell matches a pattern; both are taken as texts. -/
def Cell.like (escape : Option Char) (pattern x : Cell) : Bool :=
  match pattern.toText?, x.toText? with
  | some p, some t => Pattern.like escape p t
  | _, _ => false

/-- The operands of a list as they are sent together: after a date all date-times are sent as
dates, after a date-time all dates as date-times. A column of a custom type takes each as it is. -/
def alike (c : Column) (ls : List Literal) : List Literal :=
  match c.type, ls with
  | .custom, ls => ls
  | _, .date d :: ls => .date d :: ls.map fun l => match l with
    | .moment t => .date t.date
    | l => l
  | _, .moment t :: ls => .moment t :: ls.map fun l => match l with
    | .date d => .moment (DateTime.ofDate d)
    | l => l
  | _, ls => ls

/-- How the store reads its cells. It has no arrays. -/
def reading : Sql.Reading Cell where
  isNull := Cell.isNull
  compare := fun c x l => x.compare (Cell.operand c l)
  matchesPattern := fun _ c x l => Cell.like none (Cell.sent c l) x
  array := fun _ _ _ _ => false
  beside := alike

end Store
end TableService
