import TableService.Filter.Sigil
import TableService.Text.Percent

/-!
# Grouped expressions

A group is written

```
group := '(' term ('|' term)* ')'
term  := ('and' | 'or' | 'not') '=' group | field ['=' value]
```

where a value runs to the next `|` or `)`, and keys and values are percent-decoded once more
after the text is cut, so that `%7C` and `%29` write a `|` and a `)` inside a value.

**A level is read into slots**: the values of one field share the slot of the field's first
occurrence, and a nested group has a slot of its own. Values are read as predicates when their
level closes, so a fault in an inner level comes before one that stands further right.

The depth of reading is bounded by the length of the text; each call spends one unit of it.
-/

namespace TableService

/-- A place in a level: the values of one field, or a nested group. -/
inductive Slot where
  | values (field : Text) (raws : List Text)
  | nested (f : Filter)
  deriving Repr, Inhabited

namespace Slot

/-- Put a value into the slot of its field, which is made if there is none. -/
def addValue (field value : Text) : List Slot → List Slot
  | [] => [.values field [value]]
  | .values f raws :: slots =>
    if f = field then .values f (raws ++ [value]) :: slots
    else .values f raws :: addValue field value slots
  | .nested g :: slots => .nested g :: addValue field value slots

/-- The filters of a closed level. -/
def close : List Slot → Except QueryFault (List Filter)
  | [] => .ok []
  | .nested g :: slots =>
    match close slots with
    | .error e => .error e
    | .ok fs => .ok (g :: fs)
  | .values field raws :: slots =>
    match Filter.ofValues field raws with
    | .error e => .error e
    | .ok f =>
      match close slots with
      | .error e => .error e
      | .ok fs => .ok (f :: fs)

end Slot

namespace Group

/-- Whether a character ends a key. -/
def endsKey (c : Char) : Bool := c == '=' || c == '|' || c == ')' || c == '('

/-- Whether a character ends a value. -/
def endsValue (c : Char) : Bool := c == '|' || c == ')'

/-- The text before the first character of a class. -/
def before (stop : Char → Bool) (t : Text) : Text := t.takeWhile fun c => !stop c

/-- The text from the first character of a class on. -/
def onward (stop : Char → Bool) (t : Text) : Text := t.dropWhile fun c => !stop c

theorem before_append_onward (stop : Char → Bool) (t : Text) :
    before stop t ++ onward stop t = t := List.takeWhile_append_dropWhile

/-- Nothing in front of the cut is in the class. -/
theorem not_stop_of_mem_before {stop : Char → Bool} {t : Text} {c : Char}
    (h : c ∈ before stop t) : stop c = false := by
  have := List.all_takeWhile (p := fun c => !stop c) (l := t)
  simpa using List.all_eq_true.1 this c h

/-- What follows the cut, if anything, begins in the class. -/
theorem stop_of_onward_eq_cons {stop : Char → Bool} {t r : Text} {c : Char}
    (h : onward stop t = c :: r) : stop c = true := by
  have := List.head?_dropWhile_not (fun c => !stop c) t
  unfold onward at h
  simpa [h] using this

mutual

/-- Read a group at the front: its filters, the place after it, and the text after it. -/
def readGroup (allowed : List Text) (kind : Connective) (depth pos : Nat) (t : Text) :
    Except QueryFault (List Filter × Nat × Text) :=
  match depth with
  | 0 => .error (.group kind .unclosed pos)
  | depth + 1 =>
    match t with
    | '(' :: ')' :: _ => .error (.group kind .emptyGroup (pos + 1))
    | '(' :: r => readTerm allowed kind depth (pos + 1) [] r
    | t => .error (.group kind (.expected '(' t.head?) pos)

/-- Read a term at the front, after the terms that fill `slots`, and the rest of its level. -/
def readTerm (allowed : List Text) (kind : Connective) (depth pos : Nat) (slots : List Slot)
    (t : Text) : Except QueryFault (List Filter × Nat × Text) :=
  match depth with
  | 0 => .error (.group kind .unclosed pos)
  | depth + 1 =>
    let written := before endsKey t
    let rest := onward endsKey t
    let key := Percent.decode written
    let after := pos + written.length
    if key = [] then .error (.group kind .missingName after)
    else match Connective.ofKey? key with
      | some inner =>
        match rest with
        | '=' :: r =>
          match readGroup allowed kind depth (after + 1) r with
          | .error e => .error e
          | .ok (fs, pos, r) =>
            readNext allowed kind depth pos (slots ++ [.nested (Filter.combine inner fs)]) r
        | r => .error (.group kind (.expected '=' r.head?) after)
      | none =>
        if key ∉ allowed then .error (.unknownField key (some pos))
        else match rest with
          | '=' :: r =>
            let value := before endsValue r
            readNext allowed kind depth (after + 1 + value.length)
              (Slot.addValue key (Percent.decode value) slots) (onward endsValue r)
          | r => readNext allowed kind depth after (Slot.addValue key [] slots) r

/-- Go on after a term: with another one, or with the end of the level. -/
def readNext (allowed : List Text) (kind : Connective) (depth pos : Nat) (slots : List Slot)
    (t : Text) : Except QueryFault (List Filter × Nat × Text) :=
  match depth with
  | 0 => .error (.group kind .unclosed pos)
  | depth + 1 =>
    match t with
    | '|' :: r => readTerm allowed kind depth (pos + 1) slots r
    | ')' :: r =>
      match Slot.close slots with
      | .error e => .error e
      | .ok fs => .ok (fs, pos + 1, r)
    | [] => .error (.group kind .unclosed pos)
    | c :: _ => .error (.group kind (.unexpected c) pos)

end

/-- Calls enough to read any text of a length: at most three for each of its characters. -/
def enough (t : Text) : Nat := 3 * t.length + 3

/-- Read a whole text as a group under a connective. -/
def read (allowed : List Text) (kind : Connective) (t : Text) : Except QueryFault Filter :=
  match readGroup allowed kind (enough t) 0 t with
  | .error e => .error e
  | .ok (fs, pos, r) =>
    if r = [] then .ok (Filter.combine kind fs)
    else .error (.group kind (.trailing r) pos)

end Group
end TableService
