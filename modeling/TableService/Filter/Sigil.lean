import TableService.Query.Fault

/-!
# The spelling of a predicate

One query value spells one predicate. The rules are tried in order and the first that fits
decides: nothing and `!` are the null tests; a number is an equality; `>=`, `<=`, `>`, `<` begin
an order comparison; `..` makes a range; a comma makes a list (`@>`, `@`, `!` in front choose
which); `!~*`, `~*`, `!~`, `~` begin a pattern; `!` begins an inequality; anything else is an
equality.

`Predicate.spell` is the writer beside this reader. It writes the tokens as they were read, which
is why spelling a predicate that was read gives back **exactly the text it was read from**.
-/

namespace TableService

/-- A failure to read a token, as a fault of the query. -/
def Oversized.fault : Oversized → QueryFault
  | .oversizedInteger => .oversizedInteger

namespace Operand

/-- Read several tokens. -/
def readAll : List Text → Except Oversized (List Operand)
  | [] => .ok []
  | t :: ts =>
    match read t with
    | .error e => .error e
    | .ok x =>
      match readAll ts with
      | .error e => .error e
      | .ok xs => .ok (x :: xs)

/-- The kinds among operands, each once. -/
def kinds (xs : List Operand) : List Kind := (xs.map kind).eraseDups

/-- Read the tokens of a list, which have to be of one kind. -/
def readList (field : Option Text) (tokens : List Text) : Except QueryFault (List Operand) :=
  match readAll tokens with
  | .error e => .error e.fault
  | .ok xs =>
    if (kinds xs).length > 1 then .error (.mixedKinds field (kinds xs)) else .ok xs

end Operand

namespace Predicate

/-! ## 1. Reading -/

/-- An order comparison with the token that follows its sign. -/
def readComparison (relation : Relation) (field : Option Text) (token : Text) :
    Except QueryFault Predicate :=
  if token = [] then .error (.unorderedOperand relation.operator field token)
  else match Operand.read token with
    | .error e => .error e.fault
    | .ok x =>
      if x.isOrdered then .ok (.compare relation x)
      else .error (.unorderedOperand relation.operator field token)

/-- A range `low..high`; `raw` is the whole value, for the message. -/
def readRange (negated : Bool) (field : Option Text) (raw body : Text) :
    Except QueryFault Predicate :=
  match Text.piecesAtPair '.' '.' body with
  | [low, high] =>
    if low = [] ∨ high = [] then .error (.rangeShape field raw)
    else match Operand.read low with
      | .error e => .error e.fault
      | .ok x =>
        match Operand.read high with
        | .error e => .error e.fault
        | .ok y =>
          if x.kind = y.kind then .ok (.between negated x y)
          else .error (.rangeKinds field x.kind y.kind)
  | _ => .error (.rangeShape field raw)

/-- A list test over the comma-separated tokens of its body. -/
def readListTest (test : List Operand → Predicate) (field : Option Text) (body : Text) :
    Except QueryFault Predicate :=
  match Operand.readList field (Text.pieces ',' body) with
  | .error e => .error e
  | .ok xs => .ok (test xs)

/-- A value with a comma: what stands in front chooses the test. -/
def readCommaForm (field : Option Text) (raw : Text) : Except QueryFault Predicate :=
  match raw with
  | '@' :: '>' :: body => readListTest (.array .contained) field body
  | '@' :: body => readListTest (.array .contains) field body
  | '!' :: body => readListTest (.among true) field body
  | body => readListTest (.among false) field body

/-- An equality or inequality with a token. -/
def readEquality (relation : Relation) (token : Text) : Except QueryFault Predicate :=
  match Operand.read token with
  | .error e => .error e.fault
  | .ok x => .ok (.compare relation x)

/-- A value with neither range nor list in it. -/
def readPlain (raw : Text) : Except QueryFault Predicate :=
  match raw with
  | '!' :: '~' :: '*' :: r => .ok (.pattern true true (.ofText r))
  | '~' :: '*' :: r => .ok (.pattern true false (.ofText r))
  | '!' :: '~' :: r => .ok (.pattern false true (.ofText r))
  | '~' :: r => .ok (.pattern false false (.ofText r))
  | '!' :: r => readEquality .ne r
  | r => readEquality .eq r

/-- A value that does not begin with a comparison sign. -/
def readForm (field : Option Text) (raw : Text) : Except QueryFault Predicate :=
  if Text.hasPair '.' '.' raw then
    match raw with
    | '!' :: body => readRange true field raw body
    | body => readRange false field raw body
  else if ',' ∈ raw then readCommaForm field raw
  else readPlain raw

/-- Read the predicate that a query value spells. -/
def read (field : Option Text) (raw : Text) : Except QueryFault Predicate :=
  if raw = [] then .ok (.null true)
  else if raw = ['!'] then .ok (.null false)
  else if isNumber raw then readEquality .eq raw
  else match raw with
    | '>' :: '=' :: r => readComparison .ge field r
    | '<' :: '=' :: r => readComparison .le field r
    | '>' :: r => readComparison .gt field r
    | '<' :: r => readComparison .lt field r
    | _ => readForm field raw

/-! ## 2. Writing -/

/-- The sign of an order comparison. -/
def sign : Relation → Text
  | .eq => []
  | .ne => ['!']
  | .gt => ['>']
  | .ge => ['>', '=']
  | .lt => ['<']
  | .le => ['<', '=']

/-- The sign of a pattern test. -/
def patternSign (caseless negated : Bool) : Text :=
  (if negated then ['!'] else []) ++ '~' :: if caseless then ['*'] else []

/-- The sign of an array test. -/
def arraySign : ArrayTest → Text
  | .contains => ['@']
  | .contained => ['@', '>']

/-- The query value that spells a predicate. -/
def spell : Predicate → Text
  | .null true => []
  | .null false => ['!']
  | .compare r x => sign r ++ x.token
  | .pattern caseless negated x => patternSign caseless negated ++ x.token
  | .among negated xs =>
    (if negated then ['!'] else []) ++ Text.join [','] (xs.map Operand.token)
  | .between negated low high =>
    (if negated then ['!'] else []) ++ Text.join ['.', '.'] [low.token, high.token]
  | .array test xs => arraySign test ++ Text.join [','] (xs.map Operand.token)

end Predicate

namespace Filter

/-! ## 3. Several values under one key -/

/-- Read the values of one field, each a predicate of its own. -/
def readValues (field : Text) : List Text → Except QueryFault (List Filter)
  | [] => .ok []
  | raw :: raws =>
    match Predicate.read (some field) raw with
    | .error e => .error e
    | .ok p =>
      match readValues field raws with
      | .error e => .error e
      | .ok fs => .ok (.test field p :: fs)

/-- Parts that all have to hold; one part stands for itself. -/
def merge : List Filter → Filter
  | [f] => f
  | fs => .all fs

/-- The filter of the values of one field: all of them have to hold. -/
def ofValues (field : Text) (raws : List Text) : Except QueryFault Filter :=
  match readValues field raws with
  | .error e => .error e
  | .ok [] => .error (.noValue field)
  | .ok fs => .ok (merge fs)

end Filter
end TableService
