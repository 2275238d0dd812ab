import TableService.Query.Fault
import TableService.Text.Percent

/-!
# Query parameters

The parameters of a request are a list of keys with what was sent under each, in the order in
which the keys first appeared. **A key that was sent several times has all its values**, in
order; nothing is overwritten. A caller that builds parameters by hand may also put something
under a key that is no text.
-/

namespace TableService

/-- One value under a key. -/
inductive Occurrence where
  | text (t : Text)
  | other (v : Value)
  deriving Repr, Inhabited

/-- What was sent under a key. -/
inductive Parameter where
  | one (x : Occurrence)
  | many (xs : List Occurrence)
  deriving Repr, Inhabited

/-- The parameters of a request. -/
abbrev Params := List (Text × Parameter)

namespace Occurrence

/-- An occurrence as a value. -/
def toValue : Occurrence → Value
  | .text t => .text t
  | .other v => v

/-- A value as an occurrence. -/
def ofValue : Value → Occurrence
  | .text t => .text t
  | v => .other v

end Occurrence

namespace Parameter

/-- The values under a key, in order. -/
def occurrences : Parameter → List Occurrence
  | .one x => [x]
  | .many xs => xs

/-- A parameter as a value: a list only if the key was repeated. -/
def toValue : Parameter → Value
  | .one x => x.toValue
  | .many xs => .list (xs.map Occurrence.toValue)

/-- A value as a parameter. -/
def ofValue : Value → Parameter
  | .list vs => .many (vs.map Occurrence.ofValue)
  | v => .one (.ofValue v)

/-- A parameter with one more value. -/
def push (p : Parameter) (x : Occurrence) : Parameter := .many (p.occurrences ++ [x])

end Parameter

namespace Params

/-- Parameters with one more value under a key. -/
def add (key : Text) (x : Occurrence) : Params → Params
  | [] => [(key, .one x)]
  | (k, p) :: ps => if k = key then (k, p.push x) :: ps else (k, p) :: add key x ps

/-- The parameters as an object. -/
def toValue (ps : Params) : Value := .object (ps.map fun (k, p) => (k, p.toValue))

/-! ## 1. Query strings -/

/-- A `+` stands for a blank; the rest is percent-encoding. -/
def decodePart (t : Text) : Text :=
  Percent.decode (t.map fun c => if c = '+' then ' ' else c)

/-- The key and value of one piece of a query string; without a `=` the value is empty. -/
def decodePair (piece : Text) : Text × Text :=
  let (key, value) := Text.cutAt '=' piece
  (decodePart key, decodePart (value.getD []))

/-- The key and value of each piece between `&`s that is not empty. -/
def pairs (query : Text) : List (Text × Text) :=
  ((Text.pieces '&' query).filter fun p => !p.isEmpty).map decodePair

/-- Collect pairs by key. -/
def ofPairs (kvs : List (Text × Text)) : Params :=
  kvs.foldl (fun ps (k, v) => add k (.text v) ps) []

/-- The parameters of a query string; question marks in front of it are no part of it. -/
def ofQuery (query : Text) : Params := ofPairs (pairs (query.dropWhile (· == '?')))

/-! ## 2. Keys that may appear only once -/

/-- The value under a key; a key that was sent more than once is refused. -/
def single (key : Text) (ps : Params) : Except QueryFault (Option Occurrence) :=
  match ps.lookup key with
  | none => .ok none
  | some (.one x) => .ok (some x)
  | some (.many []) => .ok none
  | some (.many [x]) => .ok (some x)
  | some (.many _) => .error (.repeatedKey key)

/-! ## 3. The keys with a meaning of their own -/

/-- The key of the page number. -/
def pageKey : Text := ['p', 'a', 'g', 'e']

/-- The key of the page size. -/
def sizeKey : Text := ['s', 'i', 'z', 'e']

/-- The key of the sort specification. -/
def sortKey : Text := QueryFault.sortKey

/-- The key of the free-text query. -/
def searchKey : Text := ['q']

/-- The keys that name no field. -/
def reserved : List Text :=
  [pageKey, sizeKey, sortKey, searchKey] ++ Connective.all.map Connective.key

end Params
end TableService
