import TableService.Resource.Binding
import TableService.Store.Write

/-!
# Searching

A search looks for a text in the searchable fields of a resource, **anywhere in the field and in
either case**. What is looked for is made into a pattern with every special character escaped, so
a `%` in it is only a `%`. Without a backend a search finds nothing.
-/

namespace TableService

/-- How a resource is searched. A pattern search finds at most a number of rows. -/
inductive SearchBackend where
  | nothing
  | pattern (limit : Option Int)
  deriving DecidableEq, Repr, Inhabited

namespace SearchBackend

/-- Whether a character means something in a pattern. -/
def isSpecial (c : Char) : Bool := c == '\\' || c == '%' || c == '_'

/-- A text in which every special character is escaped. -/
def escape (t : Text) : Text := t.flatMap fun c => if isSpecial c then ['\\', c] else [c]

/-- The pattern of the texts that contain a text. -/
def containing (t : Text) : Text := '%' :: escape t ++ ['%']

/-- The rows in which a pattern search finds a text, in the default order of the resource. The
columns to read, or why there are none, are looked at once there is a field to search in. -/
def findPattern (b : Binding) (limit : Option Int) (columns : Except Problem (List Column))
    (s : Store) (t : Text) : Except Problem (List Members) :=
  match b.searchable.filterMap b.table.column? with
  | [] => .ok []
  | fields => do
    let columns ← columns
    let order ← (Sql.compileOrder b.table (b.defaultOrdering.getD [])).mapError QueryFault.problem
    let found ← (s.search columns fields (containing t) order limit).mapError
      (·.problem "select" b.table)
    Store.Row.valuesOfAll columns found.rows

/-- The rows in which a search finds what was sent. Something that is no text has no pattern. -/
def find (backend : SearchBackend) (b : Binding) (columns : Except Problem (List Column))
    (s : Store) (sent : Option Occurrence) : Except Problem (List Members) :=
  match backend, sent with
  | _, none | _, some (.text []) | .nothing, _ => .ok []
  | .pattern limit, some (.text t) => findPattern b limit columns s t
  | .pattern _, some (.other v) =>
    if v.isEmptyish || b.searchable.isEmpty then .ok [] else .error .wrongAttribute

end SearchBackend
end TableService
