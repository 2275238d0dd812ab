import TableService.Text.Case
import TableService.Value

/-!
# Actions

An action is a named endpoint beside the operations. Its path defaults to its name with dashes
for underscores, and slashes around it are dropped; its methods are written in upper case and
default to `GET`.
-/

namespace TableService

/-- A named endpoint of a resource. A detail action is about one row. -/
structure Action where
  name : Text
  path : Text
  methods : List Text
  detail : Bool
  deriving DecidableEq, Repr, Inhabited

namespace Action

/-- An action, with defaults for what is missing or empty. -/
def build (name : Text) (path : Option Text) (methods : Option (List Text)) (detail : Bool) :
    Action :=
  let dashed := Text.replaceChar '_' ['-'] name
  let path := match path with
    | none | some [] => dashed
    | some p => p
  let methods := match methods with
    | none | some [] => [['G', 'E', 'T']]
    | some ms => ms
  ⟨name, Text.trim (· == '/') path, methods.map Text.upper, detail⟩

end Action
end TableService
