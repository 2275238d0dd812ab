import TableService.Http.Path
import TableService.Resource.Perform

/-!
# Routes

The routes of a service: one for each operation that is both exposed and selected, two for an
update, and one for each action. **Routes of the collection come before those of single rows**, so a
path such as `/users/search` is never taken for a lookup value. The path of an operation on one row
has the lookup column of that operation as its parameter, that of a detail action the lookup column
of retrieval.
-/

namespace TableService
namespace Http

/-- What a route leads to. -/
inductive Endpoint where
  | operation (op : Operation)
  | action (name : Text)
  deriving DecidableEq, Repr

/-- A route. An action has no status of its own. -/
structure Route where
  path : Text
  methods : List Text
  name : Text
  status : Option Nat
  tags : List Text
  endpoint : Endpoint
  deriving DecidableEq, Repr

namespace Route

/-- The path template of a route. -/
def template (r : Route) : PathTemplate := .read r.path

/-- Where the routes of a service begin: the given path or `/` and the name of the resource,
without slashes at the end. -/
def basePath (v : Service) (given : Option Text) : Text :=
  Text.trimEnd (· == '/') ((nonempty? given).getD ('/' :: v.name))

/-- The path of single rows, by a lookup column. -/
def rowPath (base : Text) (c : Column) : Text := base ++ '/' :: '{' :: c.name ++ ['}']

/-- The path of a whole collection. -/
def collectionPath (base : Text) : Text := if base = [] then ['/'] else base

/-- The route of an operation. -/
def ofOperation (v : Service) (path : Text) (method : String) (status : Nat) (op : Operation) :
    Route :=
  ⟨path, [method.toList], v.name ++ '-' :: op.name, some status, [v.name], .operation op⟩

/-- The route of an action; each of its methods counts once. -/
def ofAction (v : Service) (path : Text) (a : BoundAction) : Route :=
  ⟨path, (Text.sortTexts a.methods).eraseDups, v.name ++ '-' :: a.name, none, [v.name],
    .action a.name⟩

/-- The routes of an operation. -/
def routesOf (v : Service) (base : Text) : Operation → List Route
  | .list => [ofOperation v (collectionPath base) "GET" 200 .list]
  | .create => [ofOperation v (collectionPath base) "POST" 201 .create]
  | .search => [ofOperation v (base ++ Text.ofString "/search") "GET" 200 .search]
  | .retrieve => [ofOperation v (rowPath base v.binding.keys.retrieve) "GET" 200 .retrieve]
  | .update =>
    let path := rowPath base v.binding.keys.update
    [ofOperation v path "PUT" 200 .update, ofOperation v path "PATCH" 200 .update]
  | .destroy => [ofOperation v (rowPath base v.binding.keys.destroy) "DELETE" 200 .destroy]

/-- The operations on the collection, in the order of their routes. -/
def collectionOperations : List Operation := [.list, .create, .search]

/-- The route of an action below a path. -/
def below (v : Service) (path : Text) (a : BoundAction) : Route :=
  ofAction v (path ++ '/' :: a.path) a

/-- The routes of a service from a base path, for some operations. -/
def table (v : Service) (base : Text) (selected : List Operation) : List Route :=
  let chosen (ops : List Operation) := (ops.filter (· ∈ selected)).flatMap (routesOf v base)
  chosen collectionOperations
    ++ (v.actions.filter (!·.detail)).map (below v base)
    ++ chosen Operation.details
    ++ (v.actions.filter (·.detail)).map (below v (rowPath base v.binding.keys.retrieve))

/-- The problem of a path in which names of parameters are repeated. -/
def repeatedNames (path : Text) (names : List Text) : Problem :=
  .invalidValue (Text.ofString (if names.length > 1 then "Duplicated param names "
      else "Duplicated param name ")
    ++ commaList (Text.sortTexts names) ++ Text.ofString " at path " ++ path)

/-- The problem of a parameter of an unknown kind. -/
def unknownKind : Problem := .outside (Text.ofString "AssertionError") []

/-- Check that no path repeats a parameter or has one of an unknown kind. -/
def checkPaths : List Route → Except Problem Unit
  | [] => .ok ()
  | r :: rs =>
    if r.template.hasKnownKinds then
      match r.template.repeated with
      | [] => checkPaths rs
      | names => .error (repeatedNames r.path names)
    else .error unknownKind

/-- The routes of a service. The selected operations are those of the subset that are exposed. -/
def register (v : Service) (base : Option Text) (subset : OperationChoice) :
    Except Problem (List Route) :=
  match subset.resolve with
  | .error e => .error e
  | .ok ops =>
    let routes := table v (basePath v base) (ops.filter (· ∈ v.exposed))
    match checkPaths routes with
    | .error e => .error e
    | .ok _ => .ok routes

end Route
end Http
end TableService
