import TableService.Resource.Operation

/-!
# Parts of a service

A service does its work in parts, each of which has a name. **An action that is declared under the
name of a part takes its place.** It answers where the part is given a request and nothing else: as
the way into an operation, or as what the operation does as it is built in. Any other part fails as
soon as it is needed, for its place is taken by something that cannot do its work.
-/

namespace TableService

/-- The parts of a service that an action may take the place of. `state` is what a service keeps;
there the action is lost, and running it fails. -/
inductive Part where
  | entry (op : Operation)
  | builtIn (op : Operation)
  | dispatch
  | runAction
  | plan
  | listColumns
  | listSelection
  | lookup
  | lookupRequest
  | notFound
  | rowColumns
  | operations
  | override
  | addAction
  | collectActions
  | creation
  | state
  deriving DecidableEq, Repr, Inhabited

namespace Part

/-- The names of the parts that operations share. -/
def shared : List (Text × Part) := [
  (Text.ofString "dispatch", dispatch),
  (Text.ofString "perform_action", runAction),
  (Text.ofString "build_list_plan", plan),
  (Text.ofString "list_columns", listColumns),
  (Text.ofString "select_list_columns", listSelection),
  (Text.ofString "_lookup_value", lookup),
  (Text.ofString "_with_lookup", lookupRequest),
  (Text.ofString "_not_found", notFound),
  (Text.ofString "_retrieve_columns", rowColumns),
  (Text.ofString "operations", operations),
  (Text.ofString "override", override),
  (Text.ofString "add_action", addAction),
  (Text.ofString "_collect_actions", collectActions),
  (Text.ofString "__init__", creation)]

/-- The names of what a service keeps. -/
def stateNames : List Text := ["binding", "gateway", "search_backend", "exposed", "_handlers",
  "_builtin", "actions"].map Text.ofString

/-- The built-in part with a name: the name of an operation after an underscore. -/
def builtIn? : Text → Option Part
  | '_' :: rest => (Operation.ofName? rest).map builtIn
  | _ => none

/-- The part with a name. -/
def ofName? (name : Text) : Option Part :=
  if name ∈ stateNames then some state
  else ((Operation.ofName? name).map entry).or ((builtIn? name).or (shared.lookup name))

/-- How a part fails when an action is in its place. A part that is given more than a request takes
that for the request, and a part whose result is looked into has none: both lack an attribute. -/
def fault : Part → Problem
  | dispatch | runAction | plan | lookupRequest => .wrongAttribute
  | _ => .wrongType

end Part
end TableService
