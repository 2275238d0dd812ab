import TableService.Resource.Search
import TableService.Resource.Action
import TableService.Resource.Part

/-!
# Services

A service answers requests about one resource: the six operations, of which it exposes some, and
its actions. An operation may be replaced by a handler, which **sees the request and nothing else**.
Actions are answered by handlers too; a detail action finds the lookup value in the path converted
to the type of its column. An action that is declared with the service may take the place of one of
its parts.
-/

namespace TableService

/-- A request, without anything of its transport. -/
structure Request where
  query : Params
  path : Members
  body : Value
  deriving Repr, Inhabited

/-- What answers a request without the store. -/
abbrev Handler := Request → Except Problem Value

/-- An action with what answers it. -/
structure BoundAction extends Action where
  handler : Handler

/-- Put an action among others; one of the same name is replaced where it stands. -/
def BoundAction.put (a : BoundAction) : List BoundAction → List BoundAction
  | [] => [a]
  | b :: bs => if b.name = a.name then a :: bs else b :: put a bs

/-- A resource with all that answers its requests. -/
structure Service where
  binding : Binding
  search : SearchBackend := .nothing
  exposed : List Operation := Operation.all
  handlers : List (Operation × Handler) := []
  actions : List BoundAction := []
  substitutes : List (Part × Handler) := []

namespace Service

/-! ## 1. Making a service -/

/-- The name of the resource. -/
def name (v : Service) : Text := v.binding.name

/-- Handlers for operations given by name. -/
def namedHandlers : List (Text × Handler) → Except Problem (List (Operation × Handler))
  | [] => .ok []
  | (t, h) :: hs =>
    match Operation.named t with
    | .error e => .error e
    | .ok op =>
      match namedHandlers hs with
      | .error e => .error e
      | .ok rest => .ok ((op, h) :: rest)

/-- The actions that take the place of parts, by part. -/
def substitutesOf (declared : List BoundAction) : List (Part × Handler) :=
  declared.filterMap fun a => (Part.ofName? a.name).map fun p => (p, a.handler)

/-- Check that nothing has taken the place of a part. -/
def requireAmong (substitutes : List (Part × Handler)) (p : Part) : Except Problem Unit :=
  if (substitutes.lookup p).isSome then .error p.fault else .ok ()

/-- Check that nothing has taken the place of a part. -/
def require (v : Service) (p : Part) : Except Problem Unit := requireAmong v.substitutes p

/-- Replace an operation by a handler. -/
def override (v : Service) (operation : Text) (h : Handler) : Except Problem Service := do
  v.require .override
  let op ← Operation.named operation
  return { v with handlers := (op, h) :: v.handlers }

/-- Add an action. -/
def addAction (v : Service) (a : BoundAction) : Service := { v with actions := a.put v.actions }

/-- Several actions, of which the declared ones come first, in the order of their names. -/
def collectActions (declared added : List BoundAction) : List BoundAction :=
  let sorted := declared.mergeSort fun a b => Text.compareText a.name b.name != .gt
  (sorted ++ added).foldl (fun before a => a.put before) []

/-- An action as it is declared. One in the place of what the service keeps cannot be run. -/
def declaredAction (a : BoundAction) : BoundAction :=
  if Part.ofName? a.name = some .state then { a with handler := fun _ => .error .wrongType } else a

/-- A service for a binding. -/
def create (b : Binding) (search : SearchBackend) (operations : OperationChoice)
    (handlers : List (Text × Handler)) (declared added : List BoundAction) :
    Except Problem Service := do
  let substitutes := substitutesOf declared
  requireAmong substitutes .creation
  let exposed ← operations.resolve
  let hs ← namedHandlers handlers
  requireAmong substitutes .collectActions
  requireAmong substitutes .addAction
  return ⟨b, search, exposed, hs, collectActions (declared.map declaredAction) added, substitutes⟩

/-- The operations that the service exposes. -/
def operations (v : Service) : Except Problem (List Operation) := do
  v.require .operations
  return v.exposed

/-! ## 2. Actions -/

/-- The value of the path for a column, converted to the column's type. -/
def pathValue (v : Service) (c : Column) (r : Request) : Except Problem Value := do
  v.require .lookupRequest
  match r.path.lookup c.name with
  | none => .error (.ofFieldErrors [⟨c.name, .missingPathParameter⟩] pathSchema (some v.name))
  | some raw => c.lookupValue v.binding.table raw

/-- The request an action sees: a detail action gets its lookup value converted. -/
def actionRequest (v : Service) (a : BoundAction) (r : Request) : Except Problem Request :=
  if a.detail then
    let c := v.binding.keys.retrieve
    match v.pathValue c r with
    | .error e => .error e
    | .ok x =>
      .ok { r with
        path := r.path.map fun (name, y) => if name = c.name then (name, x) else (name, y) }
  else .ok r

/-- Run an action. -/
def run (v : Service) (a : BoundAction) (r : Request) : Except Problem Value :=
  match v.actionRequest a r with
  | .error e => .error e
  | .ok r' => a.handler r'

/-- The action with a name. -/
def action? (v : Service) (name : Text) : Option BoundAction :=
  v.actions.find? fun a => a.name == name

/-- Run the action with a name. -/
def runNamed (v : Service) (name : Text) (r : Request) : Except Problem Value := do
  v.require .runAction
  match v.action? name with
  | none => .error (.unknownName name)
  | some a => v.run a r

end Service
end TableService
