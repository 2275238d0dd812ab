import TableService.Resource.Service
import TableService.Resource.Plan

/-!
# Performing operations

What the six operations do. **An operation gives its answer together with the store after it.** A
write that the store refuses leaves it as it was, and so does one whose row cannot be read back. A
row that was read back is validated, and a fault found there is the answer although the row stays
written.

`Service.dispatch` refuses what is not exposed and prefers a handler. `Service.enter` is the way in
to an operation by its own name.
-/

namespace TableService

/-- An answer, with the store after it. -/
abbrev Answered := Except Problem Value × Store

namespace Service

/-! ## 1. Finding and showing rows -/

/-- The test that a column has a value. NaN equals nothing. A list or an object is compared as JSON
text, with which only a JSON column is. -/
def equalTest (t : ColumnType) : Value → Except Store.StoreFault Sql.Test
  | .null => .ok (.isNull false)
  | .boolean b => .ok (.equalsConstant false b)
  | .real .nan => .ok (.compare .eq .null)
  | .literal l => .ok (.compare .eq l)
  | .decimal x => .ok (.compare .eq (.real x.toBinary64))
  | .unpaired _ => .error .unencodable
  | v => if t = .json then .ok (.compare .eq (.text (Json.text v))) else .error .foreign

/-- The condition that a column has a value. -/
def equals (c : Column) (v : Value) : Except Store.StoreFault Sql.Condition :=
  (equalTest c.type v).map (.test c)

/-- The value that a row is looked up by. -/
def lookupValue (v : Service) (c : Column) (r : Request) : Except Problem Value := do
  v.require .lookup
  v.pathValue c r

/-- The problem of there being no row. -/
def notFound (v : Service) (c : Column) (x : Value) : Problem :=
  match v.require .notFound with
  | .ok _ => .notFound v.name c.name x none
  | .error e => e

/-- A row, validated. -/
def present (s : Schema) (row : Members) : Except Problem Value :=
  (s.validate (.object row) false).map .object

/-- Several rows, validated. -/
def presentAll (s : Schema) : List Members → Except Problem (List Value)
  | [] => .ok []
  | row :: rows =>
    match present s row with
    | .error e => .error e
    | .ok v =>
      match presentAll s rows with
      | .error e => .error e
      | .ok vs => .ok (v :: vs)

/-! ## 2. The operations -/

/-- The plan of a listing. -/
def plan (v : Service) (ps : Params) : Except Problem Plan := do
  v.require .plan
  let p ← Plan.build v.binding ps
  v.require .listColumns
  return p

/-- The columns of a listing without conditions. -/
def listSelection (v : Service) : Except Problem (List Column) := do
  v.require .listSelection
  v.require .listColumns
  return v.binding.listColumns

/-- The query for all rows of the resource. -/
def selectAll (v : Service) : Except Problem Sql.Select := do
  return ⟨v.binding.table, ← v.listSelection, none, [], none⟩

/-- The columns that are read of a single row. -/
def rowColumns (v : Service) : Except Problem (List Column) := do
  v.require .rowColumns
  return v.binding.retrieveColumns

/-- The rows a plan finds, with how many there were before its page was cut out. -/
def fetch (v : Service) (s : Store) (p : Plan) : Except Problem (List Members × Nat) := do
  let q ← p.select.mapError QueryFault.problem
  let found ← (s.select q).mapError (·.problem "select" v.binding.table)
  return (← Store.Row.valuesOfAll q.columns found.rows, found.total)

/-- The rows of a listing with the numbers of its page. An empty page counts no rows. -/
def envelope (p : PageSpec) (rows : List Value) (total : Nat) : Except Problem Value :=
  (p.envelope rows (if rows.isEmpty then 0 else total)).mapError PageFault.problem

/-- List rows, on a page or all of them. -/
def list (v : Service) (s : Store) (r : Request) : Except Problem Value := do
  let plan ← v.plan r.query
  let (found, total) ← v.fetch s plan
  let rows ← presentAll v.binding.schemas.list found
  if plan.page.enabled then envelope plan.page rows total else return .list rows

/-- Names that a statement has for itself, so that no value can be given under them. -/
def statementNames : List Text := [Text.ofString "self", Text.ofString "fn"]

/-- The members of validated data that are columns of the table. -/
def columnValues (v : Service) (data : Members) : Except Problem Members :=
  let values := data.filter fun (name, _) => (v.binding.table.column? name).isSome
  if values.any fun (name, _) => name ∈ statementNames then .error .wrongType else .ok values

/-- The values that a body gives to columns, validated by a schema. -/
def bodyValues (v : Service) (schema : Schema) (r : Request) : Except Problem Members := do
  v.columnValues (← schema.validate r.body true)

/-- Create a row from the body. -/
def createRow (v : Service) (s : Store) (r : Request) : Answered :=
  let b := v.binding
  match v.bodyValues b.schemas.create r with
  | .error e => (.error e, s)
  | .ok values =>
    match s.insert values with
    | .error e => (.error (e.problem "insert" b.table), s)
    | .ok (row, s') =>
      match row.values b.table.columns with
      | .error e => (.error e, s)
      | .ok values =>
        let known := values.filter fun (name, _) => name ∈ b.schemas.create.fieldNames
        (present b.schemas.create known, s')

/-- Fetch one row. -/
def retrieve (v : Service) (s : Store) (r : Request) : Except Problem Value := do
  let b := v.binding
  let c := b.keys.retrieve
  let x ← v.lookupValue c r
  let columns ← v.rowColumns
  match ← (s.lookUp? columns (equals c x)).mapError (·.problem "select" b.table) with
  | none => .error (v.notFound c x)
  | some row => present b.schemas.retrieve (← row.values columns)

/-- What an update is about: the lookup value, the values to assign, and the columns to read back.
Without a value there is nothing to assign, which only a table without a primary key allows. -/
def changeFor (v : Service) (r : Request) : Except Problem (Value × Members × List Column) := do
  let x ← v.lookupValue v.binding.keys.update r
  let values ← v.bodyValues v.binding.schemas.update r
  let columns ← v.rowColumns
  if values.isEmpty && !v.binding.table.primaryKey.isEmpty then .error .wrongType
  else return (x, values, columns)

/-- Update a row by the values of the body that are columns. -/
def updateRow (v : Service) (s : Store) (r : Request) : Answered :=
  let b := v.binding
  let c := b.keys.update
  match v.changeFor r with
  | .error e => (.error e, s)
  | .ok (x, values, columns) =>
    match s.update (equals c x) values with
    | .error e => (.error (e.problem "update" b.table), s)
    | .ok (none, s') => (.error (v.notFound c x), s')
    | .ok (some row, s') =>
      match row.values columns with
      | .error e => (.error e, s)
      | .ok shown => (present b.schemas.retrieve shown, s')

/-- Delete a row; the answer is its lookup value. -/
def destroyRow (v : Service) (s : Store) (r : Request) : Answered :=
  let b := v.binding
  let c := b.keys.destroy
  match v.lookupValue c r with
  | .error e => (.error e, s)
  | .ok x =>
    match s.delete (equals c x) with
    | .error e => (.error (e.problem "delete" b.table), s)
    | .ok (none, s') => (.error (v.notFound c x), s')
    | .ok (some row, s') =>
      match Store.Codec.decode c.type (row.cell c) with
      | .error e => (.error e, s)
      | .ok key => (.ok key, s')

/-- Search for what was sent under the search key. -/
def searchRows (v : Service) (s : Store) (r : Request) : Except Problem Value := do
  let sent ← (r.query.single Params.searchKey).mapError QueryFault.problem
  let rows ← v.search.find v.binding v.listSelection s sent
  return .list (← presentAll v.binding.schemas.list rows)

/-- Carry out an operation as it is built in. -/
def perform (v : Service) (s : Store) (op : Operation) (r : Request) : Answered :=
  match op with
  | .list => (v.list s r, s)
  | .create => v.createRow s r
  | .retrieve => (v.retrieve s r, s)
  | .update => v.updateRow s r
  | .destroy => v.destroyRow s r
  | .search => (v.searchRows s r, s)

/-- What answers an operation in the place of what is built in: its handler, else an action that
took the place. -/
def handler? (v : Service) (op : Operation) : Option Handler :=
  (v.handlers.lookup op).or (v.substitutes.lookup (.builtIn op))

/-- Carry out an operation, if it is exposed. -/
def dispatch (v : Service) (s : Store) (op : Operation) (r : Request) : Answered :=
  match v.require .dispatch with
  | .error e => (.error e, s)
  | .ok _ =>
    if op ∈ v.exposed then
      match v.handler? op with
      | some h => (h r, s)
      | none => v.perform s op r
    else (.error (.notAllowed v.name op.name), s)

/-- Carry out the operation with a name. -/
def dispatchNamed (v : Service) (s : Store) (name : Text) (r : Request) : Answered :=
  match v.require .dispatch, Operation.named name with
  | .error e, _ | _, .error e => (.error e, s)
  | .ok _, .ok op => v.dispatch s op r

/-- Carry out an operation by its own name, where an action may have taken its place. -/
def enter (v : Service) (s : Store) (op : Operation) (r : Request) : Answered :=
  match v.substitutes.lookup (.entry op) with
  | some h => (h r, s)
  | none => v.dispatch s op r

end Service
end TableService
