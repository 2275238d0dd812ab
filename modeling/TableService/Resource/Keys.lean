import TableService.Resource.Operation
import TableService.Schema.Convert

/-!
# Lookup keys

The operations on one row find it by the value of one column. A policy may name the column of
each operation, or one for all of them; **where it names none, the table's only key column is
taken**. A resource without a lookup column for every such operation is refused when it is bound.
-/

namespace TableService

/-- Which columns rows are found by. An empty name counts as none. -/
structure KeyPolicy where
  retrieve : Option Text
  update : Option Text
  delete : Option Text
  lookupField : Option Text
  deriving DecidableEq, Repr, Inhabited

/-- A name, unless it is missing or empty. -/
def nonempty? : Option Text → Option Text
  | some [] => none
  | t => t

namespace KeyPolicy

/-- The policy that names no column. -/
def none : KeyPolicy := ⟨.none, .none, .none, .none⟩

/-- The policy that names one column for all operations. -/
def column (name : Text) : KeyPolicy := ⟨.none, .none, .none, some name⟩

/-- The column named for an operation. An empty common name is a name all the same. -/
def configured (p : KeyPolicy) : Operation → Option Text
  | .retrieve => (nonempty? p.retrieve).or p.lookupField
  | .update => (nonempty? p.update).or p.lookupField
  | .destroy => (nonempty? p.delete).or p.lookupField
  | _ => .none

end KeyPolicy

/-- The lookup columns of a resource. -/
structure Keys where
  retrieve : Column
  update : Column
  destroy : Column
  deriving Repr, Inhabited

/-- The lookup column of an operation on one row. -/
def Keys.column? (k : Keys) : Operation → Option Column
  | .retrieve => some k.retrieve
  | .update => some k.update
  | .destroy => some k.destroy
  | _ => none

namespace Keys

/-- The problem of a configured column that the table does not have. -/
def unknownColumn (table : Table) (op : Operation) (name : Text) : Problem :=
  .missingKey table.name [op.name] (some (Text.ofString "Lookup column \"" ++ name
    ++ Text.ofString "\" for " ++ op.name ++ Text.ofString " does not exist on \"" ++ table.name
    ++ ['"']))

/-- The lookup column of one operation; `none` if nothing determines it. -/
def resolveOne (table : Table) (policy : KeyPolicy) (op : Operation) :
    Except Problem (Option Column) :=
  match policy.configured op with
  | some name =>
    match table.column? name with
    | some c => .ok (some c)
    | none => .error (unknownColumn table op name)
  | none => .ok table.singleKey?

/-- The lookup columns of a table under a policy. -/
def resolve (table : Table) (policy : KeyPolicy) : Except Problem Keys :=
  match resolveOne table policy .retrieve with
  | .error e => .error e
  | .ok r =>
    match resolveOne table policy .update with
    | .error e => .error e
    | .ok u =>
      match resolveOne table policy .destroy with
      | .error e => .error e
      | .ok d =>
        match r, u, d with
        | some r, some u, some d => .ok ⟨r, u, d⟩
        | r, u, d =>
          let missing := [(Operation.retrieve, r), (.update, u), (.destroy, d)].filterMap
            fun (op, c) => if c.isNone then some op.name else none
          .error (.missingKey table.name missing none)

end Keys

/-- The schema name under which faults of path values are reported. -/
def pathSchema : Text := ['p', 'a', 't', 'h']

/-- A value of the path, as a value of a column. -/
def Column.lookupValue (c : Column) (table : Table) (raw : Value) : Except Problem Value :=
  match Convert.toKind c.type.fieldKind raw with
  | .ok v => .ok v
  | .error e => .error (.ofFieldErrors [⟨c.name, e⟩] pathSchema (some table.name))

end TableService
