import TableService.Problem

/-!
# Operations

Every resource has six operations. A viewer of them may be given all, or a chosen few; the choice
is a set, so repeating a name changes nothing.
-/

namespace TableService

/-- The operations of a resource. -/
inductive Operation where
  | list
  | create
  | retrieve
  | update
  | destroy
  | search
  deriving DecidableEq, Repr, Inhabited

namespace Operation

/-- The name of an operation. -/
def name : Operation → Text
  | .list => ['l', 'i', 's', 't']
  | .create => ['c', 'r', 'e', 'a', 't', 'e']
  | .retrieve => ['r', 'e', 't', 'r', 'i', 'e', 'v', 'e']
  | .update => ['u', 'p', 'd', 'a', 't', 'e']
  | .destroy => ['d', 'e', 's', 't', 'r', 'o', 'y']
  | .search => ['s', 'e', 'a', 'r', 'c', 'h']

/-- The operations, in their canonical order. -/
def all : List Operation := [.list, .create, .retrieve, .update, .destroy, .search]

/-- The operations on one row. -/
def details : List Operation := [.retrieve, .update, .destroy]

/-- The operation with a name. -/
def ofName? (t : Text) : Option Operation := all.find? fun op => op.name == t

end Operation

/-- A name that is none of a fixed set. -/
def Problem.notAMember (value : Text) (set : String) : Problem :=
  .invalidValue (Text.quoted value ++ Text.ofString " is not a valid " ++ Text.ofString set)

/-- The operation with a name, or the problem of there being none. -/
def Operation.named (t : Text) : Except Problem Operation :=
  match ofName? t with
  | some op => .ok op
  | none => .error (.notAMember t "Operation")

/-- The connective with a name, or the problem of there being none. -/
def Connective.named (t : Text) : Except Problem Connective :=
  match ofKey? t with
  | some k => .ok k
  | none => .error (.notAMember t "LogicalOperator")

/-- The pagination mode with a name, or the problem of there being none. -/
def PaginationMode.named (t : Text) : Except Problem PaginationMode :=
  match ofName? t with
  | some m => .ok m
  | none => .error (.notAMember t "PaginationMode")

/-- A choice of operations as it is given: one word, or a list of names. -/
inductive OperationChoice where
  | word (t : Text)
  | names (ts : List Text)
  deriving DecidableEq, Repr, Inhabited

namespace OperationChoice

/-- The word that stands for all operations. -/
def allWord : Text := ['a', 'l', 'l']

/-- All operations. -/
def everything : OperationChoice := .word allWord

/-- The operations with several names. -/
def namedAll : List Text → Except Problem (List Operation)
  | [] => .ok []
  | t :: ts =>
    match Operation.named t with
    | .error e => .error e
    | .ok op =>
      match namedAll ts with
      | .error e => .error e
      | .ok ops => .ok (op :: ops)

/-- The chosen operations, in canonical order. -/
def resolve : OperationChoice → Except Problem (List Operation)
  | .word t =>
    if t = allWord then .ok Operation.all
    else .error (.invalidValue (Text.ofString
      "Operations must be \"all\" or a collection of operation names, got " ++ Text.quoted t))
  | .names ts =>
    match namedAll ts with
    | .error e => .error e
    | .ok ops => .ok (Operation.all.filter fun op => op ∈ ops)

end OperationChoice
end TableService
