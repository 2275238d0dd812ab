import TableService.Schema.Convert
import TableService.Text.Case

/-!
# Schemas

A schema is a named list of fields. Validation takes an object apart field by field, in the order
in which the schema declares them, and reports **every fault at once**: first those of declared
fields, then the members that the schema does not know, if it forbids them. A schema that forbids
members has to read their names, so an object with a name that is no text is refused as a whole.

Three schemas are made from a table. The read schema asks for every column that may not be null.
The create schema also leaves out what the store fills in. The update schema asks for nothing.
**A name that begins with an underscore is private**: a schema has no field for it. A few such names
mean something in the declaration of a schema, and a field of that name makes it fail.
-/

namespace TableService

/-- A schema. -/
structure Schema where
  name : Text
  fields : List Field
  forbidsExtra : Bool
  readsAttributes : Bool
  deriving Repr, Inhabited

namespace Schema

/-- The names of the fields, in order. -/
def fieldNames (s : Schema) : List Text := s.fields.map Field.name

/-! ## 1. Validation -/

/-- What became of one field: a value that was given, a value left out, or a fault. -/
inductive Outcome where
  | given (v : Value)
  | absent
  | faulty (fault : FieldFault)
  deriving Repr, Inhabited

/-- What becomes of a field, given the members of an object. -/
def outcome (members : Members) (f : Field) : Outcome :=
  match members.lookup f.name with
  | some v =>
    match Convert.toField f v with
    | .ok w => .given w
    | .error e => .faulty e
  | none => if f.required then .faulty .missing else .absent

/-- The faults of the declared fields, in their order. -/
def fieldErrors (s : Schema) (members : Members) : List FieldError :=
  s.fields.filterMap fun f =>
    match outcome members f with
    | .faulty e => some ⟨f.name, e⟩
    | _ => none

/-- The members that no field declares, as faults if the schema forbids them. -/
def extraErrors (s : Schema) (members : Members) : List FieldError :=
  if s.forbidsExtra then
    (members.filter fun (name, _) => name ∉ s.fieldNames).map fun (name, _) =>
      ⟨name, .extraForbidden⟩
  else []

/-- The validated values. A partial result keeps only what was given; a full one has null for
what was left out. -/
def values (s : Schema) (members : Members) (isPartial : Bool) : Members :=
  s.fields.filterMap fun f =>
    match outcome members f with
    | .given v => some (f.name, v)
    | _ => if isPartial then none else some (f.name, .null)

/-- Validate the members of an object. -/
def validateMembers (s : Schema) (members : Members) (isPartial : Bool) :
    Except Problem Members :=
  match s.fieldErrors members ++ s.extraErrors members with
  | [] => .ok (s.values members isPartial)
  | errors => .error (.ofFieldErrors errors s.name none)

/-- The problem of a value that has a single fault as a whole. -/
def refuse (s : Schema) (fault : FieldFault) : Problem := .ofFieldErrors [⟨[], fault⟩] s.name none

/-- Validate a value. Null stands for an object without members. -/
def validate (s : Schema) (data : Value) (isPartial : Bool) : Except Problem Members :=
  match data with
  | .object members => s.validateMembers members isPartial
  | .null => s.validateMembers [] isPartial
  | .unpairedNames _ members =>
    if s.forbidsExtra then .error (s.refuse .stringUnicode)
    else s.validateMembers members isPartial
  | _ => .error (s.refuse (if s.readsAttributes then .modelAttributesType else .modelType))

/-! ## 2. Declaring a schema -/

/-- The name under which a schema keeps its configuration. -/
def configurationName : Text := Text.ofString "model_config"

/-- Whether a schema keeps a name for itself and has no field for it. -/
def isPrivate (name : Text) : Bool := name.head? == some '_' || name == configurationName

/-- Names that mean something in the declaration of a schema, where a field cannot stand for it. -/
def declarationNames : List Text := ["__base__", "__validators__", "__cls_kwargs__",
  "__qualname__", "__root__", "__slots__"].map Text.ofString

/-- The name under which the fields of a schema are declared. -/
def annotationsName : Text := Text.ofString "__annotations__"

/-- The problem of a field whose name means something in the declaration of a schema. -/
def misplaced? (f : Field) : Option Problem :=
  if f.name ∈ declarationNames then some .wrongType
  else if f.name = annotationsName then some .wrongAttribute
  else none

/-- A schema with some fields, of which the private ones are left out. -/
def declare (name : Text) (fields : List Field) (forbidsExtra readsAttributes : Bool) :
    Except Problem Schema :=
  match fields.findSome? misplaced? with
  | some e => .error e
  | none => .ok ⟨name, fields.filter fun f => !isPrivate f.name, forbidsExtra, readsAttributes⟩

/-- The problem of a field in the place of a schema's configuration. -/
def misplacedConfiguration (f : Field) : Problem :=
  if f.required then .wrongType else .outside (Text.ofString "PydanticUserError") []

/-- A schema made by hand. It is declared without a configuration, so a field may not take the name
of that. -/
def byHand (name : Text) (fields : List Field) : Except Problem Schema :=
  match fields.find? fun f => f.name == configurationName with
  | some f => .error (misplacedConfiguration f)
  | none => declare name fields false false

/-- The name under which a configuration is given to the declaration of a schema. -/
def givenConfigurationName : Text := Text.ofString "__config__"

/-- A schema made from a table. It is declared with a configuration, so no other may be given. -/
def made (name : Text) (fields : List Field) (forbidsExtra readsAttributes : Bool) :
    Except Problem Schema :=
  if fields.any fun f => f.name == givenConfigurationName then .error .wrongType
  else declare name fields forbidsExtra readsAttributes

/-! ## 3. Schemas of a table -/

/-- The name of a table's schema: the words of the table's name, capitalized, and a suffix. -/
def nameFor (table : Table) (suffix : String) : Text :=
  (Text.pieces '_' table.name).flatMap Text.capitalize ++ suffix.toList

/-- Whether a column gets a value when it is left out on insertion. -/
def isGenerated (c : Column) : Bool :=
  c.fallback.isSome || c.serverDefault.isSome
    || (c.primaryKey && c.autoincrement != some false && c.type.isInteger)

/-- The field of a column. -/
def fieldFor (c : Column) (nullable required : Bool) : Field :=
  ⟨c.name, c.type.fieldKind, nullable, required⟩

/-- The read schema of a table. -/
def forSelect (table : Table) : Except Problem Schema :=
  made (nameFor table "Select")
    (table.columns.map fun c => fieldFor c c.nullable !c.nullable) false true

/-- The create schema of a table. -/
def forInsert (table : Table) : Except Problem Schema :=
  made (nameFor table "Insert")
    (table.columns.map fun c =>
      let optional := c.nullable || isGenerated c
      fieldFor c optional !optional) true false

/-- The update schema of a table. -/
def forUpdate (table : Table) : Except Problem Schema :=
  made (nameFor table "Update") (table.columns.map fun c => fieldFor c c.nullable false)
    true false

end Schema

/-- The schemas of a resource. -/
structure SchemaSet where
  list : Schema
  create : Schema
  retrieve : Schema
  update : Schema
  deriving Repr, Inhabited

/-- Schemas chosen by hand. -/
structure SchemaChoice where
  standard : Option Schema
  list : Option Schema
  create : Option Schema
  retrieve : Option Schema
  update : Option Schema
  deriving Repr, Inhabited

/-- No schema chosen by hand. -/
def SchemaChoice.none : SchemaChoice := ⟨.none, .none, .none, .none, .none⟩

/-- A schema that was chosen, else another. -/
def Schema.orElse (chosen : Option Schema) (other : Except Problem Schema) :
    Except Problem Schema :=
  match chosen with
  | some s => .ok s
  | none => other

/-- The schemas of a table, except where others were chosen. The standard choice is for reading. -/
def SchemaSet.forTable (table : Table) (choice : SchemaChoice) : Except Problem SchemaSet := do
  let reading ← Schema.orElse choice.standard (Schema.forSelect table)
  let create ← Schema.orElse choice.create (Schema.forInsert table)
  let update ← Schema.orElse choice.update (Schema.forUpdate table)
  return ⟨choice.list.getD reading, create, choice.retrieve.getD reading, update⟩

end TableService
