import TableService.Schema.Convert

/-!
# Settings

Defaults for all resources. A setting comes from the caller, else from the environment variable
of its name with the prefix `VIEWSET_` (in any case), else it has its standard value. **All faults
are reported together**, in the order of the settings; what is not a setting is ignored.
-/

namespace TableService

/-- The settings of the service. -/
structure Settings where
  pageSize : Int
  maxPageSize : Int
  pagination : PaginationMode
  logLevel : Text
  debugMode : Bool
  deriving DecidableEq, Repr, Inhabited

/-- The standard settings. -/
def Settings.standard : Settings := ⟨20, 1000, .auto, ['I', 'N', 'F', 'O'], false⟩

namespace Settings

/-- What environment variables of the service begin with, in lower case. -/
def variableFront : Text := Text.ofString "viewset_"

/-- The value of a setting in the environment; the last variable of the name counts. -/
def fromEnvironment? (env : List (Text × Text)) (name : Text) : Option Value :=
  match env.reverse.find? fun (k, _) => Text.asciiLower k == variableFront ++ name with
  | some (_, v) => some (.text v)
  | none => none

/-- The value given for a setting. -/
def given? (env : List (Text × Text)) (args : List (Text × Value)) (name : Text) : Option Value :=
  match args.lookup name with
  | some v => some v
  | none => fromEnvironment? env name

/-- A size: a positive integer. -/
def toSize (v : Value) : Except FieldFault Int :=
  match Convert.toInt v with
  | .error e => .error e
  | .ok n => if n < 1 then .error .greaterThanEqual else .ok n

/-- A pagination mode by its name. -/
def toMode : Value → Except FieldFault PaginationMode
  | .text t =>
    match PaginationMode.ofName? t with
    | some m => .ok m
    | none => .error .enumeration
  | _ => .error .enumeration

/-- A text. -/
def toText : Value → Except FieldFault Text
  | .text t => .ok t
  | _ => .error (.typed .str)

/-- The value of a setting: converted if it was given, else the standard one. -/
def choose {α : Type} (convert : Value → Except FieldFault α) (standard : α) :
    Option Value → Except FieldFault α
  | none => .ok standard
  | some v => convert v

/-- The fault of a setting, if it has one. -/
def errorOf {α : Type} (name : Text) : Except FieldFault α → List FieldError
  | .ok _ => []
  | .error e => [⟨name, e⟩]

/-- The name of the page size setting. -/
def pageSizeName : Text := Text.ofString "page_size"

/-- The name of the setting that bounds requested page sizes. -/
def maxPageSizeName : Text := Text.ofString "max_page_size"

/-- The name of the pagination mode setting. -/
def paginationName : Text := Text.ofString "pagination"

/-- The name of the log level setting. -/
def logLevelName : Text := Text.ofString "log_level"

/-- The name of the debug setting. -/
def debugModeName : Text := Text.ofString "debug_mode"

/-- Settings from the environment and from arguments, which win. -/
def load (env : List (Text × Text)) (args : List (Text × Value)) : Except Problem Settings :=
  let size := choose toSize standard.pageSize (given? env args pageSizeName)
  let bound := choose toSize standard.maxPageSize (given? env args maxPageSizeName)
  let mode := choose toMode standard.pagination (given? env args paginationName)
  let level := choose toText standard.logLevel (given? env args logLevelName)
  let debug := choose Convert.toBool standard.debugMode (given? env args debugModeName)
  match size, bound, mode, level, debug with
  | .ok s, .ok b, .ok m, .ok l, .ok d => .ok ⟨s, b, m, l, d⟩
  | _, _, _, _, _ =>
    .error (.settings ((errorOf pageSizeName size ++ errorOf maxPageSizeName bound
      ++ errorOf paginationName mode ++ errorOf logLevelName level
      ++ errorOf debugModeName debug).map FieldError.toValue))

end Settings
end TableService
