import TableService.Explain

/-!
# The command line

`explain QUERY --field NAME …` prints the plan of a query as JSON, and with `--sql` the statement
it becomes. Options and the query may come in any order; after `--` nothing is an option. **An
option that takes a value takes the next argument, whatever it looks like**, unless the value
stands right after a short option or after the `=` of a long one. Of an option given twice the
last counts, except for fields, which add up.

Wrong usage ends with status 2. A query that is refused, and a dialect that nobody speaks, end with
status 1 and a word to the user.
-/

namespace TableService
namespace CommandLine

/-! ## 1. Options -/

/-- The options. -/
inductive Flag where
  | field
  | sortField
  | table
  | pageSize
  | pagination
  | dialect
  | sql
  | noSql
  deriving DecidableEq, Repr

/-- Whether an option takes a value. -/
def Flag.takesValue : Flag → Bool
  | .sql | .noSql => false
  | _ => true

/-- The long names of options. -/
def longNames : List (Text × Flag) := [
  (Text.ofString "--field", .field), (Text.ofString "--sort-field", .sortField),
  (Text.ofString "--table", .table), (Text.ofString "--page-size", .pageSize),
  (Text.ofString "--pagination", .pagination), (Text.ofString "--dialect", .dialect),
  (Text.ofString "--sql", .sql), (Text.ofString "--no-sql", .noSql)]

/-- The letters of short options. -/
def letters : List (Char × Flag) := [
  ('f', .field), ('s', .sortField), ('t', .table), ('d', .dialect)]

/-- What a single argument is. -/
inductive Argument where
  | plain (t : Text)
  | option (f : Flag) (value : Option Text)
  | endOfOptions
  | unknown
  deriving DecidableEq, Repr

/-- What an argument with two dashes is. -/
def classifyLong (t : Text) : Argument :=
  let (name, value) := Text.cutAt '=' t
  match longNames.lookup name with
  | none => .unknown
  | some f => if !f.takesValue && value.isSome then .unknown else .option f value

/-- What an argument is. A single dash is nothing special. -/
def classify : Text → Argument
  | ['-', '-'] => .endOfOptions
  | '-' :: '-' :: r => classifyLong ('-' :: '-' :: r)
  | '-' :: c :: r =>
    match letters.lookup c with
    | none => .unknown
    | some f => .option f (if r = [] then none else some r)
  | t => .plain t

/-- Arguments, sorted out: the options with their values, and the others. -/
structure Sorted where
  options : List (Flag × Text)
  others : List Text
  deriving DecidableEq, Repr, Inhabited

/-- Sort arguments out; `none` if an option is unknown or lacks its value. -/
def sortOut : List Text → Option Sorted
  | [] => some ⟨[], []⟩
  | a :: rest =>
    match classify a with
    | .unknown => none
    | .endOfOptions => some ⟨[], rest⟩
    | .plain t => (sortOut rest).map fun s => { s with others := t :: s.others }
    | .option f (some v) =>
      (sortOut rest).map fun s => { s with options := (f, v) :: s.options }
    | .option f none =>
      if f.takesValue then
        match rest with
        | [] => none
        | v :: rest => (sortOut rest).map fun s => { s with options := (f, v) :: s.options }
      else (sortOut rest).map fun s => { s with options := (f, []) :: s.options }

/-- The values of an option, in order. -/
def valuesOf (f : Flag) (options : List (Flag × Text)) : List Text :=
  options.filterMap fun (g, v) => if g = f then some v else none

/-- The last value of an option. -/
def lastOf (f : Flag) (options : List (Flag × Text)) : Option Text :=
  (valuesOf f options).getLast?

/-- Whether the statement is asked for. -/
def asksForStatement (options : List (Flag × Text)) : Bool :=
  (options.filter fun (f, _) => !f.takesValue).getLast?.any fun (f, _) => f = .sql

/-- What is to be done. -/
structure Command where
  subject : Explain.Subject
  dialect : Text
  showsStatement : Bool
  deriving DecidableEq, Repr, Inhabited

/-- The page size of an option. -/
def pageSizeOf? : Option Text → Option Int
  | none => some 20
  | some t => readInteger? (Text.trim Text.isWhite t)

/-- The pagination mode of an option. -/
def modeOf? : Option Text → Option PaginationMode
  | none => some .auto
  | some t => PaginationMode.ofName? t

/-- The command of a list of arguments; `none` for wrong usage. -/
def read? (args : List Text) : Option Command := do
  let s ← sortOut args
  let size ← pageSizeOf? (lastOf .pageSize s.options)
  let mode ← modeOf? (lastOf .pagination s.options)
  match s.others, valuesOf .field s.options with
  | [query], field :: fields =>
    some {
      subject := {
        query := query, fields := field :: fields, sortFields := valuesOf .sortField s.options,
        table := (lastOf .table s.options).getD (Text.ofString "resource"),
        pageSize := size, pagination := mode }
      dialect := (lastOf .dialect s.options).getD Sql.Dialect.postgresql.name
      showsStatement := asksForStatement s.options }
  | _, _ => none

/-! ## 2. Running -/

/-- How a run ends. -/
inductive Ending where
  | done (plan : Value) (statement : Option Text)
  | misused
  | refused (words : Text)
  | broken (p : Problem)
  deriving Repr, Inhabited

/-- The status of an ending. -/
def Ending.status : Ending → Nat
  | .done .. => 0
  | .misused => 2
  | .refused _ | .broken _ => 1

/-- What the user is told of a dialect that nobody speaks. -/
def unknownDialect (name : Text) : Text :=
  Text.ofString "Error: Unknown dialect \"" ++ name ++ Text.ofString "\". Use one of: "
    ++ commaList (Sql.Dialect.all.map Sql.Dialect.name) ++ Text.ofString ".\n"

/-- What the user is told of a problem with the query. -/
def refusal (p : Problem) (field : Option Text) : Text :=
  Text.ofString "Error: " ++ p.message ++ ['\n'] ++ match nonempty? field with
    | none => []
    | some f => Text.ofString "  field: " ++ f ++ ['\n']

/-- The ending that a problem leads to. -/
def Ending.ofProblem (p : Problem) : Ending :=
  match p with
  | .query _ _ field _ _ => .refused (refusal p field)
  | p => .broken p

/-- Carry out a command. A query is refused while its plan is made; what fails later is nobody's to
tell. -/
def Command.run (c : Command) : Ending :=
  match Sql.Dialect.ofName? c.dialect with
  | none => .refused (unknownDialect c.dialect)
  | some d =>
    match c.subject.plan with
    | .error p => .ofProblem p
    | .ok plan =>
      if !Explain.isWritable plan then .broken .oversizedInteger
      else if c.showsStatement then
        match Explain.statement d plan with
        | .error p => .broken p
        | .ok t => .done (Explain.describe plan) (some t)
      else .done (Explain.describe plan) none

/-- Run the command line. -/
def run (args : List Text) : Ending :=
  match read? args with
  | none => .misused
  | some c => c.run

/-- How the command is used. -/
def usage : Text := Text.ofString
  ("Usage: explain QUERY --field NAME [--sort-field NAME] [--table NAME] [--page-size N]\n"
    ++ "               [--pagination auto|forced|disabled] [--sql] [--dialect NAME]\n")

/-- What is printed as the result. -/
def Ending.output : Ending → Text
  | .done plan statement =>
    Json.indented 0 plan ++ '\n' :: match statement with
      | none => []
      | some t => t ++ ['\n']
  | _ => []

/-- What is printed beside the result. -/
def Ending.complaint : Ending → Text
  | .done .. => []
  | .misused => usage
  | .refused words => words
  | .broken p => p.id ++ ':' :: ' ' :: p.message ++ ['\n']

end CommandLine
end TableService
