import TableService.Text.Case
import TableService.Value

/-!
# Logging

Logging has one threshold, given by the name of a level in any case. The root logger and the
loggers of the web frameworks take it over, and **every event at or above it is written as one
line** of JSON through one handler.
-/

namespace TableService
namespace Logging

/-- The named levels. -/
def levels : List (Text × Nat) := [
  (Text.ofString "CRITICAL", 50), (Text.ofString "FATAL", 50), (Text.ofString "ERROR", 40),
  (Text.ofString "WARNING", 30), (Text.ofString "WARN", 30), (Text.ofString "INFO", 20),
  (Text.ofString "DEBUG", 10), (Text.ofString "NOTSET", 0)]

/-- The level with a name; an unknown name is the level of information. -/
def levelOf (name : Text) : Nat := (levels.lookup (Text.upper name)).getD 20

/-- The loggers of the web frameworks. -/
def frameworkLoggers : List Text :=
  [Text.ofString "uvicorn", Text.ofString "uvicorn.access", Text.ofString "uvicorn.error",
    Text.ofString "fastapi"]

/-- How logging is set up. -/
structure Configuration where
  root : Nat
  handlers : Nat
  loggers : List (Text × Nat × Bool)
  deriving DecidableEq, Repr, Inhabited

/-- The setup for a level: one handler at the root, and the frameworks' loggers at the same level,
none of them passing events on. -/
def configure (level : Text) : Configuration :=
  let n := levelOf level
  ⟨n, 1, frameworkLoggers.map fun name => (name, n, false)⟩

/-- Whether an event of a level is written. -/
def Configuration.writes (c : Configuration) (level : Text) : Bool :=
  decide (c.root ≤ levelOf level)

/-- An event, as it is written. -/
def eventLine (logger level event : Text) (extra : List (Text × Value)) : Value :=
  .object (extra ++ [(Text.ofString "event", .text event), (Text.ofString "level", .text level),
    (Text.ofString "logger", .text logger)])

end Logging
end TableService
