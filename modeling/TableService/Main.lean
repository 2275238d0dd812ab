import TableService.CommandLine

/-!
# The program

The outer layer of the command line: it passes the arguments on, prints what comes back, and ends
with its status.
-/

open TableService

/-- Explain a query. -/
def main (args : List String) : IO UInt32 := do
  let ending := CommandLine.run (args.map String.toList)
  (← IO.getStdout).putStr (String.ofList ending.output)
  (← IO.getStderr).putStr (String.ofList ending.complaint)
  return ending.status.toUInt32
