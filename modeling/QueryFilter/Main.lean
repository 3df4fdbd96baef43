import QueryFilter.CommandLine

/-! # The program

Writes the report on the query given by the arguments. -/

/-- Shows the query given by the arguments. -/
def main (args : List String) : IO UInt32 := do
  let report := QueryFilter.CommandLine.run args
  (← IO.getStdout).putStr report.output
  (← IO.getStderr).putStr report.errors
  return report.code
