import EntityQuery.CommandLine.Run

/-!
# The executable
-/

/-- Runs the program and writes what it leaves. -/
def main (arguments : List String) : IO UInt32 := do
  let outcome := EntityQuery.CommandLine.run arguments
  IO.print outcome.stdout
  IO.eprint outcome.stderr
  return outcome.exitCode.toUInt32
