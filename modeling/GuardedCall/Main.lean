import GuardedCall.CommandLine

/-!
# The program

Main definition: `main`, which runs the command line.
-/

/-- Print what the command line prints, and exit with its code. -/
def main (args : List String) : IO UInt32 := do
  let output := GuardedCall.CommandLine.run args
  (← IO.getStdout).putStr output.stdout
  (← IO.getStderr).putStr output.stderr
  return output.exitCode
