import RuleCommand.CommandLine.Program

set_option autoImplicit false

/-!
# Entry point

Runs the program on the arguments of the process.
-/

/-- Prints what a run of the program leaves behind and ends with its exit code. -/
def main (args : List String) : IO UInt32 := do
  let outcome := RuleCommand.Program.run args
  IO.eprint outcome.stderr
  IO.print outcome.stdout
  return outcome.code.toUInt32
