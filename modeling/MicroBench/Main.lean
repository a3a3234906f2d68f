import MicroBench.Program

/-! # The executable -/

namespace MicroBench

/-- Reads the system's clock and writes events to the error stream. -/
def consoleHost : Host IO where
  now := IO.monoNanosNow
  emit := fun event => IO.eprintln event.line

/-- The variables that the program looks at, as far as they are set. -/
def readEnvironment : IO CommandLine.Environment := do
  let quantities : List CommandLine.Quantity := [.len, .runs, .count]
  let names := quantities.map (·.envName) ++ [logVariable]
  names.filterMapM fun name => do pure ((← IO.getEnv name).map fun value => (name, value))

end MicroBench

open MicroBench in
/-- Runs the program on the arguments of the command line. -/
def main (arguments : List String) : IO UInt32 := do
  match ← runProgram consoleHost (← readEnvironment) arguments with
  | .ok ending =>
    IO.print ending.output
    IO.eprint ending.complaint
    pure (UInt32.ofNat ending.exitCode)
  | .error _ =>
    IO.eprintln "a computation left its limits"
    pure 101
