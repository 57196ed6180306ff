import ScopeSelectors.Command.Run
/-!
# The `scope-match` program

Reads its command line and the two configuration variables, runs the program,
and writes what it produces.
-/

open ScopeSelectors

/-- Runs `scope-match` on the process's arguments and environment. -/
def main (args : List String) : IO UInt32 := do
  let level ← IO.getEnv Config.levelVariable
  let format ← IO.getEnv Config.formatVariable
  let env := fun name =>
    if name = Config.levelVariable then level
    else if name = Config.formatVariable then format
    else none
  let outcome := Command.run args env
  IO.print outcome.stdout
  IO.eprint outcome.stderr
  pure outcome.status.toUInt32
