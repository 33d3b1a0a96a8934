/-
The program: one command from the command line, over the environment variables
of the process. Its databases live as long as the command runs.
-/
import WorkRouting.Command.CorrelationId
import WorkRouting.Workspace.Basic

namespace WorkRouting

/-- The variables that settings are taken from. -/
def readEnvironment : IO Environment :=
  (Settings.Field.all.flatMap Settings.Field.variableNames).foldlM
    (fun env name => do
      match ← IO.getEnv name with
      | some value => return env.set name (some value)
      | none => return env)
    {}

def freshCorrelationId : IO String := do
  let bytes ← IO.getRandomBytes 16
  return CorrelationId.ofBytes bytes.toList

end WorkRouting

open WorkRouting in
/-- Runs a command; a command line that is none is answered with the usage. -/
def main (args : List String) : IO UInt32 := do
  let w : Workspace := { env := ← readEnvironment }
  let (_, outcome) := w.run (← freshCorrelationId) args
  if outcome.output = "" then IO.eprint CommandLine.usage
  else IO.print outcome.output
  return outcome.exitCode.toUInt32
