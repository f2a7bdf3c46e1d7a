import IndexQuery.CommandLine.Console
set_option autoImplicit false

/-! # The program

Gathers what the arguments ask for, reads the files that are named there, and prints the outcome. -/

namespace IndexQuery.CommandLine

/-- The environment variables that matter. -/
def environment : IO (List (String × String)) := do
  let names := [Invocation.configVariable, "CLICOLOR_FORCE", "NO_COLOR", "CLICOLOR"]
  let found ← names.mapM fun name => do
    return (← IO.getEnv name).map fun value => (name, value)
  return found.filterMap id

def readFailure : IO.Error → ReadFailure
  | .noFileOrDirectory .. => .missing
  | .permissionDenied .. => .forbidden
  | .inappropriateType _ code _ => if code = 21 then .directory else .notDirectory
  | _ => .notText

def readText (path : String) : IO (Except ReadFailure String) := do
  try
    return .ok (← IO.FS.readFile path)
  catch e =>
    return .error (readFailure e)

end IndexQuery.CommandLine

open IndexQuery.CommandLine in
/-- Compiles filters into a query and its command. -/
def main (args : List String) : IO UInt32 := do
  let surroundings : Surroundings := ⟨← environment, ← (← IO.getStdout).isTty⟩
  let invocation := Invocation.ofArguments surroundings args
  let texts ← invocation.paths.mapM fun path => do return (path, ← readText path)
  let files : Files := fun path => (texts.lookup path).getD (.error .missing)
  let outcome := invocation.run surroundings files
  IO.print outcome.out
  IO.eprint outcome.err
  return UInt32.ofNat outcome.code
