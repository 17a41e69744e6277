import DeclListing.Command.Session

/-!
The command itself: it reads the arguments, the environment and the file, and
prints what the session says.
-/

namespace DeclListing.Command

/-- Whether to colour: when it is forced, else on a terminal where it is not
turned off. -/
def wantsColour : IO Bool := do
  if let some force ← IO.getEnv "CLICOLOR_FORCE" then
    if force ≠ "0" then return true
  if (← IO.getEnv "NO_COLOR").isSome then return false
  if (← IO.getEnv "CLICOLOR") == some "0" then return false
  (← IO.getStdout).isTty

/-- The content of the file at a path. -/
def fileContent (path : String) : IO FileContent := do
  try
    return FileContent.ofBytes (← IO.FS.readBinFile path)
  catch e =>
    match e with
    | .noFileOrDirectory .. => return .error .missing
    | .inappropriateType .. => return .error .directory
    | e => return .error (.other (toString e))

end DeclListing.Command

open DeclListing.Command

/-- Runs the command. -/
def main (args : List String) : IO UInt32 := do
  let env : Environment :=
    { colour := ← wantsColour, logVariable := ← IO.getEnv "SYMTAB_LOG" }
  let output ← match Job.ofArguments args env with
    | .error output => pure output
    | .ok job => pure (job.run (← fileContent job.file))
  (← IO.getStdout).putStr output.stdout
  (← IO.getStderr).putStr output.stderr
  return UInt32.ofNat output.exit
