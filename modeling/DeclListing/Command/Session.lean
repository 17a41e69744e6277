import DeclListing.Command.Arguments
import DeclListing.Command.Job
import DeclListing.Command.LogFilter

/-!
One run of the command, without its effects. `Job.ofArguments` settles from the
arguments and the environment what is to be done, or answers at once; `Job.run`
says what is printed for the content of the file. How arguments and filters are read
and how failures are worded is that of the libraries that the command is built with.
-/

namespace DeclListing.Command

/-- What the command takes from its surroundings, besides its arguments. -/
structure Environment where
  /-- Whether reports and summaries are coloured. -/
  colour : Bool := false
  /-- The log filter of the environment. -/
  logVariable : Option String := none
  deriving DecidableEq, Repr

/-- Why a file has no text. -/
inductive ReadFailure where
  | missing
  | directory
  | notUtf8
  | other (reason : String)
  deriving DecidableEq, Repr

/-- The wording of a read failure. -/
def ReadFailure.message : ReadFailure → String
  | missing => "No such file or directory (os error 2)"
  | directory => "Is a directory (os error 21)"
  | notUtf8 => "stream did not contain valid UTF-8"
  | other reason => reason

/-- The text of a file, or why it has none. -/
abbrev FileContent := Except ReadFailure String

/-- The content of a file with the given bytes. -/
def FileContent.ofBytes (bytes : ByteArray) : FileContent :=
  match String.fromUTF8? bytes with
  | some text => .ok text
  | none => .error .notUtf8

/-- A failure to begin, with its cause. -/
def failureText (what cause : String) : String :=
  "Error: " ++ what ++ "\n\nCaused by:\n    " ++ cause ++ "\n"

/-- The answer in place of a check. -/
def Stop.output : Stop → Output
  | help => { exit := 0, stdout := helpText }
  | version => { exit := 0, stdout := versionText }
  | misuse e => { exit := 2, stderr := e.message }

namespace Job

/-- The filter that the options and the environment ask for. An option that
cannot be read is answered; a variable that cannot be read counts for nothing. -/
def filterOf (options : Options) (env : Environment) : Except Output LogFilter :=
  match options.log with
  | some text =>
    match LogFilter.parse? text with
    | some filter => .ok filter
    | none =>
      .error
        { exit := 1, stderr := failureText LogFilter.complaint LogFilter.complaint }
  | none => .ok ((env.logVariable.bind LogFilter.parse?).getD .standard)

/-- What the arguments ask for, or the answer to them. -/
def ofArguments (args : List String) (env : Environment) : Except Output Job :=
  match Options.ofArguments args with
  | .error stop => .error stop.output
  | .ok options =>
    (filterOf options env).map fun filter =>
      { file := options.file
        summary := options.summary
        log := filter.logLines
        styling := if env.colour then .ansi else .plain }

/-- What the command prints for the content of its file. -/
def run (job : Job) : FileContent → Output
  | .ok text => job.runText text
  | .error failure =>
    { exit := 1, stderr := failureText ("failed to read " ++ job.file) failure.message }

end Job

/-- A whole run: the arguments decide which file is looked at. -/
def session (args : List String) (env : Environment) (content : String → FileContent) : Output :=
  match Job.ofArguments args env with
  | .error output => output
  | .ok job => job.run (content job.file)

end DeclListing.Command
