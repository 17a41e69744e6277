/-!
The command line: one file, and options in any order. Arguments are taken one
after the other by `CommandLine.take`. The value of `--log` and the file are settled
only when the next known argument, or the end, is reached; so a fault in them is
answered then, and an unknown argument met before that is answered first.
-/

namespace DeclListing.Command

/-- What a check of a file is to be done with. -/
structure Options where
  /-- The path of the file. -/
  file : String
  /-- Whether every declared name is to be listed. -/
  summary : Bool
  /-- The log filter, if one is given. -/
  log : Option String
  deriving DecidableEq, Repr

/-- The options that can be given once. -/
inductive Flag where
  | summary
  | log
  deriving DecidableEq, Repr

/-- How messages write an option. -/
def Flag.usage : Flag → String
  | summary => "--summary"
  | log => "--log <LOG>"

/-- How messages write the file argument. -/
def fileUsage : String := "<FILE>"

/-- A command line that cannot be followed. -/
inductive UsageError where
  /-- There is no file; the options that were given. -/
  | missingFile (used : List Flag)
  /-- An argument needs a value. -/
  | missingValue (argument : String)
  /-- An option is given twice. -/
  | repeated (flag : Flag)
  /-- An argument is not known, or is one too many. One that looks like an option
  can be passed as a file behind `--`. -/
  | unexpectedArgument (argument : String) (looksLikeOption : Bool)
  /-- An option that takes no value is given one. -/
  | unexpectedValue (argument value : String)
  deriving DecidableEq, Repr

/-- Why the arguments are not read to the end, or what they ask for instead of
a check. -/
inductive Stop where
  | help
  | version
  | misuse (error : UsageError)
  deriving DecidableEq, Repr

/-- A value that was read and is not settled yet. -/
inductive Pending where
  | nothing
  /-- `--log` was read and its value was not. -/
  | logValue
  | log (value : String)
  | file (path : String)
  deriving DecidableEq, Repr

/-- What was read of the arguments. -/
structure CommandLine where
  /-- The settled file. -/
  file : Option String := none
  /-- Whether `--summary` was given. -/
  summary : Bool := false
  /-- The settled value of `--log`. -/
  log : Option String := none
  /-- The options that were given, in order. -/
  used : List Flag := []
  /-- The value to be settled next. -/
  pending : Pending := .nothing
  /-- Whether a file was read. -/
  hasFile : Bool := false
  /-- Whether `--` was read, behind which nothing is an option. -/
  escaped : Bool := false
  deriving DecidableEq, Repr

namespace CommandLine

/-- Sets the value of `--log`, which must not be set. -/
def setLog (r : CommandLine) (value : String) : Except Stop CommandLine :=
  match r.log with
  | some _ => .error (.misuse (.repeated .log))
  | none => .ok { r with log := some value, used := r.used ++ [.log], pending := .nothing }

/-- Settles the value that was read last. -/
def settle (r : CommandLine) : Except Stop CommandLine :=
  match r.pending with
  | .nothing => .ok r
  | .logValue => .error (.misuse (.missingValue Flag.log.usage))
  | .log value => r.setLog value
  | .file path =>
    if path = "" then .error (.misuse (.missingValue fileUsage))
    else .ok { r with file := some path, pending := .nothing }

/-- Takes an argument that is no option: the file, if there is none yet. -/
def operand (r : CommandLine) (arg : String) : Except Stop CommandLine :=
  if r.hasFile then .error (.misuse (.unexpectedArgument arg false))
  else do
    let r ← r.settle
    return { r with pending := .file arg, hasFile := true }

/-- Takes `--summary`. -/
def summaryFlag (r : CommandLine) : Except Stop CommandLine := do
  let r ← r.settle
  if r.summary then .error (.misuse (.repeated .summary))
  else return { r with summary := true, used := r.used ++ [.summary] }

/-- Answers an option that asks for something else than a check. -/
def answer (r : CommandLine) (stop : Stop) : Except Stop CommandLine := do
  let _ ← r.settle
  .error stop

/-- Takes an option that takes no value. -/
def valueless (name : String) (value? : Option String) (take : Except Stop CommandLine) :
    Except Stop CommandLine :=
  match value? with
  | some value => .error (.misuse (.unexpectedValue ("--" ++ name) value))
  | none => take

/-- Takes an option with a long name, and the value attached to it. -/
def longOption (r : CommandLine) (name : String) (value? : Option String) : Except Stop CommandLine :=
  if name = "summary" then valueless name value? r.summaryFlag
  else if name = "help" then valueless name value? (r.answer .help)
  else if name = "version" then valueless name value? (r.answer .version)
  else if name = "log" then do
    let r ← r.settle
    match value? with
    | some value => r.setLog value
    | none => return { r with pending := .logValue }
  else .error (.misuse (.unexpectedArgument ("--" ++ name) true))

/-- Takes an option with a short name. -/
def shortOption (r : CommandLine) (c : Char) : Except Stop CommandLine :=
  if c = 's' then r.summaryFlag
  else if c = 'h' then r.answer .help
  else if c = 'V' then r.answer .version
  else .error (.misuse (.unexpectedArgument (String.ofList ['-', c]) true))

/-- Splits what follows the two dashes of a long option at the first equals
sign. -/
def splitValue (cs : List Char) : String × Option String :=
  match cs.dropWhile (· ≠ '=') with
  | [] => (String.ofList cs, none)
  | _ :: value => (String.ofList (cs.takeWhile (· ≠ '=')), some (String.ofList value))

/-- Takes an argument. What starts with a dash is an option or a run of short
ones, unless it is the dash alone or stands behind `--`; all else is the value
of `--log`, if that is awaited, or the file. -/
def take (r : CommandLine) (arg : String) : Except Stop CommandLine :=
  if r.escaped then r.operand arg
  else
    match arg.toList with
    | ['-', '-'] => .ok { r with escaped := true }
    | '-' :: '-' :: cs =>
      let (name, value?) := splitValue cs
      r.longOption name value?
    | '-' :: c :: cs => (c :: cs).foldlM shortOption r
    | _ => if r.pending = .logValue then .ok { r with pending := .log arg } else r.operand arg

/-- The options at the end of the arguments. -/
def finish (r : CommandLine) : Except Stop Options := do
  let r ← r.settle
  match r.file with
  | some file => return { file, summary := r.summary, log := r.log }
  | none => .error (.misuse (.missingFile r.used))

end CommandLine

/-- Reads the arguments of a command line. -/
def Options.ofArguments (args : List String) : Except Stop Options := do
  (← args.foldlM CommandLine.take {}).finish

/-- The name of the command. -/
def commandName : String := "symtab"

/-- The answer to `--version`. -/
def versionText : String := commandName ++ " 0.1.0\n"

/-- How the command is used in general. -/
def generalUsage : String := "Usage: " ++ commandName ++ " [OPTIONS] " ++ fileUsage

/-- How the command is used with some options. -/
def usageWith (used : List Flag) : String :=
  "Usage: " ++ commandName ++ " " ++ String.join (used.map (·.usage ++ " ")) ++ fileUsage

/-- The answer to `--help`. -/
def helpText : String :=
  generalUsage ++ "\n\n" ++
  "Arguments:\n" ++
  "  <FILE>  Path of the declaration listing to check\n\n" ++
  "Options:\n" ++
  "  -s, --summary    Print every declared symbol with its type and reference count\n" ++
  "      --log <LOG>  Log filter directives (overrides SYMTAB_LOG), " ++
    "e.g. `debug` or `symtab=trace`\n" ++
  "  -h, --help       Print help\n" ++
  "  -V, --version    Print version\n"

namespace UsageError

/-- What is wrong, and where it helps, how to do it. The parts stand apart by
blank lines. -/
def parts : UsageError → List String
  | missingFile used =>
    ["the following required arguments were not provided:\n  " ++ fileUsage, usageWith used]
  | missingValue argument =>
    ["a value is required for '" ++ argument ++ "' but none was supplied"]
  | repeated flag => ["the argument '" ++ flag.usage ++ "' cannot be used multiple times",
      generalUsage]
  | unexpectedArgument argument looksLikeOption =>
    ["unexpected argument '" ++ argument ++ "' found"] ++
    (if looksLikeOption then
      ["  tip: to pass '" ++ argument ++ "' as a value, use '-- " ++ argument ++ "'"] else []) ++
    [generalUsage]
  | unexpectedValue argument value =>
    ["unexpected value '" ++ value ++ "' for '" ++ argument ++
      "' found; no more were expected", generalUsage]

/-- The answer to a command line that cannot be followed. -/
def message (e : UsageError) : String :=
  "error: " ++ String.join (e.parts.map (· ++ "\n\n")) ++
    "For more information, try '--help'.\n"

end UsageError

end DeclListing.Command
