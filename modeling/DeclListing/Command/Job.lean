import DeclListing.Check.Verdict

/-!
What the command prints for a text. A job says what is to be done and how lines are
written: what the log makes of events, and what colours make of reports and names.
Both are values of the job, so nothing here depends on how a filter is read, on what
a log puts in front of its lines or on whether there are colours.
-/

namespace DeclListing.Command

/-- What a run of the command leaves behind. -/
structure Output where
  /-- The exit status. -/
  exit : Nat
  /-- What was written to standard output. -/
  stdout : String := ""
  /-- What was written to standard error. -/
  stderr : String := ""
  deriving DecidableEq, Repr

/-- Lines as text, each ended by a line feed. -/
def unlines (lines : List String) : String :=
  String.join (lines.map (· ++ "\n"))

/-- How lines are set off on a terminal. -/
structure Styling where
  /-- A report. -/
  red : String → String
  /-- The name in a line of a summary. -/
  bold : String → String

namespace Styling

/-- Lines as they are. -/
def plain : Styling where
  red := id
  bold := id

/-- Reports in red and names in bold, for texts that hold no escape sequences of
their own. -/
def ansi : Styling where
  red := fun line => "\x1b[31m" ++ line ++ "\x1b[0m"
  bold := fun name => "\x1b[1m" ++ name ++ "\x1b[0m"

end Styling

/-- What a run is to do. -/
structure Job where
  /-- The path of the file to check. -/
  file : String
  /-- Whether every declared name is to be listed. -/
  summary : Bool
  /-- The lines that are logged for events. -/
  log : List Event → List String
  /-- How reports and the summary are set off. -/
  styling : Styling

namespace Job

/-- The line that reports a message about a token of a text: the line on which
the token ends, the column where it starts, and its lexeme. There is none when
the text has no such stretch. -/
def reportLine? (text : List Char) (token : Token) (message : String) : Option String := do
  let column ← Text.column? text token.span.start
  let lexeme ← Text.slice? text token.span.start token.span.stop
  return "Error " ++ toString token.line ++ ":" ++ toString column ++ " (at " ++
    Text.quote (String.ofList lexeme) ++ "):: " ++ message

/-- The lines that report a rejected text. -/
def rejectionLines (text : List Char) : Rejection → List String
  | .lexical e => (reportLine? text e.token e.value.message).toList
  | .syntactic e => (reportLine? text e.token e.value.message).toList
  | .unreadable => []

/-- The lines that report the problems of a listing. -/
def diagnosticLines (text : List Char) (report : Report) : List String :=
  report.diagnostics.filterMap fun d => reportLine? text d.token d.value.message

/-- The type of a declared name and the events of asking for it. -/
def summaryType (table : SymbolTable) (name : String) : SymbolType × List Event :=
  match table.info? name with
  | some info => (info.type, [])
  | none => (.undefined, [.missed name])

/-- The line of a summary for a declared name. -/
def summaryLine (styling : Styling) (table : SymbolTable) (u : Usage) : String :=
  styling.bold u.name ++ ": " ++ (summaryType table u.name).1.text ++ " (" ++
    toString u.uses ++ " uses)"

/-- The events of printing a summary. -/
def summaryEvents (report : Report) : List Event :=
  report.usages.flatMap fun u => (summaryType report.table u.name).2

/-- What the command prints for a text, and its exit status: the log, then the
reports, and on standard output the summary, if the text could be checked. -/
def runText (job : Job) (text : String) : Output :=
  let verdict := checkText text
  let log := job.log verdict.events
  match verdict.outcome with
  | .error rejection =>
    { exit := 1
      stderr := unlines (log ++ (rejectionLines text.toList rejection).map job.styling.red) }
  | .ok report =>
    let reports := (diagnosticLines text.toList report).map job.styling.red
    let summary :=
      if job.summary then report.usages.map (summaryLine job.styling report.table) else []
    let summaryLog := if job.summary then job.log (summaryEvents report) else []
    { exit := if report.isClean then 0 else 1
      stdout := unlines summary
      stderr := unlines (log ++ reports ++ summaryLog) }

end Job

end DeclListing.Command
