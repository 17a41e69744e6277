import DeclListing.Check.Event

/-!
Log filters. A filter is a list of directives with commas between them. A directive is
a level, which holds for every event, or `source=level`, which holds for the events
from that source and those under it. The directive with the longest source decides
for an event; one that no directive speaks of stays silent. A level admits its own
events and the more important ones. Directives about spans and fields are left out.
-/

namespace DeclListing.Command

/-- What a log shows of the events from some source. -/
structure LogDirective where
  /-- What the source of an event must start with. -/
  source : String := ""
  /-- The highest rank of level that is shown; zero shows nothing. -/
  rank : Nat
  deriving DecidableEq, Repr

/-- Which events a log shows. -/
structure LogFilter where
  /-- What the filter says, in the order in which it is written. -/
  directives : List LogDirective
  deriving DecidableEq, Repr

namespace LogDirective

/-- The words for the ranks, from zero on. -/
def rankNames : List String :=
  ["off", "error", "warn", "info", "debug", "trace"]

/-- The rank that a word or a number from 0 to 5 stands for. The case of letters
does not matter. -/
def rank? (word : String) : Option Nat :=
  (List.range rankNames.length).find? fun rank =>
    rankNames[rank]? == some word.toLower || toString rank == word

/-- Reads a directive. A word that is no level is a source, of which all is shown;
behind an equals sign there must be a level or nothing. -/
def parse? (directive : String) : Option LogDirective :=
  let cs := directive.toList
  match cs.dropWhile (· ≠ '=') with
  | [] =>
    match rank? directive with
    | some rank => some { rank }
    | none => some { source := directive, rank := Level.trace.rank }
  | _ :: level =>
    let source := String.ofList (cs.takeWhile (· ≠ '='))
    if level = [] then some { source, rank := Level.trace.rank }
    else (rank? (String.ofList level)).map fun rank => { source, rank }

/-- Whether a directive speaks of an event. -/
def covers (d : LogDirective) (e : Event) : Bool :=
  d.source.toList.isPrefixOf e.source.toList

end LogDirective

namespace LogFilter

/-- The filter when none is asked for: warnings and errors. -/
def standard : LogFilter :=
  { directives := [{ rank := Level.warn.rank }] }

/-- The filter that shows every event. -/
def everything : LogFilter :=
  { directives := [{ rank := Level.trace.rank }] }

/-- Reads a filter. Nothing between two commas counts for nothing, and a filter
without directives is `standard`. -/
def parse? (text : String) : Option LogFilter :=
  match (text.splitOn ",").filter (· ≠ "") with
  | [] => some standard
  | words => (words.mapM LogDirective.parse?).map fun directives => { directives }

/-- What is said about a filter that cannot be read. -/
def complaint : String :=
  "error parsing level filter: expected one of \"off\", \"error\", \"warn\", \"info\", " ++
    "\"debug\", \"trace\", or a number 0-5"

/-- The directive that decides for an event: the last of those with the longest
source. -/
def decisive? (f : LogFilter) (e : Event) : Option LogDirective :=
  (f.directives.filter (·.covers e)).foldl
    (fun best? d => some <| match best? with
      | some best => if d.source.length < best.source.length then best else d
      | none => d)
    none

/-- Whether a log with this filter shows an event. -/
def admits (f : LogFilter) (e : Event) : Bool :=
  (f.decisive? e).any fun d => e.level.rank ≤ d.rank

/-- The lines that a log with this filter shows for events, without the time stamps
in front of them. -/
def logLines (f : LogFilter) (events : List Event) : List String :=
  (events.filter f.admits).map Event.logLine

end LogFilter

end DeclListing.Command
