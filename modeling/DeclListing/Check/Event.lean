import DeclListing.Check.Diagnostic

/-!
The events of a check, as a log shows them. Each has a level and a source; a log
shows those that its filter admits. The time at which a line is logged, which a log
writes in front of it, is not part of an event, and neither are the colours that
levels and fields have on a terminal.
-/

namespace DeclListing

/-- How important an event is, from the least to the most. -/
inductive Level where
  | trace
  | debug
  | info
  | warn
  | error
  deriving DecidableEq, Repr

/-- The place of a level in the order, with the most important first. -/
def Level.rank : Level → Nat
  | error => 1
  | warn => 2
  | info => 3
  | debug => 4
  | trace => 5

/-- How a log writes a level. -/
def Level.name : Level → String
  | trace => "TRACE"
  | debug => "DEBUG"
  | info => "INFO"
  | warn => "WARN"
  | error => "ERROR"

/-- Something that happens in a check. -/
inductive Event where
  /-- The text was read as tokens. -/
  | lexed (count : Nat)
  /-- The tokens were read as a listing. -/
  | parsed (items : Nat)
  /-- A name was added to the symbol table. -/
  | added (name : String) (type : SymbolType)
  /-- A name was in the symbol table already. -/
  | refused (name : String)
  /-- A name was asked for that the symbol table does not hold. -/
  | missed (name : String)
  /-- A problem was found on a line. -/
  | diagnosed (line : Nat) (problem : Problem)
  /-- The check came to its end. -/
  | finished (symbols diagnostics : Nat)
  deriving DecidableEq, Repr

namespace Event

/-- The level of an event. -/
def level : Event → Level
  | lexed _ | parsed _ | added _ _ | missed _ => .trace
  | refused _ | diagnosed _ _ | finished _ _ => .debug

/-- The part of the program that an event comes from. -/
def source : Event → String
  | lexed _ | parsed _ => "symtab"
  | added _ _ | refused _ | missed _ => "symtab::symbol_table"
  | diagnosed _ _ | finished _ _ => "symtab::checker"

/-- The text of an event, without its level. -/
def text : Event → String
  | lexed count => "lexed listing count=" ++ toString count
  | parsed items => "parsed listing items=" ++ toString items
  | added name type => "added entry name=" ++ Text.quote name ++ " ty=" ++ type.text
  | refused name => "rejected duplicate entry name=" ++ Text.quote name
  | missed name => "lookup miss name=" ++ Text.quote name
  | diagnosed line problem =>
    "diagnostic line=" ++ toString line ++ " kind=" ++ problem.message
  | finished symbols diagnostics =>
    "finished checking listing symbols=" ++ toString symbols ++ " diagnostics=" ++
      toString diagnostics

/-- The line that a log shows for an event, from its level on: without the time
stamp in front of that, and without the colours of a terminal. -/
def logLine (e : Event) : String :=
  e.level.name ++ " " ++ e.text

end Event

end DeclListing
