import DeclListing.Check.Event
import DeclListing.Listing.Item
import DeclListing.Symbol.Table

/-!
Checking a listing. The items are taken in order: a declaration adds its name to
the symbol table, and a reference or a call looks its names up in the table as
it stands. So a name must be declared before it is used, and the first
declaration of a name is the one that counts. Problems are collected; none ends
the check.
-/

namespace DeclListing

/-- A declared name, with the token that declared it and the number of times it
was referred to since. -/
structure Usage where
  /-- The declared name. -/
  name : String
  /-- The token of its first declaration. -/
  declaredAt : Token
  /-- How often it was referred to. -/
  uses : Nat
  deriving DecidableEq, Repr

/-- The state of a check. -/
structure Checker where
  /-- What is declared. -/
  table : SymbolTable := .empty
  /-- How the declared names were used, in the order of their declaration. -/
  usages : List Usage := []
  /-- The problems found, in order. -/
  diagnostics : List Diagnostic := []
  /-- What happened, in order. -/
  events : List Event := []

namespace Checker

/-- Adds an event to the log. -/
def record (c : Checker) (e : Event) : Checker :=
  { c with events := c.events ++ [e] }

/-- Adds a problem to the diagnostics and to the log. -/
def report (c : Checker) (token : Token) (problem : Problem) : Checker :=
  { c with
    diagnostics := c.diagnostics ++ [⟨problem, token⟩]
    events := c.events ++ [.diagnosed token.line problem] }

/-- The usage of a name. -/
def usage? (c : Checker) (name : String) : Option Usage :=
  c.usages.find? (·.name == name)

/-- Counts one more use of a name. -/
def count (c : Checker) (name : String) : Checker :=
  { c with
    usages := c.usages.map fun u => if u.name = name then { u with uses := u.uses + 1 } else u }

/-- Declares a name. A name that is declared already keeps its first
declaration, and the new one is reported. -/
def declare (c : Checker) (name : Located String) (info : SymbolInfo) : Checker :=
  match c.table.add? { name := name.value, info } with
  | some table =>
    { c with
      table
      usages := c.usages ++ [{ name := name.value, declaredAt := name.token, uses := 0 }]
      events := c.events ++ [.added name.value info.type] }
  | none =>
    let first := ((c.usage? name.value).map Usage.declaredAt).getD name.token
    (c.record (.refused name.value)).report name.token (.duplicate name.value first)

/-- Refers to a name. The use is counted if the name is declared, and reported
if it is not. -/
def resolve (c : Checker) (name : Located String) : Checker :=
  if c.table.contains name.value then c.count name.value
  else c.report name.token (.undeclared name.value)

/-- Holds a call of a declared name against its type. -/
def matchCall (c : Checker) (callee : Located String) (got : Nat) : Checker :=
  match c.table.info? callee.value with
  | none => c.record (.missed callee.value)
  | some info =>
    match info.type with
    | .function params _ =>
      if params.toNat = got then c
      else c.report callee.token (.wrongArgumentCount callee.value params.toNat got)
    | type => c.report callee.token (.notCallable callee.value type)

/-- Calls a name. The callee is resolved first and, if it is declared, held
against its type; then every argument is resolved, in order. -/
def call (c : Checker) (callee : Located String) (arguments : List (Located String)) : Checker :=
  let resolved := c.resolve callee
  let matched :=
    if c.table.contains callee.value then resolved.matchCall callee arguments.length else resolved
  arguments.foldl resolve matched

/-- Takes one item. -/
def step (c : Checker) : Item → Checker
  | .declaration name info => c.declare name info
  | .reference name => c.resolve name
  | .call callee arguments => c.call callee arguments

/-- Takes the items of a listing. -/
def run (c : Checker) (listing : Listing) : Checker :=
  listing.foldl step c

end Checker

/-- What a check comes to. -/
structure Report where
  /-- The declared names with their first declarations. -/
  table : SymbolTable
  /-- How they were used, in the order of their declaration. -/
  usages : List Usage
  /-- The problems, in the order in which they were found. -/
  diagnostics : List Diagnostic
  /-- What happened during the check, up to its end. -/
  events : List Event

namespace Report

/-- The report on the state at the end of a check. -/
def ofChecker (c : Checker) : Report where
  table := c.table
  usages := c.usages
  diagnostics := c.diagnostics
  events := c.events ++ [.finished c.table.size c.diagnostics.length]

/-- Whether no problem was found. -/
def isClean (r : Report) : Bool :=
  r.diagnostics.isEmpty

end Report

/-- Checks a listing. -/
def Listing.check (listing : Listing) : Report :=
  .ofChecker (Checker.run {} listing)

end DeclListing
