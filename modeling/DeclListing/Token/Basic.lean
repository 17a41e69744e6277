import DeclListing.Text.Slice

/-!
Tokens: terminals of the listing grammar with the place where they were read.
-/

namespace DeclListing

/-- A stretch of a text, from byte `start` up to byte `stop`. -/
structure Span where
  /-- The first byte. -/
  start : Nat
  /-- The byte after the last. -/
  stop : Nat
  deriving DecidableEq, Repr, Inhabited

/-- The reserved words. -/
inductive Keyword where
  | call
  | function
  | int
  | intOrStr
  | str
  | undefined
  | reference
  deriving DecidableEq, Repr

namespace Keyword

/-- How a reserved word is written. -/
def spelling : Keyword → String
  | call => "call"
  | function => "fn"
  | int => "int"
  | intOrStr => "int_or_str"
  | str => "str"
  | undefined => "undefined"
  | reference => "use"

/-- All reserved words. -/
def all : List Keyword :=
  [call, function, int, intOrStr, str, undefined, reference]

/-- The reserved word with a given spelling, if there is one. -/
def ofSpelling? (word : String) : Option Keyword :=
  all.find? (·.spelling == word)

@[simp]
theorem ofSpelling?_spelling (k : Keyword) : ofSpelling? k.spelling = some k := by
  cases k <;> decide

/-- A word is reserved exactly when it is the spelling of a reserved word. -/
theorem ofSpelling?_eq_some_iff {word : String} {k : Keyword} :
    ofSpelling? word = some k ↔ word = k.spelling := by
  constructor
  · intro h
    have := List.find?_some h
    exact (beq_iff_eq.mp this).symm
  · rintro rfl
    exact ofSpelling?_spelling k

end Keyword

/-- The terminals of the listing grammar. `eof` stands for the end of the text,
`error` for a stretch that is no lexeme. Integers are magnitudes; a sign is a
terminal of its own. -/
inductive Terminal where
  | arrow
  | comma
  | equal
  | lparen
  | minus
  | rparen
  | semicolon
  | keyword (word : Keyword)
  | integer (value : UInt64)
  | string (value : String)
  | identifier (name : String)
  | error
  | eof
  deriving DecidableEq, Repr, Inhabited

/-- The name that a terminal is, if it is one. -/
def Terminal.identifier? : Terminal → Option String
  | identifier name => some name
  | _ => none

theorem Terminal.identifier?_eq_some_iff {t : Terminal} {name : String} :
    t.identifier? = some name ↔ t = .identifier name := by
  cases t <;> simp [Terminal.identifier?]

/-- A terminal with the place where it was read. -/
structure Token where
  /-- What was read. -/
  terminal : Terminal
  /-- The stretch of text it was read from. -/
  span : Span
  /-- The line on which that stretch ends, counted from one. -/
  line : Nat
  deriving DecidableEq, Repr, Inhabited

/-- A value with the token that it was read from or that it is about. -/
structure Located (α : Type) where
  /-- The value. -/
  value : α
  /-- The token. -/
  token : Token
  deriving DecidableEq, Repr, Inhabited

/-- The same token with another value. -/
def Located.map {α β : Type} (f : α → β) (x : Located α) : Located β :=
  ⟨f x.value, x.token⟩

end DeclListing
