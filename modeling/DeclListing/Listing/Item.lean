import DeclListing.Symbol.Info
import DeclListing.Token.Basic

/-!
The items of a listing. A listing declares names, refers to names, and calls
names with names as arguments; every name keeps the token it was read from.
-/

namespace DeclListing

/-- The kinds that a value can be declared with, and that a function can have
as a result. -/
inductive ValueKind where
  | int
  | str
  | intOrStr
  | undefined
  deriving DecidableEq, Repr

namespace ValueKind

/-- A value kind among the kinds. -/
def kind : ValueKind → Kind
  | int => .int
  | str => .str
  | intOrStr => .intOrStr
  | undefined => .undefined

/-- The type of a value of this kind. -/
def type : ValueKind → SymbolType
  | int => .int
  | str => .str
  | intOrStr => .intOrStr
  | undefined => .undefined

/-- The reserved word for a value kind. -/
def keyword : ValueKind → Keyword
  | int => .int
  | str => .str
  | intOrStr => .intOrStr
  | undefined => .undefined

/-- The value kind that a terminal names. -/
def ofTerminal? : Terminal → Option ValueKind
  | .keyword .int => some int
  | .keyword .str => some str
  | .keyword .intOrStr => some intOrStr
  | .keyword .undefined => some undefined
  | _ => none

/-- A terminal names a value kind exactly when it is its reserved word. -/
theorem ofTerminal?_eq_some_iff {t : Terminal} {k : ValueKind} :
    ofTerminal? t = some k ↔ t = .keyword k.keyword := by
  constructor
  · intro h
    unfold ofTerminal? at h
    split at h
    all_goals first | (cases h; rfl) | cases h
  · rintro rfl
    cases k <;> rfl

end ValueKind

/-- The value that a declaration gives to its name, with its sign. -/
inductive Literal where
  | integer (value : Int64)
  | string (value : String)
  deriving DecidableEq, Repr

/-- The two sorts of literals. -/
inductive LiteralSort where
  | integer
  | string
  deriving DecidableEq, Repr

/-- The sort of a literal. -/
def Literal.sort : Literal → LiteralSort
  | integer _ => .integer
  | string _ => .string

/-- The sorts of literals that a kind can be initialized with. -/
def ValueKind.admits : ValueKind → LiteralSort → Bool
  | int, .integer => true
  | str, .string => true
  | intOrStr, _ => true
  | _, _ => false

/-- What is declared by a kind alone. -/
def ValueKind.info (k : ValueKind) : SymbolInfo :=
  { type := k.type }

/-- What is declared by a kind and a literal. -/
def ValueKind.infoWith (k : ValueKind) : Literal → SymbolInfo
  | .integer value => { type := k.type, intVal := value }
  | .string value => { type := k.type, strVal := value }

/-- One statement of a listing. -/
inductive Item where
  /-- Declares a name. -/
  | declaration (name : Located String) (info : SymbolInfo)
  /-- Refers to a name. -/
  | reference (name : Located String)
  /-- Calls a name with names as arguments. -/
  | call (callee : Located String) (arguments : List (Located String))
  deriving DecidableEq, Repr

/-- The statements of a listing, in order. -/
abbrev Listing := List Item

/-- The names in an item, in the order in which they are written. -/
def Item.names : Item → List (Located String)
  | declaration name _ => [name]
  | reference name => [name]
  | call callee arguments => callee :: arguments

end DeclListing
