import DeclListing.Symbol.Kind

/-!
What a declaration says about its name: a type and the literal value given
with it.
-/

namespace DeclListing

/-- The type of a symbol. Only functions carry more than their kind: a number
of parameters and the kind of the result. -/
inductive SymbolType where
  | function (params : UInt16) (result : Kind)
  | int
  | str
  | intOrStr
  | undefined
  deriving DecidableEq, Repr, Inhabited

namespace SymbolType

/-- The kind of a type. -/
def kind : SymbolType → Kind
  | function _ _ => .function
  | int => .int
  | str => .str
  | intOrStr => .intOrStr
  | undefined => .undefined

/-- Whether symbols of this type can be called. -/
def isFunction : SymbolType → Bool
  | function _ _ => true
  | _ => false

/-- The number of parameters of a function type. -/
def params? : SymbolType → Option UInt16
  | function params _ => some params
  | _ => none

/-- The kind of the result of a function type. -/
def result? : SymbolType → Option Kind
  | function _ result => some result
  | _ => none

/-- The text for a type: `fn(2) -> int` for functions, else the kind's name. -/
def text : SymbolType → String
  | function params result => "fn(" ++ toString params.toNat ++ ") -> " ++ result.name
  | ty => ty.kind.name

end SymbolType

/-- A type with the literal values given with it. Values that were not given
are zero and the empty string. -/
structure SymbolInfo where
  /-- The declared type. -/
  type : SymbolType := .undefined
  /-- The integer given, or zero. -/
  intVal : Int64 := 0
  /-- The string given, or the empty one. -/
  strVal : String := ""
  deriving DecidableEq, Repr, Inhabited

end DeclListing
