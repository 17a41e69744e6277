import DeclListing.Symbol.Info
import DeclListing.Token.Message

/-!
What can be wrong with a listing whose text could be read.
-/

namespace DeclListing

/-- A fault in the use of names. -/
inductive Problem where
  /-- The name was declared before; the token of its first declaration. -/
  | duplicate (name : String) (first : Token)
  /-- The name is not declared up to here. -/
  | undeclared (name : String)
  /-- The name is called, but it is declared as no function. -/
  | notCallable (name : String) (type : SymbolType)
  /-- The function is called with a number of arguments that it does not take. -/
  | wrongArgumentCount (name : String) (expected got : Nat)
  deriving DecidableEq, Repr

namespace Problem

/-- The name that a problem is about. -/
def name : Problem → String
  | duplicate name _ => name
  | undeclared name => name
  | notCallable name _ => name
  | wrongArgumentCount name _ _ => name

/-- The wording of a problem. -/
def message : Problem → String
  | duplicate name first =>
    "duplicate declaration of `" ++ name ++ "` (first declared on line " ++
      toString first.line ++ ")"
  | undeclared name => "use of undeclared identifier `" ++ name ++ "`"
  | notCallable name type =>
    "`" ++ name ++ "` has type `" ++ type.text ++ "` and cannot be called"
  | wrongArgumentCount name expected got =>
    "function `" ++ name ++ "` called with wrong number of arguments; expected " ++
      toString expected ++ ", got " ++ toString got

end Problem

/-- A problem with the token of the name that it is about. -/
abbrev Diagnostic := Located Problem

/-- A diagnostic in full. -/
def Problem.fullMessage (d : Diagnostic) : String :=
  d.token.fullMessage "Check error" d.value.message

end DeclListing
