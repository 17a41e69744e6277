import DeclListing.Check.Diagnostic
import DeclListing.Listing.Item

/-!
The rules of a check, said item by item and without any state. What an item
gives rise to depends only on the first declarations among the items before it:
`problemsAt` says it of one item, `Listing.problems` of a whole listing, and
`Listing.usesOf` says how often a name is used.
-/

namespace DeclListing

/-- What an item declares about a name. -/
def Item.declares? (name : String) : Item → Option (Located SymbolInfo)
  | declaration n info => if n.value = name then some ⟨info, n.token⟩ else none
  | _ => none

/-- The names that an item refers to, in order. -/
def Item.references : Item → List (Located String)
  | declaration _ _ => []
  | reference name => [name]
  | call callee args => callee :: args

/-- The first declaration of a name in a listing, with the token of the name. -/
def Listing.firstDeclaration? (items : Listing) (name : String) : Option (Located SymbolInfo) :=
  items.findSome? (Item.declares? name)

/-- The names that a listing declares, in the order of their first
declarations. -/
def Listing.declaredNames : Listing → List String
  | [] => []
  | .declaration name _ :: items =>
    name.value :: (declaredNames items).filter (· ≠ name.value)
  | _ :: items => declaredNames items

/-- A name is referred to that is not declared before. -/
def unresolved (before : Listing) (name : Located String) : List Diagnostic :=
  match before.firstDeclaration? name.value with
  | none => [⟨.undeclared name.value, name.token⟩]
  | some _ => []

/-- What is wrong with calling a name with a number of arguments. -/
def calleeProblems (before : Listing) (callee : Located String) (got : Nat) : List Diagnostic :=
  match before.firstDeclaration? callee.value with
  | none => [⟨.undeclared callee.value, callee.token⟩]
  | some first =>
    match first.value.type with
    | .function params _ =>
      if params.toNat = got then []
      else [⟨.wrongArgumentCount callee.value params.toNat got, callee.token⟩]
    | type => [⟨.notCallable callee.value type, callee.token⟩]

/-- What is wrong with an item, given the items before it. -/
def problemsAt (before : Listing) : Item → List Diagnostic
  | .declaration name _ =>
    match before.firstDeclaration? name.value with
    | none => []
    | some first => [⟨.duplicate name.value first.token, name.token⟩]
  | .reference name => unresolved before name
  | .call callee args =>
    calleeProblems before callee args.length ++ args.flatMap (unresolved before)

/-- What is wrong with the items of a listing behind those in `before`. -/
def problemsAfter (before : Listing) : Listing → List Diagnostic
  | [] => []
  | i :: items => problemsAt before i ++ problemsAfter (before ++ [i]) items

/-- What is wrong with a listing. -/
def Listing.problems (items : Listing) : List Diagnostic :=
  problemsAfter [] items

/-- How often a name is referred to behind its first declaration. -/
def Listing.usesOf (name : String) : Listing → Nat
  | [] => 0
  | i :: items =>
    match i.declares? name with
    | some _ => ((items.flatMap Item.references).map Located.value).count name
    | none => usesOf name items

end DeclListing
