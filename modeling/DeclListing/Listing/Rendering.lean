import DeclListing.Listing.Grammar
import DeclListing.Listing.Printer
import DeclListing.Token.Grammar

/-!
The texts of a listing. One listing can be written in many ways: with an
initializer or, for a default, without one; with blanks and comments anywhere
between lexemes; with leading zeros; with characters of strings escaped or not.
`Renders` says which texts are written for an item list, from the item's side, with
the words and the initializers of the grammar; it takes nothing from the scanner or
the readers.
-/

namespace DeclListing

/-- The terminals of a literal. -/
def Literal.terminals : Literal → List Terminal
  | integer value => integerTerminals value.toInt
  | string value => [.string value]

/-- The terminals that can be written for an item. -/
inductive Item.Writes : Item → List Terminal → Prop where
  | plain (name : Located String) {word : Keyword} {info : SymbolInfo} :
      Derives.Declares word info →
      Writes (.declaration name info) [.keyword word, .identifier name.value, .semicolon]
  | initialized (name : Located String) {word : Keyword} {value : Literal} {info : SymbolInfo} :
      Derives.Initializes word value info →
      Writes (.declaration name info)
        (.keyword word :: .identifier name.value :: .equal :: (value.terminals ++ [.semicolon]))
  | function (name : Located String) (params : UInt16) {word : Keyword} {returned : Kind} :
      Derives.ValueWord word returned →
      Writes (.declaration name { type := .function params returned, intVal := 0, strVal := "" })
        [.keyword .function, .identifier name.value, .lparen, .integer params.toUInt64, .rparen,
          .arrow, .keyword word, .semicolon]
  | reference (name : Located String) :
      Writes (.reference name) [.keyword .reference, .identifier name.value, .semicolon]
  | call (callee : Located String) (args : List (Located String)) :
      Writes (.call callee args)
        (.keyword .call :: .identifier callee.value :: .lparen ::
          (nameTerminals (args.map Located.value) ++ [.rparen, .semicolon]))

/-- The terminals that can be written for a listing. -/
inductive Listing.Writes : Listing → List Terminal → Prop where
  | nothing : Writes [] []
  | item {i : Item} {items : Listing} {first rest : List Terminal} :
      i.Writes first → Writes items rest → Writes (i :: items) (first ++ rest)

/-- A name that can be written: a word that is not reserved. -/
def IsName (name : String) : Prop :=
  Lexeme.IsWord name.toList ∧ ∀ k, ¬ Lexeme.Reserved name.toList k

/-- Terminals that are made of the characters of words: words and integers. -/
def Terminal.isWordLike : Terminal → Bool
  | keyword _ => true
  | identifier _ => true
  | integer _ => true
  | _ => false

/-- Terminals that run together when nothing stands between them: words and
integers, and an integer with a string behind it. -/
def runTogether : Terminal → Terminal → Bool
  | .integer _, .string _ => true
  | a, b => a.isWordLike && b.isWordLike

/-- The texts of a sequence of terminals, behind the terminal `previous` if there
is one. Before a lexeme there may be blanks and whole comments, and there must
be some where it would run together with the one before. The last comment need
not end. -/
inductive Renders : Option Terminal → List Terminal → List Char → Prop where
  | done {previous : Option Terminal} {last : List Char} :
      Gap last [] → Renders previous [] last
  | lexeme {previous : Option Terminal} {t : Terminal} {terminals : List Terminal}
      {gap written rest : List Char} :
      (∀ after, Gap gap after) → (∀ p ∈ previous, runTogether p t = true → gap ≠ []) →
      Lexeme.Form written t → Renders (some t) terminals rest →
      Renders previous (t :: terminals) (gap ++ written ++ rest)

/-- The texts of a listing. -/
def Listing.Renders (items : Listing) (text : String) : Prop :=
  ∃ terminals, items.Writes terminals ∧ DeclListing.Renders none terminals text.toList

end DeclListing
