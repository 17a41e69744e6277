import DeclListing.Listing.Item

/-!
The canonical text of a listing: its lexemes with one space between them, each
integer with the fewest digits, and in each string only the quote and the
backslash escaped. A declaration has an initializer where it carries a value
other than the default.
-/

namespace DeclListing

/-- The decimal digits of a number, without leading zeros. -/
def decimalDigits (n : Nat) : List Char :=
  if n < 10 then [Nat.digitChar n] else decimalDigits (n / 10) ++ [Nat.digitChar (n % 10)]

/-- How a character stands in a string. -/
def writtenInString (c : Char) : List Char :=
  if c = '"' ∨ c = '\\' then ['\\', c] else [c]

/-- The canonical way to write a terminal. Nothing is written for the end of the
text and for what is no lexeme. -/
def Terminal.spelling : Terminal → List Char
  | arrow => ['-', '>']
  | comma => [',']
  | equal => ['=']
  | lparen => ['(']
  | minus => ['-']
  | rparen => [')']
  | semicolon => [';']
  | keyword word => word.spelling.toList
  | integer value => decimalDigits value.toNat
  | string value => '"' :: (value.toList.flatMap writtenInString ++ ['"'])
  | identifier name => name.toList
  | error => []
  | eof => []

/-- The terminals of an integer. -/
def integerTerminals (value : Int) : List Terminal :=
  (if value < 0 then [.minus] else []) ++ [.integer (UInt64.ofNat value.natAbs)]

/-- The reserved word for a kind. -/
def Kind.keyword : Kind → Keyword
  | function => .function
  | int => .int
  | str => .str
  | intOrStr => .intOrStr
  | undefined => .undefined

/-- The terminals of an initializer: the integer or the string that is not the
default, if there is one. -/
def SymbolInfo.initializer (info : SymbolInfo) : List Terminal :=
  if info.intVal ≠ 0 then .equal :: integerTerminals info.intVal.toInt
  else if info.strVal ≠ "" then [.equal, .string info.strVal]
  else []

/-- One name or more, with commas between them. -/
def nameTerminals (names : List String) : List Terminal :=
  (names.map Terminal.identifier).intersperse .comma

/-- The canonical terminals of an item. -/
def Item.terminals : Item → List Terminal
  | declaration name info =>
    match info.type with
    | .function params result =>
      [.keyword .function, .identifier name.value, .lparen, .integer params.toUInt64, .rparen,
        .arrow, .keyword result.keyword, .semicolon]
    | type =>
      [.keyword type.kind.keyword, .identifier name.value] ++ info.initializer ++ [.semicolon]
  | reference name => [.keyword .reference, .identifier name.value, .semicolon]
  | call callee args =>
    [.keyword .call, .identifier callee.value, .lparen] ++
      nameTerminals (args.map Located.value) ++ [.rparen, .semicolon]

/-- Lexemes with one space between them. -/
def spaced (terminals : List Terminal) : List Char :=
  [' '].intercalate (terminals.map Terminal.spelling)

/-- The canonical text of a listing. -/
def Listing.text (items : Listing) : String :=
  String.ofList (spaced (items.flatMap Item.terminals))

end DeclListing
