import DeclListing.Text.Quoted
import DeclListing.Token.Scan

/-!
The texts of tokens and of lexical faults.
-/

namespace DeclListing

/-- The word that stands for a reserved word in the description of a token. -/
def Keyword.tag : Keyword → String
  | call => "KCall"
  | function => "KFn"
  | int => "KInt"
  | intOrStr => "KIntOrStr"
  | str => "KStr"
  | undefined => "KUndefined"
  | reference => "KUse"

/-- The description of a terminal. -/
def Terminal.description : Terminal → String
  | arrow => "Arrow"
  | comma => "Comma"
  | equal => "Equal"
  | lparen => "LParen"
  | minus => "Minus"
  | rparen => "RParen"
  | semicolon => "Semicolon"
  | keyword word => word.tag
  | integer value => "Literal(Integer(" ++ toString value.toNat ++ "))"
  | string value => "Literal(String(" ++ Text.quote value ++ "))"
  | identifier name => "Identifier(" ++ Text.quote name ++ ")"
  | error => "Error"
  | eof => "EOF"

/-- The description of a token: its place and what was read there. -/
def Token.description (t : Token) : String :=
  "Token \x7b span: Span(" ++ toString t.span.start ++ ", " ++ toString t.span.stop ++
    "), line: " ++ toString t.line ++ ", tok_type: " ++ t.terminal.description ++ " \x7d"

/-- A message about a token in full: a heading, the token, the message. -/
def Token.fullMessage (t : Token) (heading message : String) : String :=
  heading ++ " at " ++ t.description ++ ": " ++ message

/-- The wording of a lexical fault. -/
def LexError.message : LexError → String
  | unexpectedEnd => "unexpected EOF"
  | invalidDigit c => "invalid digit in integer literal: " ++ Text.quoteChar c
  | integerOverflow => "integer literal out of range"
  | invalidEscape c => "invalid escape " ++ Text.quoteChar c
  | unexpectedChar c => "expected start of token, found " ++ Text.quoteChar c

/-- A lexical fault in full. -/
def LexError.fullMessage (e : Located LexError) : String :=
  e.token.fullMessage "LexerError" e.value.message

end DeclListing
