import DeclListing.Text.Quoted
import DeclListing.Listing.Item
import DeclListing.Token.Message

/-!
Why tokens are no listing. Reading tokens stops either at a token that cannot
stand where it is, or behind a literal that means nothing there. A `Fault` says
so in terms of tokens; a `SyntaxError` in terms of the text.
-/

namespace DeclListing

/-- What has to come next. -/
inductive Expectation where
  | semicolon
  | lparen
  | rparen
  | arrow
  | identifier
  | integer
  | valueKind
  deriving DecidableEq, Repr

/-- How a message names what has to come next. -/
def Expectation.text : Expectation → String
  | semicolon => ";"
  | lparen => "("
  | rparen => ")"
  | arrow => "->"
  | identifier => "<identifier>"
  | integer => "<integer>"
  | valueKind => "int, str, int_or_str or undefined"

/-- The terminals that meet an expectation. An integer is met by its digits; the
sign that may stand before them is not what a message asks for. -/
def Expectation.admits : Expectation → Terminal → Bool
  | semicolon, .semicolon => true
  | lparen, .lparen => true
  | rparen, .rparen => true
  | arrow, .arrow => true
  | identifier, .identifier _ => true
  | integer, .integer _ => true
  | valueKind, t => (ValueKind.ofTerminal? t).isSome
  | _, _ => false

/-- Why a literal that was read means nothing where it stands. -/
inductive LiteralError where
  | negativeArity
  | arityTooLarge (arity : Int64)
  | integerOutOfRange
  | kindMismatch (kind : ValueKind) (literal : LiteralSort)
  deriving DecidableEq, Repr

/-- Why tokens are no listing. -/
inductive Fault where
  /-- Something else had to come; the token that came, if any was left. -/
  | unexpected (what : Expectation) (found : Option Token)
  /-- A literal was read that means nothing there. -/
  | refused (error : Located LiteralError)
  deriving DecidableEq, Repr

/-- Why a text is no listing. -/
inductive SyntaxError where
  /-- Something else had to come; the stretch of text that came. -/
  | expected (what : Expectation) (got : String)
  /-- A literal was read that means nothing there. -/
  | literal (error : LiteralError)
  deriving DecidableEq, Repr

/-- What stands for the end of a text among the stretches of it. -/
def endOfText : String := "<eof>"

/-- The fault as an error about a text. The offending token is cut out of the
text, unless it is the end; there is no answer when its span cannot be cut
out. When no token was left, the end of the text stands for it, on line zero. -/
def Fault.inText? (text : List Char) : Fault → Option (Located SyntaxError)
  | refused e => some (e.map .literal)
  | unexpected what none =>
    let stop := Text.byteLength text
    some ⟨.expected what endOfText, { terminal := .eof, span := ⟨stop, stop⟩, line := 0 }⟩
  | unexpected what (some t) =>
    if t.terminal = .eof then some ⟨.expected what endOfText, t⟩
    else
      (Text.slice? text t.span.start t.span.stop).map fun got =>
        ⟨.expected what (String.ofList got), t⟩

/-- How a message names a sort of literal. -/
def LiteralSort.name : LiteralSort → String
  | integer => "integer"
  | string => "string"

/-- The wording of a literal error. -/
def LiteralError.message : LiteralError → String
  | negativeArity => "function parameter count cannot be negative"
  | arityTooLarge arity =>
    "function parameter count " ++ toString arity.toInt ++ " exceeds the maximum of 65535"
  | integerOutOfRange => "integer literal does not fit in 64 bits"
  | kindMismatch kind literal =>
    "cannot initialize `" ++ kind.kind.name ++ "` with a " ++ literal.name ++ " literal"

/-- The wording of a syntax error. -/
def SyntaxError.message : SyntaxError → String
  | expected what got => "expected `" ++ what.text ++ "`, got " ++ Text.quote got
  | literal error => error.message

/-- A syntax error in full. -/
def SyntaxError.fullMessage (e : Located SyntaxError) : String :=
  e.token.fullMessage "ParseError" e.value.message

end DeclListing
