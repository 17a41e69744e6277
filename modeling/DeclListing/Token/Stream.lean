import DeclListing.Token.Trivia
import DeclListing.Token.Scan

/-!
Reading a text token by token. A `Lexer` is a place in a text: what is left of
it, how many bytes and lines lie before, and whether the end has been answered.
`next` reads one token or one fault and goes on behind it; `tokenize` reads to
the end or to the first fault; `drain` reads to the end, through faults.

Every step short of the end leaves less text (`next_rest_lt`), so both runs end.
-/

namespace DeclListing

/-- One answer of a lexer: a token, or a fault with the stretch it is about. -/
abbrev LexResult := Except (Located LexError) Token

/-- A place in a text that is read token by token. -/
structure Lexer where
  /-- The text from here on. -/
  rest : List Char
  /-- The bytes before this place. -/
  offset : Nat := 0
  /-- The line of this place, counted from one. -/
  line : Nat := 1
  /-- Whether the end of the text has been answered. -/
  finished : Bool := false
  deriving DecidableEq, Repr

namespace Lexer

/-- The start of a text. -/
def ofText (text : String) : Lexer :=
  { rest := text.toList }

/-- The token of the end of a text. -/
def endToken (offset line : Nat) : Token :=
  { terminal := .eof, span := ⟨offset, offset⟩, line }

/-- The answer and the place behind a lexeme that starts at byte `offset` of
line `line`. The line of a token is the one on which it ends. -/
def placed (s : Scan Terminal) (offset line : Nat) (finished : Bool) : LexResult × Lexer :=
  let stop := offset + Text.byteLength s.taken
  let lastLine := line + s.lines
  let token := fun terminal => { terminal, span := ⟨offset, stop⟩, line := lastLine : Token }
  (match s.outcome with
    | .ok terminal => .ok (token terminal)
    | .error e => .error ⟨e, token .error⟩,
   { rest := s.rest, offset := stop, line := lastLine, finished })

/-- Skips blanks and comments and reads one token. At the end of the text it
answers the end, also when it has done so before. After a fault the place is
behind the characters that were taken. -/
def next (l : Lexer) : LexResult × Lexer :=
  let gap := (Trivia.split l.rest).1
  let offset := l.offset + Text.byteLength gap
  let line := l.line + Text.lineFeeds gap
  match (Trivia.split l.rest).2 with
  | [] => (.ok (endToken offset line), { rest := [], offset, line, finished := true })
  | c :: cs => placed (Lexeme.scan c cs) offset line l.finished

/-- Whether an answer is the end of the text. -/
def isEnd : LexResult → Bool
  | .ok t => t.terminal = .eof
  | .error _ => false

/-- An answer other than the end leaves less text and does not finish. -/
theorem next_rest_lt {l : Lexer} (h : isEnd l.next.1 = false) :
    l.next.2.rest.length < l.rest.length ∧ l.next.2.finished = l.finished := by
  have hle := Trivia.length_split_le l.rest
  unfold next at h ⊢
  cases hr : (Trivia.split l.rest).2 with
  | nil => simp [hr, isEnd, endToken] at h
  | cons c cs =>
    have hscan := Lexeme.length_rest_le c cs
    simp only [hr, List.length_cons] at hle
    exact ⟨by simp only [placed]; omega, rfl⟩

/-- The end leaves nothing and finishes; any other answer leaves less text. -/
theorem next_progress (l : Lexer) :
    l.next.2.finished = true ∨
      (l.next.2.rest.length < l.rest.length ∧ l.next.2.finished = l.finished) := by
  have hle := Trivia.length_split_le l.rest
  unfold next
  cases hr : (Trivia.split l.rest).2 with
  | nil => exact Or.inl rfl
  | cons c cs =>
    have hscan := Lexeme.length_rest_le c cs
    simp only [hr, List.length_cons] at hle
    exact Or.inr ⟨by simp only [placed]; omega, rfl⟩

/-- A bound on the answers to come up to the end: none when it was given. -/
def remaining (l : Lexer) : Nat :=
  if l.finished then 0 else l.rest.length + 1

/-- Reads to the end of the text, or to the first fault; the tokens read before
the fault are dropped. When the end has been answered there is nothing to
read. -/
def tokenize (l : Lexer) : Except (Located LexError) (List Token) × Lexer :=
  if _hf : l.finished = true then (.ok [], l)
  else
    match _h : l.next with
    | (.error e, after) => (.error e, after)
    | (.ok t, after) =>
      let (tokens, last) := tokenize after
      (tokens.map (t :: ·), last)
termination_by l.remaining
decreasing_by
  have hp := next_progress l
  simp only [_h] at hp
  rcases hp with hp | ⟨hp, hq⟩
  · simp [remaining, hp, _hf]
  · simp only [remaining, hq, _hf, Bool.false_eq_true, if_false]
    omega

/-- Reads to the end of the text, through faults. The end is always the last
answer, also when it was given before. -/
def drain (l : Lexer) : List LexResult × Lexer :=
  match _h : isEnd l.next.1 with
  | true => ([l.next.1], l.next.2)
  | false =>
    let (results, last) := drain l.next.2
    (l.next.1 :: results, last)
termination_by l.rest.length
decreasing_by exact (next_rest_lt _h).1

/-- A way to read on. -/
inductive Step where
  | next
  | tokenize
  | drain
  deriving DecidableEq, Repr

/-- The answer to a step. -/
inductive Answer where
  | next (result : LexResult)
  | tokenize (result : Except (Located LexError) (List Token))
  | drain (results : List LexResult)

/-- Reads on in the given way. -/
def step (l : Lexer) : Step → Answer × Lexer
  | .next => (.next l.next.1, l.next.2)
  | .tokenize => (.tokenize l.tokenize.1, l.tokenize.2)
  | .drain => (.drain l.drain.1, l.drain.2)

/-- The answers to a sequence of steps, each from where the one before it
stopped. -/
def run (l : Lexer) : List Step → List Answer
  | [] => []
  | s :: steps => (l.step s).1 :: run (l.step s).2 steps

end Lexer

/-- The tokens of a text, up to its end. -/
def tokensOf (text : String) : Except (Located LexError) (List Token) :=
  (Lexer.ofText text).tokenize.1

end DeclListing
