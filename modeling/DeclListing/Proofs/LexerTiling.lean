import DeclListing.Proofs.TokenGrammarExactness
import DeclListing.Text.Boundary

/-! The answers of a lexer tile the text, through faults too: each stands for a
stretch of its own behind the one before, and only blanks and comments lie
between. One step is read as a gap and a stretch, whatever it answers; the runs
follow from it. Lines are promised up to the first fault, because a line feed
that is refused as an escape is not counted. -/
namespace DeclListing.LexerTiling
open Lexeme TokenGrammarExactness

variable {text before gap written rest : List Char} {l : Lexer} {results : List LexResult}
  {tokens : List Token} {stop : Nat}

/-- The token of an answer; of a fault, the one that marks its stretch. -/
def tokenOf : LexResult → Token
  | .ok t => t
  | .error e => e.token

/-- A step that takes blanks and comments and then a stretch of the text. -/
structure Stretch (l : Lexer) (gap written rest : List Char) : Prop where
  /-- The text from here on starts with the two. -/
  split : l.rest = gap ++ (written ++ rest)
  /-- The first is a gap. -/
  trivia : Gap gap (written ++ rest)
  /-- The second is not empty. -/
  nonempty : written ≠ []
  /-- It is what the answer stands for. -/
  span : (tokenOf l.next.1).span =
    ⟨l.offset + Text.byteLength gap, l.offset + Text.byteLength (gap ++ written)⟩
  /-- The answer is not the end of the text. -/
  notEnd : Lexer.isEnd l.next.1 = false
  /-- The next step starts behind it. -/
  left : l.next.2.rest = rest
  /-- The bytes before are counted. -/
  offset : l.next.2.offset = l.offset + Text.byteLength (gap ++ written)
  /-- The end has not been answered by this step. -/
  finished : l.next.2.finished = l.finished
  /-- The answer is on the line that is reached. -/
  line : (tokenOf l.next.1).line = l.next.2.line
  /-- No line is taken back. -/
  later : l.line ≤ l.next.2.line
  /-- A token is written in its stretch, and the lines are counted. -/
  token : ∀ t, l.next.1 = .ok t →
    Form written t.terminal ∧ l.next.2.line = l.line + Text.lineFeeds (gap ++ written)

/-- An answer stands for what was taken, on the line that is reached. -/
theorem placed_token (s : Scan Terminal) (offset line : Nat) (finished : Bool) :
    (tokenOf (Lexer.placed s offset line finished).1).span =
        ⟨offset, offset + Text.byteLength s.taken⟩ ∧
      (tokenOf (Lexer.placed s offset line finished).1).line = line + s.lines := by
  unfold Lexer.placed
  cases s.outcome <;> exact ⟨rfl, rfl⟩

private theorem placed_ok {s : Scan Terminal} {offset line : Nat} {finished : Bool} {t : Token}
    (answer : (Lexer.placed s offset line finished).1 = .ok t) : s.outcome = .ok t.terminal := by
  unfold Lexer.placed at answer
  cases outcome : s.outcome with
  | ok terminal =>
    simp only [outcome, Except.ok.injEq] at answer
    rw [← answer]
  | error e => simp [outcome] at answer

/-- What one step comes to: the end of the text, or a stretch of it. -/
theorem next_stretch (l : Lexer) :
    (Gap l.rest [] ∧
      l.next = (.ok (Lexer.endToken (atEnd l).offset (atEnd l).line), atEnd l)) ∨
    ∃ gap written rest, Stretch l gap written rest := by
  have whole := Trivia.split_append l.rest
  have trivia := gap_split l.rest
  generalize parted : Trivia.split l.rest = parts at whole trivia
  obtain ⟨gap, remainder⟩ := parts
  cases remainder with
  | nil =>
    have all : gap = l.rest := by simpa using whole
    subst all
    exact .inl ⟨trivia, next_end trivia⟩
  | cons c cs =>
    have lossless := taken_append_rest c cs
    have step : l.next = Lexer.placed (scan c cs) (l.offset + Text.byteLength gap)
        (l.line + Text.lineFeeds gap) l.finished := by
      simp only [Lexer.next, parted]
    obtain ⟨span, line⟩ := placed_token (scan c cs) (l.offset + Text.byteLength gap)
      (l.line + Text.lineFeeds gap) l.finished
    rw [← step] at span line
    have terminal (t : Token) (answer : l.next.1 = .ok t) : (scan c cs).outcome = .ok t.terminal :=
      placed_ok (step ▸ answer)
    refine .inr ⟨gap, (scan c cs).taken, (scan c cs).rest, ?_⟩
    constructor
    · rw [lossless]
      exact whole.symm
    · rw [lossless]
      exact trivia
    · exact taken_ne_nil c cs
    · rw [span, Text.byteLength_append, Nat.add_assoc]
    · cases answer : l.next.1 with
      | error e => rfl
      | ok t =>
        obtain ⟨form, -⟩ := form_of_scan (terminal t answer)
        simpa [Lexer.isEnd] using form_not_end form
    · rw [step]
      rfl
    · rw [step, Text.byteLength_append, ← Nat.add_assoc]
      rfl
    · rw [step]
      rfl
    · rw [line, step]
      rfl
    · rw [step]
      exact Nat.le_add_right_of_le (Nat.le_add_right _ _)
    · intro t answer
      have outcome := terminal t answer
      refine ⟨(form_of_scan outcome).1, ?_⟩
      have lines : (scan c cs).lines = Text.lineFeeds (scan c cs).taken := by
        rw [Scan.lines, outcome]
      rw [step, Text.lineFeeds_append, ← Nat.add_assoc, ← lines]
      rfl

theorem drain_end (answer : Lexer.isEnd l.next.1 = true) : l.drain.1 = [l.next.1] := by
  rw [Lexer.drain]
  split
  · rfl
  · rename_i other
    rw [answer] at other
    cases other

theorem drain_more (answer : Lexer.isEnd l.next.1 = false) :
    l.drain.1 = l.next.1 :: l.next.2.drain.1 := by
  rw [Lexer.drain]
  split
  · rename_i other
    rw [answer] at other
    cases other
  · rfl

/-- What holds of every step up to the end of a text holds of a run: one case
for the end and one for a stretch before it. -/
theorem drain_induction {motive : Lexer → List LexResult → Prop}
    (finish : ∀ l, Gap l.rest [] →
      motive l [.ok (Lexer.endToken (atEnd l).offset (atEnd l).line)])
    (stretch : ∀ l gap written rest results, Stretch l gap written rest →
      motive l.next.2 results → motive l (l.next.1 :: results))
    (l : Lexer) : motive l l.drain.1 := by
  induction length : l.rest.length using Nat.strongRecOn generalizing l with
  | ind size ih =>
    rcases next_stretch l with ⟨trivia, step⟩ | ⟨gap, written, rest, part⟩
    · rw [drain_end (by rw [step]; rfl), step]
      exact finish l trivia
    · have shorter : l.next.2.rest.length < size := by
        rw [← length]
        exact (Lexer.next_rest_lt part.notEnd).1
      rw [drain_more part.notEnd]
      exact stretch l gap written rest _ part (ih _ shorter _ rfl)

/-- There are at most as many answers as characters, and the end. -/
theorem drain_length (l : Lexer) : l.drain.1.length ≤ l.rest.length + 1 := by
  apply drain_induction (motive := fun l results => results.length ≤ l.rest.length + 1)
  · intro l _
    simp
  · intro l gap written rest results part bound
    have shorter := (Lexer.next_rest_lt part.notEnd).1
    rw [List.length_cons]
    omega

/-- A run to the end is that many single steps. -/
theorem drain_steps (l : Lexer) :
    l.run (List.replicate l.drain.1.length .next) = l.drain.1.map .next := by
  apply drain_induction
    (motive := fun l results => l.run (List.replicate results.length .next) = results.map .next)
  · intro l trivia
    simp [Lexer.run, Lexer.step, next_end trivia]
  · intro l gap written rest results _ later
    rw [List.length_cons, List.replicate_succ, Lexer.run, List.map_cons]
    exact congrArg _ later

/-- What was read up to the first fault, held against the answers of the whole
run: all of them, or the one at which the reading stopped. -/
def UpToFault (results : List LexResult) : Except (Located LexError) (List Token) → Prop
  | .ok tokens => results = tokens.map .ok
  | .error e => ∃ (front : List Token) (back : List LexResult),
      results = front.map .ok ++ .error e :: back

/-- Reading to the first fault answers as a run does up to there. -/
theorem tokenize_drain (l : Lexer) : l.finished = false → UpToFault l.drain.1 l.tokenize.1 := by
  apply drain_induction
    (motive := fun l results => l.finished = false → UpToFault results l.tokenize.1)
  · intro l trivia unfinished
    rw [tokenize_token unfinished (next_end trivia), tokenize_finished rfl]
    rfl
  · intro l gap written rest results part later unfinished
    cases answer : l.next.1 with
    | error e =>
      rw [tokenize_error unfinished (Prod.ext answer rfl)]
      exact ⟨[], results, rfl⟩
    | ok t =>
      rw [tokenize_token unfinished (Prod.ext answer rfl)]
      have tail := later (part.finished.trans unfinished)
      cases read : l.next.2.tokenize.1 with
      | ok tokens =>
        rw [read] at tail
        exact congrArg (.ok t :: ·) tail
      | error e =>
        rw [read] at tail
        obtain ⟨front, back, same⟩ := tail
        exact ⟨t :: front, back, congrArg (.ok t :: ·) same⟩

/-- The tokens of a text are all the answers of a run. -/
theorem tokens_answered {text : String} (lexed : tokensOf text = .ok tokens) :
    (Lexer.ofText text).drain.1 = tokens.map .ok := by
  have same := tokenize_drain (.ofText text) rfl
  rwa [show (Lexer.ofText text).tokenize.1 = .ok tokens from lexed] at same

/-- No answer is before the line of the place where a run starts. -/
theorem drain_line_le (l : Lexer) : ∀ r ∈ l.drain.1, l.line ≤ (tokenOf r).line := by
  apply drain_induction (motive := fun l results => ∀ r ∈ results, l.line ≤ (tokenOf r).line)
  · intro l trivia r listed
    rw [List.mem_singleton.mp listed]
    exact Nat.le_add_right l.line _
  · intro l gap written rest results part later r listed
    rcases List.mem_cons.mp listed with first | others
    · rw [first, part.line]
      exact part.later
    · exact Nat.le_trans part.later (later r others)

/-- `Tiles text stop results`: the answers stand, one behind the other, for
stretches of the text behind byte `stop`, with nothing but gaps between them,
and the last is the end of the text. -/
inductive Tiles (text : List Char) : Nat → List LexResult → Prop where
  | finish {stop : Nat} {t : Token} {gap : List Char} :
      t.terminal = .eof → t.span = ⟨Text.byteLength text, Text.byteLength text⟩ →
      Text.slice? text stop (Text.byteLength text) = some gap → Gap gap [] →
      Tiles text stop [.ok t]
  | stretch {stop : Nat} {r : LexResult} {results : List LexResult}
      {gap written rest : List Char} :
      Lexer.isEnd r = false → (tokenOf r).span.start < (tokenOf r).span.stop →
      Text.slice? text stop (tokenOf r).span.start = some gap →
      Text.slice? text (tokenOf r).span.start (tokenOf r).span.stop = some written →
      Text.dropBytes? text (tokenOf r).span.stop = some rest → Gap gap (written ++ rest) →
      (∀ t, r = .ok t → Form written t.terminal) → Tiles text (tokenOf r).span.stop results →
      Tiles text stop (r :: results)

/-- Up to the first fault, every answer is on the line on which its stretch
ends. -/
def LinesCounted (text : List Char) (results : List LexResult) : Prop :=
  ∀ r ∈ results.takeWhile Except.isOk, ∃ before,
    Text.takeBytes? text (tokenOf r).span.stop = some before ∧
      (tokenOf r).line = 1 + Text.lineFeeds before

/-- A lexer stands in a text, behind the part before it. -/
structure StandsBehind (l : Lexer) (text before : List Char) : Prop where
  /-- What is left is the remainder of the text. -/
  split : text = before ++ l.rest
  /-- The bytes of the part before are counted. -/
  offset : l.offset = Text.byteLength before

theorem stands_at_start (text : String) : StandsBehind (.ofText text) text.toList [] :=
  ⟨rfl, rfl⟩

/-- A step leaves a lexer behind the stretch that it took. -/
theorem StandsBehind.step (stands : StandsBehind l text before)
    (part : Stretch l gap written rest) :
    StandsBehind l.next.2 text (before ++ gap ++ written) := by
  constructor
  · rw [stands.split, part.split, part.left]
    simp
  · rw [part.offset, stands.offset]
    simp

private theorem drain_tiles_behind (l : Lexer) :
    ∀ before, StandsBehind l text before → Tiles text l.offset l.drain.1 := by
  apply drain_induction
    (motive := fun l results => ∀ before, StandsBehind l text before → Tiles text l.offset results)
  · intro l trivia before stands
    have whole : l.offset + Text.byteLength l.rest = Text.byteLength text := by
      rw [stands.split, stands.offset, Text.byteLength_append]
    apply Tiles.finish rfl _ _ trivia
    · simp only [Lexer.endToken, atEnd, whole]
    · exact Text.slice?_eq_some_iff.mpr
        ⟨before, [], by simp [stands.split], stands.offset.symm, whole⟩
  · intro l gap written rest results part later before stands
    have next := stands.step part
    have tail := later _ next
    have wide : Text.byteLength written ≠ 0 := by
      intro empty
      exact part.nonempty (Text.byteLength_eq_zero_iff.mp empty)
    have start : (tokenOf l.next.1).span.start = l.offset + Text.byteLength gap := by
      rw [part.span]
    have stop : (tokenOf l.next.1).span.stop = l.next.2.offset := by
      rw [part.span, part.offset]
    have length := part.offset
    rw [Text.byteLength_append] at length
    have trivia := part.trivia
    rw [← part.left] at trivia
    rw [← stop] at tail
    apply Tiles.stretch part.notEnd _ _ _ _ trivia _ tail
    · rw [start, stop]
      omega
    · rw [start]
      exact Text.slice?_eq_some_iff.mpr
        ⟨before, written ++ l.next.2.rest, by simp [next.split], stands.offset.symm, rfl⟩
    · rw [start, stop]
      exact Text.slice?_eq_some_iff.mpr
        ⟨before ++ gap, l.next.2.rest, by simp [next.split], by simp [stands.offset], by omega⟩
    · rw [stop]
      exact Text.dropBytes?_eq_some_iff.mpr
        ⟨before ++ gap ++ written, next.split, next.offset.symm⟩
    · intro t answer
      exact (part.token t answer).1

/-- The answers from any place on tile the text behind it. -/
theorem drain_tiles (stands : StandsBehind l text before) : Tiles text l.offset l.drain.1 :=
  drain_tiles_behind l before stands

/-- Every answer can be cut out of the text, and a token is written there. -/
theorem tiles_cut (tiles : Tiles text stop results) :
    ∀ r ∈ results, ∃ written,
      Text.slice? text (tokenOf r).span.start (tokenOf r).span.stop = some written ∧
        ∀ t, r = .ok t → t.terminal ≠ .eof → Form written t.terminal := by
  induction tiles with
  | @finish stop t gap ends span _ _ =>
    intro r listed
    rw [List.mem_singleton.mp listed]
    refine ⟨[], ?_, fun u same other => ?_⟩
    · rw [tokenOf, span]
      exact Text.slice?_eq_some_iff.mpr ⟨text, [], by simp, rfl, rfl⟩
    · cases same
      exact absurd ends other
  | stretch _ _ _ cut _ _ form _ ih =>
    intro r listed
    rcases List.mem_cons.mp listed with rfl | others
    · exact ⟨_, cut, fun t answer _ => form t answer⟩
    · exact ih r others

/-- The stretches stand one behind the other. -/
theorem tiles_ordered (tiles : Tiles text stop results) :
    (∀ r ∈ results, stop ≤ (tokenOf r).span.start) ∧
      results.Pairwise fun a b => (tokenOf a).span.stop ≤ (tokenOf b).span.start := by
  induction tiles with
  | @finish stop t gap _ span cut _ =>
    refine ⟨fun r listed => ?_, List.pairwise_singleton _ _⟩
    rw [List.mem_singleton.mp listed, tokenOf, span]
    exact (Text.slice?_isSome_iff.mp (Option.isSome_of_eq_some cut)).1
  | @stretch stop r results _ _ _ _ order cut _ _ _ _ _ ih =>
    have first := (Text.slice?_isSome_iff.mp (Option.isSome_of_eq_some cut)).1
    refine ⟨fun other listed => ?_, List.pairwise_cons.mpr ih⟩
    rcases List.mem_cons.mp listed with rfl | others
    · exact first
    · have behind := ih.1 other others
      omega

/-- The answers from a place whose line is counted are on lines that are. -/
theorem drain_lines (l : Lexer) : ∀ before, StandsBehind l text before →
    l.line = 1 + Text.lineFeeds before → LinesCounted text l.drain.1 := by
  apply drain_induction (motive := fun l results => ∀ before, StandsBehind l text before →
    l.line = 1 + Text.lineFeeds before → LinesCounted text results)
  · intro l trivia before stands line r listed
    obtain rfl := List.mem_singleton.mp ((List.takeWhile_sublist _).subset listed)
    refine ⟨text, ?_, ?_⟩
    · exact Text.takeBytes?_eq_some_iff.mpr
        ⟨[], by simp, by simp [tokenOf, Lexer.endToken, atEnd, stands.split, stands.offset]⟩
    · simp [tokenOf, Lexer.endToken, atEnd, stands.split, line, Nat.add_assoc]
  · intro l gap written rest results part later before stands line r listed
    have behind := stands.step part
    cases answer : l.next.1 with
    | error e => simp [answer, Except.isOk, Except.toBool] at listed
    | ok t =>
      have counted := (part.token t answer).2
      have next : l.next.2.line = 1 + Text.lineFeeds (before ++ gap ++ written) := by
        rw [counted, line]
        simp [Nat.add_assoc]
      rw [List.takeWhile_cons, answer, Except.isOk, Except.toBool, if_pos rfl] at listed
      rcases List.mem_cons.mp listed with first | others
      · rw [first, ← answer]
        refine ⟨before ++ gap ++ written, ?_, part.line.trans next⟩
        exact Text.takeBytes?_eq_some_iff.mpr
          ⟨_, behind.split, by rw [part.span, ← part.offset, behind.offset]⟩
      · exact later _ behind next r others

/-- Reading a text on to its end, through faults, ends after at most one step
more than it has characters. The answers tile the text, and up to the first
fault each is on the line on which it ends. -/
theorem answers_tile_text (text : String) :
    let l := Lexer.ofText text
    let results := l.drain.1
    l.run (List.replicate results.length .next) = results.map .next ∧
      results.length ≤ text.length + 1 ∧ Tiles text.toList 0 results ∧
      LinesCounted text.toList results := by
  intro l results
  have length := drain_length l
  rw [show l.rest = text.toList from rfl, String.length_toList] at length
  have stands := stands_at_start text
  exact ⟨drain_steps l, length, drain_tiles stands, drain_lines l [] stands rfl⟩

end DeclListing.LexerTiling
