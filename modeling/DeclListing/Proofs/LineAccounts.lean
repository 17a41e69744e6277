import DeclListing.Proofs.LexerTiling

/-! The lines of a lexer's answers, through faults and however it is driven on.
A line feed that is refused as an escape is taken and not counted; every other
one is. So the line of an answer is short of the line on which it ends by the
number of such refusals up to it, and right exactly when there was none. -/
namespace DeclListing.LineAccounts
open Lexeme LexerTiling TokenGrammarExactness

variable {text : List Char} {l : Lexer} {r : LexResult} {results : List LexResult} {missed : Nat}

/-- Whether an answer is the fault of a line feed behind a backslash. -/
def refusesLineFeed : LexResult → Bool
  | .ok _ => false
  | .error e => e.value = .invalidEscape '\n'

/-- The line feeds that were refused as escapes. -/
def refusals (results : List LexResult) : Nat :=
  results.countP refusesLineFeed

@[simp]
theorem refusals_nil : refusals [] = 0 := rfl

@[simp]
theorem refusals_append (first second : List LexResult) :
    refusals (first ++ second) = refusals first + refusals second :=
  List.countP_append

theorem refusals_cons (r : LexResult) (results : List LexResult) :
    refusals (r :: results) = refusals [r] + refusals results :=
  refusals_append [r] results

/-- Tokens refuse nothing. -/
@[simp]
theorem refusals_token (t : Token) (results : List LexResult) :
    refusals (.ok t :: results) = refusals results := by
  simp [refusals, refusesLineFeed]

/-- A character that a scan refuses as an escape is the last one it takes. -/
def RefusesLast {α : Type} (s : Scan α) : Prop :=
  ∀ d, s.outcome = .error (.invalidEscape d) → ∃ front, s.taken = front ++ [d]

private theorem RefusesLast.extend {α β : Type} {s : Scan α} (last : RefusesLast s)
    (before : List Char) (f : α → β) : RefusesLast (s.extend before f) := by
  intro d refused
  cases inner : s.outcome with
  | ok value => simp [inner, Except.map] at refused
  | error fault =>
    simp only [Scan.outcome_extend, inner, Except.map, Except.error.injEq] at refused
    obtain ⟨front, taken⟩ := last d (refused ▸ inner)
    exact ⟨before ++ front, by simp [taken]⟩

private theorem body_refuses_last (cs : List Char) : RefusesLast (scanStringBody cs) := by
  fun_induction scanStringBody cs with
  | case1 | case2 | case3 =>
    intro d refused
    cases refused
  | case4 c rest d _ ih => exact ih.extend ['\\', c] (d :: ·)
  | case5 c rest =>
    intro d refused
    cases refused
    exact ⟨['\\'], rfl⟩
  | case6 c rest _ _ _ ih => exact ih.extend [c] (c :: ·)

private theorem integer_refuses_last (cs : List Char) : RefusesLast (scanInteger cs) := by
  intro d refused
  have other (digits : List Char) : integerOfDigits digits ≠ .error (.invalidEscape d) := by
    unfold integerOfDigits
    split <;> simp
  unfold scanInteger at refused
  split at refused
  · exact absurd refused (other _)
  · split at refused
    · exact absurd refused (other _)
    · cases refused

theorem scan_refuses_last (c : Char) (cs : List Char) : RefusesLast (scan c cs) := by
  unfold scan
  split
  · exact nofun
  · split
    · split <;> exact nofun
    · split
      · exact (body_refuses_last cs).extend _ _
      · split
        · exact integer_refuses_last _
        · split <;> exact nofun

/-- A scan counts the line feeds that it takes, but for one that is refused. -/
theorem scan_lines (s : Scan Terminal) (last : RefusesLast s) (offset line : Nat)
    (finished : Bool) :
    s.lines + refusals [(Lexer.placed s offset line finished).1] = Text.lineFeeds s.taken := by
  unfold Scan.lines Lexer.placed
  cases outcome : s.outcome with
  | ok terminal => rfl
  | error e =>
    cases e with
    | invalidEscape d =>
      obtain ⟨front, taken⟩ := last d outcome
      simp only [taken, List.dropLast_concat, Text.lineFeeds_append]
      simp [refusals, refusesLineFeed, Text.lineFeeds, List.count_singleton, List.countP_cons]
    | unexpectedEnd | invalidDigit | integerOverflow | unexpectedChar =>
      simp [refusals, refusesLineFeed]

/-- What a step takes from the text: its answer ends where the step does, on the
line that is reached, and the lines are short by what was refused. -/
theorem next_place (l : Lexer) :
    (tokenOf l.next.1).span.stop = l.next.2.offset ∧ (tokenOf l.next.1).line = l.next.2.line ∧
      ∃ taken, l.rest = taken ++ l.next.2.rest ∧
        l.next.2.offset = l.offset + Text.byteLength taken ∧
        l.next.2.line + refusals [l.next.1] = l.line + Text.lineFeeds taken := by
  have whole := Trivia.split_append l.rest
  generalize parted : Trivia.split l.rest = parts at whole
  obtain ⟨gap, remainder⟩ := parts
  cases remainder with
  | nil =>
    simp only [Lexer.next, parted]
    exact ⟨rfl, rfl, gap, whole.symm, rfl, rfl⟩
  | cons c cs =>
    have lossless := taken_append_rest c cs
    have counted := scan_lines (scan c cs) (scan_refuses_last c cs)
      (l.offset + Text.byteLength gap) (l.line + Text.lineFeeds gap) l.finished
    have step : l.next = Lexer.placed (scan c cs) (l.offset + Text.byteLength gap)
        (l.line + Text.lineFeeds gap) l.finished := by
      simp only [Lexer.next, parted]
    obtain ⟨span, line⟩ := placed_token (scan c cs) (l.offset + Text.byteLength gap)
      (l.line + Text.lineFeeds gap) l.finished
    rw [← step] at counted span line
    refine ⟨?_, line.trans ?_, gap ++ (scan c cs).taken, ?_, ?_, ?_⟩
    · rw [span, step]
      rfl
    · rw [step]
      rfl
    · rw [step, ← whole, ← lossless, List.append_assoc]
      rfl
    · rw [step, Text.byteLength_append, ← Nat.add_assoc]
      rfl
    · have line : l.next.2.line = l.line + Text.lineFeeds gap + (scan c cs).lines := by
        rw [step]
        rfl
      rw [line, Text.lineFeeds_append]
      omega

/-- The lexer stands in the text, and its line is short by the refusals so
far. -/
def Counted (text : List Char) (missed : Nat) (l : Lexer) : Prop :=
  ∃ before, StandsBehind l text before ∧ l.line + missed = 1 + Text.lineFeeds before

/-- The line of an answer is short by these refusals of the line on which it
ends. -/
def LineShort (text : List Char) (missed : Nat) (r : LexResult) : Prop :=
  ∃ before, Text.takeBytes? text (tokenOf r).span.stop = some before ∧
    (tokenOf r).line + missed = 1 + Text.lineFeeds before

/-- The line of every answer is short by the refusals up to and with it. -/
def LinesShort (text : List Char) : Nat → List LexResult → Prop
  | _, [] => True
  | missed, r :: results =>
    LineShort text (missed + refusals [r]) r ∧ LinesShort text (missed + refusals [r]) results

theorem counted_at_start (text : String) : Counted text.toList 0 (.ofText text) :=
  ⟨[], stands_at_start text, rfl⟩

/-- A step keeps the account. -/
theorem next_counted (counted : Counted text missed l) :
    LineShort text (missed + refusals [l.next.1]) l.next.1 ∧
      Counted text (missed + refusals [l.next.1]) l.next.2 := by
  obtain ⟨before, stands, line⟩ := counted
  obtain ⟨stop, on, taken, split, offset, reached⟩ := next_place l
  have behind : StandsBehind l.next.2 text (before ++ taken) := by
    constructor
    · rw [stands.split, split, List.append_assoc]
    · rw [offset, stands.offset, Text.byteLength_append]
  have account : l.next.2.line + (missed + refusals [l.next.1]) =
      1 + Text.lineFeeds (before ++ taken) := by
    rw [Text.lineFeeds_append]
    omega
  refine ⟨⟨before ++ taken, ?_, on ▸ account⟩, before ++ taken, behind, account⟩
  rw [stop, behind.offset, behind.split]
  exact Text.takeBytes?_append _ _

theorem lines_short_append {first second : List LexResult} (front : LinesShort text missed first)
    (back : LinesShort text (missed + refusals first) second) :
    LinesShort text missed (first ++ second) := by
  induction first generalizing missed with
  | nil => exact back
  | cons r first ih =>
    rw [refusals_cons, ← Nat.add_assoc] at back
    exact ⟨front.1, ih front.2 back⟩

/-- The results of single steps that an answer gives. Of tokens that are dropped
for a fault behind them nothing is left. -/
def resultsOf : Lexer.Answer → List LexResult
  | .next r => [r]
  | .tokenize (.ok tokens) => tokens.map .ok
  | .tokenize (.error e) => [.error e]
  | .drain results => results

theorem tokenize_counted (counted : Counted text missed l) :
    LinesShort text missed (resultsOf (.tokenize l.tokenize.1)) ∧
      Counted text (missed + refusals (resultsOf (.tokenize l.tokenize.1))) l.tokenize.2 := by
  fun_induction Lexer.tokenize l generalizing missed with
  | case1 l finished => exact ⟨trivial, counted⟩
  | case2 l unfinished e after step =>
    obtain ⟨short, behind⟩ := next_counted counted
    rw [step] at short behind
    exact ⟨⟨short, trivial⟩, behind⟩
  | case3 l unfinished t after step tokens last read ih =>
    obtain ⟨short, behind⟩ := next_counted counted
    simp only [step, refusals_token, refusals_nil, Nat.add_zero] at short behind
    have rest := ih behind
    rw [read] at rest
    cases tokens with
    | ok more => exact ⟨⟨short, rest.1⟩, by simpa [Except.map, resultsOf] using rest.2⟩
    | error e => exact rest

theorem drain_counted (counted : Counted text missed l) :
    LinesShort text missed l.drain.1 ∧ Counted text (missed + refusals l.drain.1) l.drain.2 := by
  fun_induction Lexer.drain l generalizing missed with
  | case1 l ends =>
    obtain ⟨short, behind⟩ := next_counted counted
    exact ⟨⟨short, trivial⟩, behind⟩
  | case2 l more results last read ih =>
    obtain ⟨short, behind⟩ := next_counted counted
    have rest := ih behind
    rw [read] at rest
    refine ⟨⟨short, rest.1⟩, ?_⟩
    rw [refusals_cons, ← Nat.add_assoc]
    exact rest.2

/-- However a lexer is driven on, the account is kept. -/
theorem step_counted (counted : Counted text missed l) (s : Lexer.Step) :
    LinesShort text missed (resultsOf (l.step s).1) ∧
      Counted text (missed + refusals (resultsOf (l.step s).1)) (l.step s).2 := by
  cases s with
  | next =>
    obtain ⟨short, behind⟩ := next_counted counted
    exact ⟨⟨short, trivial⟩, behind⟩
  | tokenize => exact tokenize_counted counted
  | drain => exact drain_counted counted

theorem run_counted (steps : List Lexer.Step) (counted : Counted text missed l) :
    LinesShort text missed ((l.run steps).flatMap resultsOf) := by
  induction steps generalizing l missed with
  | nil => trivial
  | cons s steps ih =>
    obtain ⟨short, behind⟩ := step_counted counted s
    rw [Lexer.run, List.flatMap_cons]
    exact lines_short_append short (ih behind)

theorem line_short_of_mem {front back : List LexResult}
    (short : LinesShort text missed (front ++ r :: back)) :
    LineShort text (missed + refusals (front ++ [r])) r := by
  induction front generalizing missed with
  | nil => exact short.1
  | cons other front ih =>
    rw [List.cons_append, refusals_cons, ← Nat.add_assoc]
    exact ih short.2

/-- A token is on the line on which its stretch of the text ends. -/
def EndsOnLine (text : List Char) (t : Token) : Prop :=
  ∃ before, Text.takeBytes? text t.span.stop = some before ∧ t.line = 1 + Text.lineFeeds before

/-- An answer with refusals behind it is on an earlier line than it should be. -/
theorem ends_on_line_iff (short : LineShort text missed r) :
    EndsOnLine text (tokenOf r) ↔ missed = 0 := by
  obtain ⟨before, cut, line⟩ := short
  constructor
  · rintro ⟨_, again, right⟩
    rw [cut] at again
    cases again
    omega
  · rintro rfl
    exact ⟨before, cut, line⟩

/-- Of all answers of a lexer, however it is driven on through faults, the line
is short by the line feeds that were refused as escapes up to it. So it is right
exactly when there was no such refusal. -/
theorem lines_short_by_refusals (text : String) (steps : List Lexer.Step)
    (front : List LexResult) (r : LexResult) (back : List LexResult)
    (answered : ((Lexer.ofText text).run steps).flatMap resultsOf = front ++ r :: back) :
    LineShort text.toList (refusals (front ++ [r])) r ∧
      (EndsOnLine text.toList (tokenOf r) ↔
        ∀ other ∈ front ++ [r], refusesLineFeed other = false) := by
  have lines := run_counted steps (counted_at_start text)
  rw [answered] at lines
  have short := line_short_of_mem lines
  rw [Nat.zero_add] at short
  refine ⟨short, (ends_on_line_iff short).trans ?_⟩
  simp only [refusals, List.countP_eq_zero, Bool.not_eq_true]

private theorem refused_then_mark :
    ((Lexer.ofText "\"\\\n;").run [.next, .next]).flatMap resultsOf =
      [.error ⟨.invalidEscape '\n', ⟨.error, ⟨0, 3⟩, 1⟩⟩] ++ .ok ⟨.semicolon, ⟨3, 4⟩, 1⟩ :: [] :=
  rfl

/-- Behind a refused line feed the line is one short. -/
theorem mark_behind_refusal_short :
    ((Lexer.ofText "\"\\\n;").run [.next, .next]).flatMap resultsOf =
        [.error ⟨.invalidEscape '\n', ⟨.error, ⟨0, 3⟩, 1⟩⟩] ++ .ok ⟨.semicolon, ⟨3, 4⟩, 1⟩ :: [] ∧
      LineShort "\"\\\n;".toList 1 (.ok ⟨.semicolon, ⟨3, 4⟩, 1⟩) ∧
      ¬ EndsOnLine "\"\\\n;".toList ⟨.semicolon, ⟨3, 4⟩, 1⟩ := by
  obtain ⟨short, exact⟩ := lines_short_by_refusals "\"\\\n;" [.next, .next] _ _ _ refused_then_mark
  refine ⟨refused_then_mark, short, fun right => ?_⟩
  have quiet := exact.mp right _ List.mem_cons_self
  cases quiet

/-- Lines do not stay right when reading goes on behind a fault. -/
theorem lines_not_kept_behind_faults :
    ¬ ∀ (text : String) (steps : List Lexer.Step),
      ∀ r ∈ ((Lexer.ofText text).run steps).flatMap resultsOf,
        EndsOnLine text.toList (tokenOf r) := by
  intro kept
  have wrong := kept "\"\\\n;" [.next, .next] (.ok ⟨.semicolon, ⟨3, 4⟩, 1⟩)
    (by rw [refused_then_mark]; simp)
  obtain ⟨before, cut, line⟩ := wrong
  have whole : Text.takeBytes? "\"\\\n;".toList 4 = some ['"', '\\', '\n', ';'] := rfl
  cases cut.symm.trans whole
  exact absurd line (by decide)

end DeclListing.LineAccounts
