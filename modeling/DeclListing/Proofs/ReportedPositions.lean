import DeclListing.Proofs.LineAccounts
import DeclListing.Proofs.ReportPlaces

/-! The position that a rejected text is reported with. Its column is that of the
first byte of the offending stretch, and its line is the one on which the stretch
ends. So both tell of one place exactly when no line ends inside the stretch: a
string that goes over several lines is reported on its last, and so is a sign
with its digits further down. -/
namespace DeclListing.ReportedPositions
open Lexeme LexerTiling LineAccounts FaultPlaces ReportPlaces

variable {text : List Char} {tokens rest : List Token} {t : Token} {fault : Fault}

private theorem tokens_of_lines_short (short : LinesShort text 0 (tokens.map .ok)) :
    ∀ t ∈ tokens, EndsOnLine text t := by
  induction tokens with
  | nil => simp
  | cons t tokens ih => exact List.forall_mem_cons.mpr ⟨short.1, ih short.2⟩

/-- Every token of a text is on the line on which it ends. -/
theorem tokens_on_line {text : String} (lexed : tokensOf text = .ok tokens) :
    ∀ t ∈ tokens, EndsOnLine text.toList t := by
  have short := (tokenize_counted (counted_at_start text)).1
  rw [show (Lexer.ofText text).tokenize.1 = .ok tokens from lexed] at short
  exact tokens_of_lines_short short

/-- The line of the fault at which reading a text as tokens stops is short by the
line feed that it refuses. -/
theorem refusal_line {text : String} {e : Located LexError} (lexed : tokensOf text = .error e) :
    LineShort text.toList (refusals [.error e]) (.error e) := by
  have short := (tokenize_counted (counted_at_start text)).1
  rw [show (Lexer.ofText text).tokenize.1 = .error e from lexed] at short
  have first := short.1
  rwa [Nat.zero_add] at first

/-- The error for a fault in the tokens of a text is on the line on which its
stretch ends. A sign and its digits are on the line of the digits. -/
theorem fault_on_line {text : String} {e : Located SyntaxError}
    (lexed : tokensOf text = .ok tokens) (read : Reader.listing tokens = .error fault rest)
    (stated : fault.inText? text.toList = some e) :
    EndsOnLine text.toList e.token := by
  have lines := tokens_on_line lexed
  cases listing_fault read with
  | @found front _ what t plain =>
    have here : EndsOnLine text.toList t := lines t (by simp)
    rw [Fault.inText?] at stated
    split at stated
    · cases stated
      exact here
    · obtain ⟨got, -, same⟩ := Option.map_eq_some_iff.mp stated
      rw [← same]
      exact here
  | missing plain => exact absurd plain (tokens_not_plain lexed)
  | @refused front _ error t plain other =>
    cases stated
    exact lines t (by simp)
  | @signed front _ error sign t plain minus other =>
    cases stated
    exact lines t (by simp)

/-- The token that a rejection is about, and the wording of it. -/
def complaint? : Rejection → Option (Token × String)
  | .lexical e => some (e.token, e.value.message)
  | .syntactic e => some (e.token, e.value.message)
  | .unreadable => none

/-- The line feed that a rejection leaves uncounted: one that was refused as an
escape. -/
def uncounted : Rejection → Nat
  | .lexical e => refusals [.error e]
  | _ => 0

/-- A rejection is about a token that can be reported, whose line is short by
what was left uncounted. -/
theorem rejection_placed {text : String} {rejection : Rejection}
    (rejected : (checkText text).outcome = .error rejection) :
    ∃ t message, complaint? rejection = some (t, message) ∧ Reportable text.toList t ∧
      ∃ before, Text.takeBytes? text.toList t.span.stop = some before ∧
        t.line + uncounted rejection = 1 + Text.lineFeeds before := by
  unfold checkText at rejected
  cases lexed : tokensOf text with
  | error e =>
    simp only [lexed, Except.error.injEq] at rejected
    subst rejected
    exact ⟨_, _, rfl, refusal_reportable lexed, refusal_line lexed⟩
  | ok tokens =>
    cases read : Reader.listing tokens with
    | ok items rest => simp [lexed, Listing.read, read, Reading.ofRead] at rejected
    | error fault rest =>
      obtain ⟨e, stated, here⟩ := fault_reportable lexed read
      simp only [lexed, Listing.read, read, Reading.ofRead, stated, Except.error.injEq] at rejected
      subst rejected
      exact ⟨_, _, rfl, here, fault_on_line lexed read stated⟩

/-- A report of a place in a text. -/
def positionLine (line column : Nat) (lexeme : List Char) (message : String) : String :=
  "Error " ++ toString line ++ ":" ++ toString column ++ " (at " ++
    Text.quote (String.ofList lexeme) ++ "):: " ++ message

/-- A token that can be reported is shown with its stretch of the text, and with
the column at which that starts. -/
theorem report_line (here : Reportable text t) (message : String) :
    ∃ front lexeme after, text = front ++ (lexeme ++ after) ∧
      t.span = ⟨Text.byteLength front, Text.byteLength (front ++ lexeme)⟩ ∧
      Command.Job.reportLine? text t message =
        some (positionLine t.line (1 + Text.byteLength (Text.lastLine front)) lexeme message) := by
  obtain ⟨lexeme, cut⟩ := Option.isSome_iff_exists.mp
    (Text.slice?_isSome_iff.mpr ⟨here.ordered, here.starts, here.stops⟩)
  obtain ⟨front, after, split, start, stop⟩ := Text.slice?_eq_some_iff.mp cut
  have column : Text.column? text t.span.start =
      some (1 + Text.byteLength (Text.lastLine front)) := by
    rw [Text.column?, split, ← start, Text.takeBytes?_append, Option.map_some, Nat.add_comm]
  refine ⟨front, lexeme, after, split, ?_, ?_⟩
  · rw [Text.byteLength_append, start, stop]
  · rw [Command.Job.reportLine?, column, cut]
    rfl

/-- A rejected text is reported in one line, with the bytes on the line before
the offending stretch as its column. The line it names is the one on which the
stretch ends, but for a line feed refused as an escape; it is the line on which
the stretch starts exactly when there are no other line feeds in it. -/
theorem reported_position_exact {text : String} {rejection : Rejection}
    (rejected : (checkText text).outcome = .error rejection) :
    ∃ t message front lexeme after,
      complaint? rejection = some (t, message) ∧
      text.toList = front ++ (lexeme ++ after) ∧
      t.span = ⟨Text.byteLength front, Text.byteLength (front ++ lexeme)⟩ ∧
      (∀ job : Command.Job, job.runText text =
        { exit := 1
          stderr := Command.unlines (job.log (checkText text).events ++
            [job.styling.red
              (positionLine t.line (1 + Text.byteLength (Text.lastLine front)) lexeme
                message)]) }) ∧
      t.line + uncounted rejection = 1 + Text.lineFeeds front + Text.lineFeeds lexeme ∧
      (t.line = 1 + Text.lineFeeds front ↔ Text.lineFeeds lexeme = uncounted rejection) := by
  obtain ⟨t, message, about, here, before, cut, line⟩ := rejection_placed rejected
  obtain ⟨front, lexeme, after, split, span, shown⟩ := report_line here message
  have whole : before = front ++ lexeme := by
    rw [span, split, ← List.append_assoc, Text.takeBytes?_append] at cut
    exact (Option.some.inj cut).symm
  rw [whole, Text.lineFeeds_append, ← Nat.add_assoc] at line
  refine ⟨t, message, front, lexeme, after, about, split, span, fun job => ?_, line, by omega⟩
  have lines : Command.Job.rejectionLines text.toList rejection =
      [positionLine t.line (1 + Text.byteLength (Text.lastLine front)) lexeme message] := by
    cases rejection with
    | lexical e | syntactic e =>
      cases about
      rw [Command.Job.rejectionLines, shown]
      rfl
    | unreadable => cases about
  rw [Command.Job.runText, rejected]
  simp only [lines, List.map_singleton]

/-- A sign on one line with its digits on the next is reported on the second line,
at a column of the first. -/
theorem sign_over_lines_reported :
    ∃ rejection t message front lexeme after,
      (checkText "fn f(-\n1) -> int;").outcome = .error rejection ∧
      complaint? rejection = some (t, message) ∧
      "fn f(-\n1) -> int;".toList = front ++ (lexeme ++ after) ∧
      t.span = ⟨Text.byteLength front, Text.byteLength (front ++ lexeme)⟩ ∧
      Text.byteLength front = 5 ∧ t.line = 2 ∧ t.line ≠ 1 + Text.lineFeeds front := by
  have rejected : (checkText "fn f(-\n1) -> int;").outcome =
      .error (.syntactic ⟨.literal .negativeArity, ⟨.integer 1, ⟨5, 8⟩, 2⟩⟩) :=
    checkText_eq_error_iff.mpr (by decide +kernel)
  obtain ⟨t, message, front, lexeme, after, about, split, span, -, -, -⟩ :=
    reported_position_exact rejected
  obtain ⟨rfl, rfl⟩ := Prod.mk.inj (Option.some.inj about)
  have start : Text.byteLength front = 5 := (Span.mk.inj span).1.symm
  have before : front = "fn f(".toList := by
    have cut := Text.takeBytes?_append front (lexeme ++ after)
    rw [← split, start] at cut
    exact (Option.some.inj cut).symm
  exact ⟨_, _, _, front, lexeme, after, rejected, about, split, span, start, rfl,
    by rw [before]; decide⟩

/-- The position that is reported is not always a place in the text: of a string
over two lines it has the column of its start and the line of its end. -/
theorem string_over_lines_misplaced :
    (Command.Job.runText
        { file := "input.sym", summary := false, log := fun _ => [], styling := .plain }
        "int x = \"a\nb\";").stderr =
      "Error 2:9 (at \"\\\"a\\nb\\\"\"):: cannot initialize `int` with a string literal\n" ∧
    ¬ ∀ (text : String) (rejection : Rejection), (checkText text).outcome = .error rejection →
      ∀ t message front rest, complaint? rejection = some (t, message) →
        text.toList = front ++ rest → t.span.start = Text.byteLength front →
          t.line = 1 + Text.lineFeeds front := by
  refine ⟨by decide +kernel, fun located => ?_⟩
  have rejected : (checkText "int x = \"a\nb\";").outcome = .error (.syntactic
      ⟨.literal (.kindMismatch .int .string), ⟨.string "a\nb", ⟨8, 13⟩, 2⟩⟩) :=
    checkText_eq_error_iff.mpr (by decide +kernel)
  have line := located _ _ rejected _ _ "int x = ".toList "\"a\nb\";".toList rfl rfl rfl
  exact absurd line (by decide)

end DeclListing.ReportedPositions
