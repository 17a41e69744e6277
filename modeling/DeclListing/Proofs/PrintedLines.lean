import DeclListing.Proofs.ReportContents
import DeclListing.Proofs.ReportedPositions
import DeclListing.Proofs.Reprinting

/-! The lines that the command prints for a text. There is one for the fault of the
text or for each problem of its listing, and one for each declared name. Whatever of
a file is put into a line is quoted or is a name of the listing, and names are made
of letters, digits and underscores. So no line holds a control character, whatever
the file holds, and none is broken by a line feed. -/
namespace DeclListing.PrintedLines
open Lexeme Command ReportPlaces ReportedPositions Reprinting ReportContents
open CheckDiagnostics UsageAccounts NameConservation

variable {s t text : String} {job : Job} {items : Listing}

/-- The control characters: U+0000 to U+001F, and U+007F to U+009F. -/
def Control (c : Char) : Prop :=
  c.toNat ≤ 0x1f ∨ 0x7f ≤ c.toNat ∧ c.toNat ≤ 0x9f

/-- A text that holds no control character. -/
def Shown (s : String) : Prop :=
  ∀ c ∈ s.toList, ¬ Control c

theorem not_control_iff {c : Char} : ¬ Control c ↔ Text.isControl c = false := by
  rw [← Bool.not_eq_true, not_iff_not]
  simp [Control, Text.isControl, Nat.lt_succ_iff]

theorem shown_iff : Shown s ↔ ∀ c ∈ s.toList, Text.isControl c = false := by
  simp only [Shown, not_control_iff]

theorem Shown.append (first : Shown s) (second : Shown t) : Shown (s ++ t) := by
  rw [Shown, String.toList_append]
  exact List.forall_mem_append.mpr ⟨first, second⟩

/-- A fixed word is shown if none of its characters is a control character. -/
theorem word_shown {word : List Char} (plain : (word.all fun c => !Text.isControl c) = true) :
    Shown (String.ofList word) := by
  rw [shown_iff, String.toList_ofList]
  intro c listed
  exact Bool.not_eq_true' _ |>.mp (List.all_eq_true.mp plain c listed)

/-- A fixed word in front of a shown text. -/
theorem Shown.behind {word : List Char} (plain : (word.all fun c => !Text.isControl c) = true)
    (last : Shown s) : Shown (String.ofList word ++ s) :=
  (word_shown plain).append last

/-- A fixed word at the end of a shown text. -/
theorem Shown.ended {word : List Char} (first : Shown s)
    (plain : (word.all fun c => !Text.isControl c) = true) : Shown (s ++ String.ofList word) :=
  first.append (word_shown plain)

/-- A line feed is a control character. -/
theorem no_line_feed (shown : Shown s) : '\n' ∉ s.toList :=
  fun listed => shown '\n' listed (.inl (by decide))

private theorem word_part_shown {c : Char} (part : InWord c) : ¬ Control c := by
  have scalar : c.toNat = c.val.toNat := rfl
  intro control
  simp only [InWord, StartsWord, IsDecimal, Char.le_def, UInt32.le_iff_toNat_le] at part
  rw [Control, scalar] at control
  rcases part with (upper | lower | rfl) | digit
  · simp at upper
    omega
  · simp at lower
    omega
  · simp at control
  · simp at digit
    omega

/-- A name is shown as it is. -/
theorem name_shown (valid : IsName s) : Shown s :=
  fun c listed => word_part_shown (valid.1.2 c listed)

theorem nat_shown (n : Nat) : Shown (toString n) := by
  intro c listed
  rw [Nat.toString_eq_repr, Nat.toList_repr] at listed
  have digit := Nat.isDigit_of_mem_toDigits (by decide) (by decide) listed
  exact word_part_shown (.inr (isDigit_iff.mp digit))

theorem int_shown (n : Int) : Shown (toString n) := by
  rw [Int.toString_eq_repr, Int.repr_eq_if]
  split
  · exact nat_shown n.toNat
  · exact .behind rfl (nat_shown (-n).toNat)

theorem quote_shown (s : String) : Shown (Text.quote s) := by
  rw [shown_iff, Text.quote, String.toList_ofList]
  exact Text.quoted_not_isControl s.toList

theorem quote_char_shown (c : Char) : Shown (Text.quoteChar c) := by
  have quote : Text.isControl '\'' = false := by decide
  rw [shown_iff, Text.quoteChar, String.toList_ofList]
  intro d listed
  rcases List.mem_append.mp listed with inside | last
  · rcases List.mem_cons.mp inside with rfl | inside
    · exact quote
    · exact Text.escaped_not_isControl quote d inside
  · obtain rfl := List.mem_singleton.mp last
    exact quote

theorem kind_shown (k : Kind) : Shown k.name := by
  cases k <;> exact word_shown rfl

theorem type_shown (type : SymbolType) : Shown type.text := by
  cases type with
  | function params result =>
    exact .append (.ended (.behind rfl (nat_shown _)) rfl) (kind_shown result)
  | int | str | intOrStr | undefined => exact kind_shown _

theorem lex_message_shown (e : LexError) : Shown e.message := by
  cases e with
  | unexpectedEnd | integerOverflow => exact word_shown rfl
  | invalidDigit c | invalidEscape c | unexpectedChar c => exact .behind rfl (quote_char_shown c)

theorem literal_message_shown (e : LiteralError) : Shown e.message := by
  cases e with
  | negativeArity | integerOutOfRange => exact word_shown rfl
  | arityTooLarge arity => exact .ended (.behind rfl (int_shown _)) rfl
  | kindMismatch kind literal =>
    have sort : Shown literal.name := by cases literal <;> exact word_shown rfl
    exact .ended (.append (.ended (.behind rfl (kind_shown _)) rfl) sort) rfl

theorem syntax_message_shown (e : SyntaxError) : Shown e.message := by
  cases e with
  | expected what got =>
    have named : Shown what.text := by cases what <;> exact word_shown rfl
    exact .append (.ended (.behind rfl named) rfl) (quote_shown got)
  | literal error => exact literal_message_shown error

/-- The wording of a problem is shown if the name that it is about is. -/
theorem problem_message_shown {p : Problem} (named : Shown p.name) : Shown p.message := by
  cases p with
  | duplicate name first =>
    exact .ended (.append (.ended (.behind rfl named) rfl) (nat_shown _)) rfl
  | undeclared name => exact .ended (.behind rfl named) rfl
  | notCallable name type =>
    exact .ended (.append (.ended (.behind rfl named) rfl) (type_shown type)) rfl
  | wrongArgumentCount name expected got =>
    exact .append (.ended (.append (.ended (.behind rfl named) rfl) (nat_shown _)) rfl)
      (nat_shown got)

/-- What is reported about a text: the token and the wording of its fault, or those of
each problem of its listing, in order. -/
def complaints (text : String) : List (Token × String) :=
  match readText text with
  | .error rejection => (complaint? rejection).toList
  | .ok items => items.check.diagnostics.map fun d => (d.token, d.value.message)

/-- A line that reports a message about a token of a text: the line and the column of
the token, and its stretch of the text in quotes. -/
def Reports (text : String) (about : Token × String) (line : String) : Prop :=
  ∃ front lexeme after, text.toList = front ++ (lexeme ++ after) ∧
    about.1.span = ⟨Text.byteLength front, Text.byteLength (front ++ lexeme)⟩ ∧
    line = positionLine about.1.line (1 + Text.byteLength (Text.lastLine front)) lexeme about.2

theorem position_line_shown (line column : Nat) (lexeme : List Char) {message : String}
    (worded : Shown message) : Shown (positionLine line column lexeme message) := by
  have place : Shown ("Error " ++ toString line ++ ":" ++ toString column) :=
    .append (.ended (.behind rfl (nat_shown line)) rfl) (nat_shown column)
  exact .append (.ended (.append (.ended place rfl) (quote_shown _)) rfl) worded

/-- The lines that report what is wrong with a text. -/
def reportLines (text : String) : List String :=
  (complaints text).filterMap fun about => Job.reportLine? text.toList about.1 about.2

/-- Everything that is reported is about a token that can be cut out of the text, and
its wording is shown. -/
theorem complaint_reportable (text : String) :
    ∀ about ∈ complaints text, Reportable text.toList about.1 ∧ Shown about.2 := by
  intro about listed
  unfold complaints at listed
  cases read : readText text with
  | error rejection =>
    obtain ⟨token, message, same, here, -⟩ :=
      rejection_placed (checkText_eq_error_iff.mpr read)
    simp only [read, same, Option.toList_some, List.mem_singleton] at listed
    subst listed
    refine ⟨here, ?_⟩
    cases rejection with
    | lexical e =>
      cases same
      exact lex_message_shown e.value
    | syntactic e =>
      cases same
      exact syntax_message_shown e.value
    | unreadable => cases same
  | ok items =>
    obtain ⟨tokens, lexed, whole⟩ := readText_eq_ok_iff.mp read
    simp only [read] at listed
    obtain ⟨d, member, rfl⟩ := List.mem_map.mp listed
    have named := (diagnostics_named lexed whole).subset (List.mem_map_of_mem member)
    exact ⟨(tokens_reportable lexed).1 _ (identifier_token named),
      problem_message_shown (name_shown (identifier_in_text lexed named).valid)⟩

/-- There is one line for each thing that is wrong, in order, which reports it. -/
theorem report_lines_exact (text : String) :
    List.Forall₂ (Reports text) (complaints text) (reportLines text) := by
  unfold reportLines
  have all : ∀ about ∈ complaints text, Reportable text.toList about.1 := fun about listed =>
    (complaint_reportable text about listed).1
  generalize complaints text = abouts at all
  induction abouts with
  | nil => exact .nil
  | cons about others ih =>
    obtain ⟨first, rest⟩ := List.forall_mem_cons.mp all
    obtain ⟨front, lexeme, after, split, span, shown⟩ := report_line first about.2
    rw [List.filterMap_cons, shown]
    exact .cons ⟨front, lexeme, after, split, span, rfl⟩ (ih rest)

theorem report_lines_shown (text : String) : ∀ line ∈ reportLines text, Shown line := by
  intro line listed
  obtain ⟨about, member, shown⟩ := List.mem_filterMap.mp listed
  obtain ⟨here, worded⟩ := complaint_reportable text about member
  obtain ⟨front, lexeme, after, -, -, same⟩ := report_line here about.2
  obtain rfl := Option.some.inj (same.symm.trans shown)
  exact position_line_shown _ _ _ worded

/-- The lines of a summary: each name, and what is said of it. -/
def summaryLines (text : String) : List (String × String) :=
  match readText text with
  | .error _ => []
  | .ok items => items.check.usages.map fun u =>
      (u.name, ": " ++ (Job.summaryType items.check.table u.name).1.text ++ " (" ++
        toString u.uses ++ " uses)")

/-- A line that tells of a declared name: the type of its first declaration and how
often it is referred to behind that. -/
def Summarizes (items : Listing) (name : String) (line : String × String) : Prop :=
  ∃ first, items.firstDeclaration? name = some first ∧
    line = (name, ": " ++ first.value.type.text ++ " (" ++ toString (items.usesOf name) ++ " uses)")

/-- A summary has one line for each declared name, in order, which tells of it. -/
theorem summary_lines_exact (read : readText text = .ok items) :
    List.Forall₂ (Summarizes items) items.declaredNames (summaryLines text) := by
  have told := told_of_listing items
  rw [summaryLines, read, ← told.keyed, List.forall₂_map_left_iff, List.forall₂_map_right_iff,
    List.forall₂_same]
  intro u listed
  obtain ⟨first, known, info, -, uses⟩ := told.entries u listed
  refine ⟨first, known, ?_⟩
  rw [Job.summaryType, info, uses]

theorem summary_lines_shown (text : String) :
    ∀ line ∈ summaryLines text, Shown line.1 ∧ Shown line.2 := by
  intro line listed
  cases read : readText text with
  | error rejection => simp [summaryLines, read] at listed
  | ok items =>
    obtain ⟨tokens, lexed, whole⟩ := readText_eq_ok_iff.mp read
    simp only [summaryLines, read] at listed
    obtain ⟨u, member, rfl⟩ := List.mem_map.mp listed
    obtain ⟨first, known, -⟩ := (told_of_listing items).entries u member
    have named := names_in_text lexed whole (first_declaration_mem known) List.mem_cons_self
    exact ⟨name_shown named.valid,
      .ended (.append (.ended (.behind rfl (type_shown _)) rfl) (nat_shown _)) rfl⟩

/-- A job without a log: no line is written for any events. -/
def Silent (job : Job) : Prop :=
  ∀ events, job.log events = []

/-- One thing is wrong with a rejected text, and it is reported. -/
theorem rejection_lines_exact {rejection : Rejection} (read : readText text = .error rejection) :
    ∃ about, complaint? rejection = some about ∧ complaints text = [about] ∧
      Job.rejectionLines text.toList rejection = reportLines text := by
  obtain ⟨token, message, same, -⟩ := rejection_placed (checkText_eq_error_iff.mpr read)
  have about : complaints text = [(token, message)] := by
    rw [complaints, read]
    exact congrArg Option.toList same
  refine ⟨(token, message), same, about, ?_⟩
  rw [reportLines, about, List.filterMap_cons]
  cases rejection with
  | lexical e | syntactic e =>
    cases same
    rw [Job.rejectionLines]
    cases Job.reportLine? text.toList e.token e.value.message <;> rfl
  | unreadable => cases same

theorem diagnostic_lines_exact (read : readText text = .ok items) :
    Job.diagnosticLines text.toList items.check = reportLines text := by
  rw [reportLines, complaints, read, List.filterMap_map]
  rfl

theorem summary_lines_styled (read : readText text = .ok items) (styling : Styling) :
    items.check.usages.map (Job.summaryLine styling items.check.table) =
      (summaryLines text).map fun line => styling.bold line.1 ++ line.2 := by
  rw [summaryLines, read, List.map_map]
  apply List.map_congr_left
  intro u _
  simp only [Job.summaryLine, Function.comp_apply, String.append_assoc]

/-- What a run prints without a log: the reports, and the summary if it is asked for. It
fails if there is anything to report. -/
theorem run_text_exact (silent : Silent job) (text : String) :
    job.runText text =
      { exit := if complaints text = [] then 0 else 1
        stdout := unlines ((if job.summary then summaryLines text else []).map fun line =>
          job.styling.bold line.1 ++ line.2)
        stderr := unlines ((reportLines text).map job.styling.red) } := by
  unfold Job.runText
  simp only [checkText_outcome, silent _, List.nil_append]
  cases read : readText text with
  | error rejection =>
    obtain ⟨about, -, wrong, lines⟩ := rejection_lines_exact read
    have none : summaryLines text = [] := by rw [summaryLines, read]
    simp [Except.map, lines, wrong, none, unlines]
  | ok items =>
    have clean : items.check.isClean = true ↔ complaints text = [] := by
      rw [complaints, read, List.map_eq_nil_iff, Report.isClean, List.isEmpty_iff]
    cases job.summary <;>
      simp [Except.map, diagnostic_lines_exact read, summary_lines_styled read, clean]

end DeclListing.PrintedLines
