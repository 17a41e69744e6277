import DeclListing.Proofs.PrintedLines

/-! The command answers for the content of its file with its exit status and with what
it prints, and the two agree. A line on standard error stands for a fault or a
problem and for nothing else, and the command fails exactly when there is one. The
summary on standard output does not depend on the problems. -/
namespace DeclListing.CommandOutput
open Command UsageAccounts ReportedPositions PrintedLines

variable {job : Job} {text : String} {items : Listing} {lines : List String}

/-- A text is made of these lines: each is ended by a line feed, and none holds one. -/
def LinesOf (text : String) (lines : List String) : Prop :=
  text = String.join (lines.map fun line => line ++ "\n") ∧ ∀ line ∈ lines, '\n' ∉ line.toList

/-- A line that tells of a declared name: the name, the type of its first declaration and
the number of references behind that. -/
def TellsOf (items : Listing) (name line : String) : Prop :=
  ∃ first, items.firstDeclaration? name = some first ∧
    line = name ++ ": " ++ first.value.type.text ++ " (" ++ toString (items.usesOf name) ++ " uses)"

theorem unlines_empty_iff : unlines lines = "" ↔ lines = [] := by
  cases lines with
  | nil => simp [unlines]
  | cons line lines => simp [unlines]

theorem reports_lines (text : String) : LinesOf (unlines (reportLines text)) (reportLines text) :=
  ⟨rfl, fun line listed => no_line_feed (report_lines_shown text line listed)⟩

/-- There is a line exactly if something is wrong. -/
theorem no_lines_iff (text : String) : reportLines text = [] ↔ complaints text = [] := by
  have exact := report_lines_exact text
  constructor
  · intro empty
    rw [empty] at exact
    exact List.forall₂_nil_right_iff.mp exact
  · intro empty
    rw [empty] at exact
    exact List.forall₂_nil_left_iff.mp exact

/-- Nothing is reported exactly when the text is read as a listing without problems. -/
theorem no_reports_iff (text : String) :
    reportLines text = [] ↔ ∃ items, readText text = .ok items ∧ items.check.diagnostics = [] := by
  rw [no_lines_iff]
  cases read : readText text with
  | error rejection =>
    obtain ⟨about, -, wrong, -⟩ := rejection_lines_exact read
    simp [wrong]
  | ok items => simp [complaints, read]

/-- A rejected text is reported in one line. -/
theorem rejection_reported {rejection : Rejection} (read : readText text = .error rejection) :
    ∃ about line, complaint? rejection = some about ∧ reportLines text = [line] ∧
      Reports text about line := by
  obtain ⟨about, same, wrong, -⟩ := rejection_lines_exact read
  have exact := report_lines_exact text
  rw [wrong] at exact
  obtain ⟨line, others, reports, none, lines⟩ := List.forall₂_cons_left_iff.mp exact
  rw [List.forall₂_nil_left_iff.mp none] at lines
  exact ⟨about, line, same, lines, reports⟩

/-- The problems of a listing are reported line by line. -/
theorem problems_reported (read : readText text = .ok items) :
    List.Forall₂ (fun d => Reports text (d.token, d.value.message)) items.check.diagnostics
      (reportLines text) := by
  have exact := report_lines_exact text
  rwa [complaints, read, List.forall₂_map_left_iff] at exact

/-- Without colours each line of the summary tells of its name. -/
theorem summary_tells (read : readText text = .ok items) :
    let lines := (summaryLines text).map fun line => line.1 ++ line.2
    LinesOf (unlines lines) lines ∧ List.Forall₂ (TellsOf items) items.declaredNames lines := by
  refine ⟨⟨rfl, fun line listed => ?_⟩, ?_⟩
  · obtain ⟨parts, member, rfl⟩ := List.mem_map.mp listed
    obtain ⟨named, told⟩ := summary_lines_shown text parts member
    exact no_line_feed (named.append told)
  · rw [List.forall₂_map_right_iff]
    refine (summary_lines_exact read).imp fun name parts tells => ?_
    obtain ⟨first, known, rfl⟩ := tells
    exact ⟨first, known, by simp only [String.append_assoc]⟩

/-- What a run leaves behind without a log and without colours. -/
theorem run_plain (silent : Silent job) (plain : job.styling = .plain) (text : String) :
    job.runText text =
      { exit := if reportLines text = [] then 0 else 1
        stdout := unlines ((if job.summary then summaryLines text else []).map fun line =>
          line.1 ++ line.2)
        stderr := unlines (reportLines text) } := by
  rw [run_text_exact silent, plain]
  simp only [no_lines_iff, Styling.plain, id_eq, List.map_id]

/-- Without a log and without colours, whatever the job is otherwise, the command succeeds
exactly when the text is read as a listing without problems, and exactly then standard
error is empty. A text that is rejected is reported in one line, and there is nothing
on standard output. Of a listing every problem is reported in a line of its own, in
order; and if a summary is asked for, it has one line for each declared name, in the
order of the first declarations, whatever the problems are. -/
theorem output_matches_problems (job : Job) (text : String) (silent : Silent job)
    (plain : job.styling = .plain) :
    let output := job.runText text
    (output.exit = 0 ∨ output.exit = 1) ∧
      (output.exit = 0 ↔
        ∃ items, readText text = .ok items ∧ items.check.diagnostics = []) ∧
      (output.stderr = "" ↔ output.exit = 0) ∧
      (∀ rejection, readText text = .error rejection → output.stdout = "" ∧
        ∃ about line, complaint? rejection = some about ∧
          LinesOf output.stderr [line] ∧ Reports text about line) ∧
      ∀ items, readText text = .ok items →
        (∃ lines, LinesOf output.stderr lines ∧
          List.Forall₂ (fun d => Reports text (d.token, d.value.message))
            items.check.diagnostics lines) ∧
        (job.summary = false → output.stdout = "") ∧
        (job.summary = true → items.declaredNames.Nodup ∧ ∃ lines, LinesOf output.stdout lines ∧
          List.Forall₂ (TellsOf items) items.declaredNames lines) := by
  intro output
  have ran : output = _ := run_plain silent plain text
  have status : output.exit = 0 ↔ reportLines text = [] := by
    rw [ran]
    by_cases none : reportLines text = [] <;> simp [none]
  have stderr : output.stderr = unlines (reportLines text) := by rw [ran]
  refine ⟨?_, status.trans (no_reports_iff text), ?_, ?_, ?_⟩
  · rw [ran]
    by_cases none : reportLines text = [] <;> simp [none]
  · rw [stderr, status, unlines_empty_iff]
  · intro rejection read
    obtain ⟨about, line, same, lines, reports⟩ := rejection_reported read
    have none : summaryLines text = [] := by rw [summaryLines, read]
    refine ⟨by simp [ran, none, unlines], about, line, same, ?_, reports⟩
    rw [stderr, ← lines]
    exact reports_lines text
  · intro items read
    refine ⟨⟨reportLines text, stderr ▸ reports_lines text, problems_reported read⟩, ?_, ?_⟩
    · intro unasked
      simp [ran, unasked, unlines]
    · intro summary
      have told := summary_tells read
      refine ⟨declared_names_nodup items, _, ?_, told.2⟩
      rw [ran, if_pos summary]
      exact told.1

/-- A name that is declared between its two uses: the first one is reported, and the
summary counts the second one. -/
theorem use_on_both_sides_printed :
    let job : Job := { file := "input.sym", summary := true, log := fun _ => [], styling := .plain }
    let output := job.runText "use a;\nint a;\nuse a;\n"
    (output.exit ≠ 0 ∧ output.stderr ≠ "") ∧ (∃ report, LinesOf output.stderr [report]) ∧
      LinesOf output.stdout ["a: int (1 uses)"] := by
  intro job output
  let name (start line : Nat) : Located String :=
    ⟨"a", ⟨.identifier "a", ⟨start, start + 1⟩, line⟩⟩
  let items : Listing :=
    [.reference (name 4 1), .declaration (name 11 2) { type := .int }, .reference (name 18 3)]
  have read : readText "use a;\nint a;\nuse a;\n" = .ok items := by decide +kernel
  have wrong : items.check.diagnostics = [⟨.undeclared "a", (name 4 1).token⟩] := by decide
  have declared : items.declaredNames = ["a"] := by decide
  have known : items.firstDeclaration? "a" = some ⟨{ type := .int }, (name 11 2).token⟩ := by decide
  obtain ⟨-, success, quiet, -, printed⟩ :=
    output_matches_problems job "use a;\nint a;\nuse a;\n" (fun _ => rfl) rfl
  obtain ⟨⟨reports, stderr, exact⟩, -, summarized⟩ := printed items read
  have failed : output.exit ≠ 0 := by
    intro succeeded
    obtain ⟨others, same, clean⟩ := success.mp succeeded
    obtain rfl := Except.ok.inj (read.symm.trans same)
    exact absurd clean (by simp [wrong])
  refine ⟨⟨failed, fun empty => failed (quiet.mp empty)⟩, ?_, ?_⟩
  · rw [wrong] at exact
    obtain ⟨report, others, -, none, rfl⟩ := List.forall₂_cons_left_iff.mp exact
    exact ⟨report, List.forall₂_nil_left_iff.mp none ▸ stderr⟩
  · obtain ⟨-, lines, stdout, told⟩ := summarized rfl
    rw [declared] at told
    obtain ⟨line, others, tells, none, rfl⟩ := List.forall₂_cons_left_iff.mp told
    obtain ⟨first, same, rfl⟩ := tells
    obtain rfl := Option.some.inj (known.symm.trans same)
    have worded : "a" ++ ": " ++ SymbolType.int.text ++ " (" ++ toString (items.usesOf "a") ++
        " uses)" = "a: int (1 uses)" := by decide +kernel
    rw [List.forall₂_nil_left_iff.mp none, worded] at stdout
    exact stdout

end DeclListing.CommandOutput
