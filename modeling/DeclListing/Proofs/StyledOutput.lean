import DeclListing.Proofs.CommandOutput

/-! No file can make the command print a control character of its own. Every line of
the output ends with a line feed and holds no other control character, and colours put
their escape sequences around whole reports and whole names only. So the output with
colours is the output without them once these sequences are deleted. -/
namespace DeclListing.StyledOutput
open Command PrintedLines CommandOutput

variable {job : Job} {text marked plain marked' plain' : String}

/-- A text without the sequences that make red, that make bold and that end both. -/
def unstyled : List Char → List Char
  | [] => []
  | '\x1b' :: '[' :: '3' :: '1' :: 'm' :: rest => unstyled rest
  | '\x1b' :: '[' :: '1' :: 'm' :: rest => unstyled rest
  | '\x1b' :: '[' :: '0' :: 'm' :: rest => unstyled rest
  | c :: rest => c :: unstyled rest

/-- Only an escape character can begin a sequence. -/
theorem unstyled_cons {c : Char} (plain : c ≠ '\x1b') (rest : List Char) :
    unstyled (c :: rest) = c :: unstyled rest := by
  rw [unstyled]
  all_goals exact fun _ escape => absurd escape plain

/-- A marked text is a plain one with sequences in it, whatever stands behind them. -/
def Strips (marked plain : String) : Prop :=
  ∀ rest, unstyled (marked.toList ++ rest) = plain.toList ++ unstyled rest

theorem Strips.append (first : Strips marked plain) (second : Strips marked' plain') :
    Strips (marked ++ marked') (plain ++ plain') := by
  intro rest
  rw [String.toList_append, String.toList_append, List.append_assoc, first, second,
    List.append_assoc]

/-- Behind the whole text nothing stands. -/
theorem Strips.whole (strips : Strips marked plain) : unstyled marked.toList = plain.toList := by
  have all := strips []
  rwa [List.append_nil, unstyled, List.append_nil] at all

/-- Characters before the first escape character are left as they are. -/
theorem unstyled_append {cs : List Char} (none : '\x1b' ∉ cs) (rest : List Char) :
    unstyled (cs ++ rest) = cs ++ unstyled rest := by
  induction cs with
  | nil => rfl
  | cons c cs ih =>
    obtain ⟨plain, others⟩ := List.ne_and_not_mem_of_not_mem_cons none
    rw [List.cons_append, unstyled_cons plain.symm, ih others, List.cons_append]

theorem strips_self (none : '\x1b' ∉ text.toList) : Strips text text :=
  fun rest => unstyled_append none rest

theorem strips_shown (shown : Shown text) : Strips text text :=
  strips_self fun listed => shown _ listed (.inl (by decide))

/-- A report in red. -/
def red (line : String) : String :=
  "\x1b[31m" ++ line ++ "\x1b[0m"

/-- A line of a summary with its name in bold. -/
def bold (line : String × String) : String :=
  "\x1b[1m" ++ line.1 ++ "\x1b[0m" ++ line.2

/-- A text between a sequence and the end of its effect. -/
theorem strips_between {start : String} (begins : Strips start "") (shown : Shown text) :
    Strips (start ++ text ++ "\x1b[0m") text := by
  have ends : Strips "\x1b[0m" "" := fun _ => rfl
  have whole := (begins.append (strips_shown shown)).append ends
  rwa [String.empty_append, String.append_empty] at whole

theorem strips_red (shown : Shown text) : Strips (red text) text :=
  strips_between (fun _ => rfl) shown

theorem strips_bold {line : String × String} (shown : Shown line.1 ∧ Shown line.2) :
    Strips (bold line) (line.1 ++ line.2) :=
  (strips_between (fun _ => rfl) shown.1).append (strips_shown shown.2)

/-- Lines are marked one by one. -/
theorem strips_unlines {α : Type} {mark unmark : α → String} {lines : List α}
    (each : ∀ line ∈ lines, Strips (mark line) (unmark line)) :
    Strips (unlines (lines.map mark)) (unlines (lines.map unmark)) := by
  induction lines with
  | nil => exact fun _ => rfl
  | cons line lines ih =>
    obtain ⟨first, rest⟩ := List.forall_mem_cons.mp each
    have feed : Strips "\n" "\n" := strips_self (by decide)
    simpa [unlines] using (first.append feed).append (ih rest)

/-- Output of one content, without colours and with them: reports, and a summary of names
with what is said of them. -/
structure PrintedAs (plain coloured : Output) (reports : List String)
    (summary : List (String × String)) : Prop where
  /-- No line holds a control character. -/
  reports_shown : ∀ line ∈ reports, Shown line
  summary_shown : ∀ line ∈ summary, Shown line.1 ∧ Shown line.2
  /-- Without colours there are the lines alone, each ended by a line feed. -/
  plain_stderr : LinesOf plain.stderr reports
  plain_stdout : LinesOf plain.stdout (summary.map fun line => line.1 ++ line.2)
  /-- With colours whole reports are red, and whole names are bold. -/
  coloured_stderr : LinesOf coloured.stderr (reports.map red)
  coloured_stdout : LinesOf coloured.stdout (summary.map bold)
  same_exit : coloured.exit = plain.exit

/-- What is left behind by printing lines without control characters, without colours and
with them. -/
theorem printed_as {reports : List String} {summary : List (String × String)} (exit : Nat)
    (reports_shown : ∀ line ∈ reports, Shown line)
    (summary_shown : ∀ line ∈ summary, Shown line.1 ∧ Shown line.2) :
    PrintedAs
      { exit
        stdout := unlines (summary.map fun line => line.1 ++ line.2)
        stderr := unlines reports }
      { exit
        stdout := unlines (summary.map bold)
        stderr := unlines (reports.map red) }
      reports summary := by
  refine ⟨reports_shown, summary_shown, ⟨rfl, ?_⟩, ⟨rfl, ?_⟩, ⟨rfl, ?_⟩, ⟨rfl, ?_⟩, rfl⟩
  · exact fun line listed => no_line_feed (reports_shown line listed)
  · intro line listed
    obtain ⟨parts, member, rfl⟩ := List.mem_map.mp listed
    exact no_line_feed ((summary_shown parts member).1.append (summary_shown parts member).2)
  · intro line listed
    obtain ⟨plain, member, rfl⟩ := List.mem_map.mp listed
    simp [red, no_line_feed (reports_shown plain member)]
  · intro line listed
    obtain ⟨parts, member, rfl⟩ := List.mem_map.mp listed
    obtain ⟨name, told⟩ := summary_shown parts member
    simp [bold, no_line_feed name, no_line_feed told]

/-- Without the sequences of the colours the output is the plain one. -/
theorem PrintedAs.unstyled_same {plain coloured : Output} {reports : List String}
    {summary : List (String × String)} (printed : PrintedAs plain coloured reports summary) :
    unstyled coloured.stderr.toList = plain.stderr.toList ∧
      unstyled coloured.stdout.toList = plain.stdout.toList := by
  have stderr : Strips (unlines (reports.map red)) (unlines (reports.map id)) :=
    strips_unlines fun line listed => strips_red (printed.reports_shown line listed)
  have stdout : Strips (unlines (summary.map bold))
      (unlines (summary.map fun line => line.1 ++ line.2)) :=
    strips_unlines fun line listed => strips_bold (printed.summary_shown line listed)
  rw [List.map_id] at stderr
  rw [printed.coloured_stderr.1, printed.coloured_stdout.1, printed.plain_stderr.1,
    printed.plain_stdout.1]
  exact ⟨stderr.whole, stdout.whole⟩

/-- Without a log every line of the output without colours is free of control characters,
whatever the text holds. The output with colours has the same lines, with whole reports
in red and whole names in bold; when the sequences for this are deleted, it is the
output without colours. -/
theorem colours_only_added (job : Job) (text : String) (silent : Silent job) :
    let plain := { job with styling := .plain }.runText text
    let coloured := { job with styling := .ansi }.runText text
    (∃ reports summary, PrintedAs plain coloured reports summary) ∧
      unstyled coloured.stderr.toList = plain.stderr.toList ∧
      unstyled coloured.stdout.toList = plain.stdout.toList := by
  intro plain coloured
  have unlogged : Silent { job with styling := .plain } ∧ Silent { job with styling := .ansi } :=
    ⟨silent, silent⟩
  have without : plain = _ := run_text_exact unlogged.1 text
  have within : coloured = _ := run_text_exact unlogged.2 text
  have printed : PrintedAs plain coloured (reportLines text)
      (if job.summary then summaryLines text else []) := by
    have unmarked : (reportLines text).map Styling.plain.red = reportLines text := List.map_id _
    rw [without, within, unmarked]
    refine printed_as _ (report_lines_shown text) ?_
    intro line listed
    by_cases summary : job.summary
    · rw [if_pos summary] at listed
      exact summary_lines_shown text line listed
    · rw [if_neg summary] at listed
      exact absurd listed List.not_mem_nil
  exact ⟨⟨_, _, printed⟩, printed.unstyled_same⟩

/-- A comment between a sign and its digits is reported with them. An escape sequence in
it is quoted, and is not deleted with those of the colours. -/
theorem escape_in_comment_quoted :
    let job : Job :=
      { file := "input.sym", summary := false, log := fun _ => [], styling := .plain }
    let plain := job.runText "fn f(-// \x1b[1m\n1) -> int;"
    let coloured := { job with styling := .ansi }.runText "fn f(-// \x1b[1m\n1) -> int;"
    plain.stderr = "Error 2:6 (at \"-// \\u\x7b1b\x7d[1m\\n1\"):: " ++
        "function parameter count cannot be negative\n" ∧
      coloured.stderr ≠ plain.stderr ∧
      unstyled coloured.stderr.toList = plain.stderr.toList := by
  intro job plain coloured
  obtain ⟨-, same, -⟩ := colours_only_added job "fn f(-// \x1b[1m\n1) -> int;" fun _ => rfl
  exact ⟨by decide +kernel, by decide +kernel, same⟩

end DeclListing.StyledOutput
