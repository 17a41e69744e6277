import DeclListing.Command.Job
import DeclListing.Proofs.FaultPlaces
import DeclListing.Proofs.LexerTiling
import DeclListing.Proofs.NameConservation

/-! Whatever is said about a text can be shown in it. The answers of a lexer stand
in the text, one behind the other. A reader takes a token by the match that looks
at it, so one that was looked at is there to be taken, and its fault stands at one
of the tokens or reaches from a sign to the digits behind it. A diagnostic stands
at a name of the listing, which is a token too. So all that is carried to a
report can be cut out of the text. -/
namespace DeclListing.ReportPlaces
open Lexeme LexerTiling FaultPlaces NameConservation TokenGrammarExactness ListingGrammarExactness
open CheckDiagnostics

variable {text : String} {tokens rest : List Token} {t sign : Token} {fault : Fault}
  {before items : Listing} {i : Item} {d : Diagnostic}

/-- A token that can be shown in a text: its stretch is there, its line counts
from one, and so does its column, which starts no later than the token. -/
structure Reportable (text : List Char) (t : Token) : Prop where
  /-- The stretch does not end before it starts. -/
  ordered : t.span.start ≤ t.span.stop
  /-- It ends inside the text. -/
  inside : t.span.stop ≤ Text.byteLength text
  /-- It starts between two characters. -/
  starts : Text.IsBoundary text t.span.start
  /-- It stops between two characters. -/
  stops : Text.IsBoundary text t.span.stop
  /-- Lines are counted from one. -/
  line : 1 ≤ t.line
  /-- The line on which the token starts is found, and starts no later. -/
  column : ∃ front, Text.takeBytes? text t.span.start = some front ∧
    Text.lineStart front ≤ t.span.start ∧
    Text.column? text t.span.start = some (t.span.start - Text.lineStart front + 1)
  /-- A message about the token has a line. -/
  reported : ∀ message, (Command.Job.reportLine? text t message).isSome

/-- A token that can be cut out can be reported. -/
theorem reportable_of_cut {text : List Char}
    (cut : (Text.slice? text t.span.start t.span.stop).isSome) (line : 1 ≤ t.line) :
    Reportable text t := by
  obtain ⟨ordered, starts, stops⟩ := Text.slice?_isSome_iff.mp cut
  obtain ⟨lexeme, found⟩ := Option.isSome_iff_exists.mp cut
  obtain ⟨front, here, earlier, counted⟩ := Text.column?_of_boundary starts
  refine ⟨ordered, stops.le_byteLength, starts, stops, line, ⟨front, here, earlier, counted⟩,
    fun message => ?_⟩
  rw [Command.Job.reportLine?, counted, found]
  rfl

/-- The stretch from a token to a later one can be reported where both can. -/
theorem reportable_across {text : List Char} (first : Reportable text sign)
    (last : Reportable text t) (order : sign.span.stop ≤ t.span.start) :
    Reportable text { t with span := ⟨sign.span.start, t.span.stop⟩ } := by
  have wide := Nat.le_trans first.ordered (Nat.le_trans order last.ordered)
  exact reportable_of_cut (Text.slice?_isSome_iff.mpr ⟨wide, first.starts, last.stops⟩) last.line

theorem answer_reportable (text : String) :
    ∀ r ∈ (Lexer.ofText text).drain.1, Reportable text.toList (tokenOf r) := by
  intro r listed
  obtain ⟨lexeme, cut, -⟩ := tiles_cut (drain_tiles (stands_at_start text)) r listed
  exact reportable_of_cut (Option.isSome_of_eq_some cut) (drain_line_le _ r listed)

/-- The tokens of a text can be reported, and stand one behind the other. -/
theorem tokens_reportable (lexed : tokensOf text = .ok tokens) :
    (∀ t ∈ tokens, Reportable text.toList t) ∧
      tokens.Pairwise fun a b => a.span.stop ≤ b.span.start := by
  have same := tokens_answered lexed
  constructor
  · intro t listed
    apply answer_reportable text (.ok t)
    rw [same]
    exact List.mem_map_of_mem listed
  · have ordered := (tiles_ordered (drain_tiles (stands_at_start text))).2
    rw [same] at ordered
    exact List.pairwise_map.mp ordered

/-- A fault at which reading a text as tokens stops can be reported. -/
theorem refusal_reportable {e : Located LexError} (lexed : tokensOf text = .error e) :
    Reportable text.toList e.token := by
  have same := tokenize_drain (.ofText text) rfl
  rw [show (Lexer.ofText text).tokenize.1 = .error e from lexed] at same
  obtain ⟨front, back, same⟩ := same
  apply answer_reportable text (.error e)
  rw [same]
  simp

/-- The tokens of a text never run out before a fault, because the end of the
text is one of them. -/
theorem tokens_not_plain (lexed : tokensOf text = .ok tokens) : ¬ Plain tokens := by
  obtain ⟨front, stop, line, split, -⟩ := tokens_ended lexed
  intro plain
  apply plain (Lexer.endToken stop line) _ rfl
  rw [split]
  simp

/-- A fault in the tokens of a text is an error about the text, and can be
reported. -/
theorem fault_reportable (lexed : tokensOf text = .ok tokens)
    (read : Reader.listing tokens = .error fault rest) :
    ∃ e, fault.inText? text.toList = some e ∧ Reportable text.toList e.token := by
  obtain ⟨placed, ordered⟩ := tokens_reportable lexed
  cases listing_fault read with
  | @found front _ what t plain =>
    have here : Reportable text.toList t := placed t (by simp)
    by_cases ends : t.terminal = .eof
    · exact ⟨_, by rw [Fault.inText?, if_pos ends], here⟩
    · obtain ⟨got, cut⟩ := Option.isSome_iff_exists.mp
        (Text.slice?_isSome_iff.mpr ⟨here.ordered, here.starts, here.stops⟩)
      exact ⟨_, by rw [Fault.inText?, if_neg ends, cut]; rfl, here⟩
  | missing plain => exact absurd plain (tokens_not_plain lexed)
  | @refused front _ error t plain other =>
    have here : Reportable text.toList t := placed t (by simp)
    exact ⟨_, rfl, here⟩
  | @signed front _ error sign t plain minus other =>
    have first : Reportable text.toList sign := placed sign (by simp)
    have last : Reportable text.toList t := placed t (by simp)
    have behind := (List.pairwise_append.mp ordered).2.1
    exact ⟨_, rfl, reportable_across first last (List.rel_of_pairwise_cons behind (by simp))⟩

/-- The tokens that a diagnostic carries: the one that it is about, and of a
repeated declaration also that of the first. -/
def problemTokens (d : Diagnostic) : List Token :=
  match d.value with
  | .duplicate _ first => [d.token, first]
  | _ => [d.token]

/-- The name that a diagnostic is about, at its token. -/
def named (d : Diagnostic) : Located String :=
  d.map Problem.name

theorem unresolved_named (before : Listing) (name : Located String) :
    ((unresolved before name).map named).Sublist [name] := by
  unfold unresolved
  split
  · exact .refl _
  · exact List.nil_sublist _

theorem unresolved_all_named (before : Listing) (names : List (Located String)) :
    ((names.flatMap (unresolved before)).map named).Sublist names := by
  induction names with
  | nil => exact .refl _
  | cons name names ih =>
    rw [List.flatMap_cons, List.map_append]
    exact (unresolved_named before name).append ih

/-- At most one thing is wrong with calling a name. -/
theorem callee_named (before : Listing) (callee : Located String) (got : Nat) :
    ((calleeProblems before callee got).map named).Sublist [callee] := by
  unfold calleeProblems
  split
  · exact .refl _
  · split
    · split
      · exact List.nil_sublist _
      · exact .refl _
    · exact .refl _

/-- The problems of an item are about names of it, each at most once and in
order. -/
theorem item_problems_named (before : Listing) (i : Item) :
    ((problemsAt before i).map named).Sublist i.names := by
  cases i with
  | declaration name info =>
    rw [problemsAt]
    split
    · exact List.nil_sublist _
    · exact .refl _
  | reference name => exact unresolved_named before name
  | call callee args =>
    rw [problemsAt, List.map_append]
    exact (callee_named before callee args.length).append (unresolved_all_named before args)

theorem problems_named (items before : Listing) :
    ((problemsAfter before items).map named).Sublist (items.flatMap Item.names) := by
  induction items generalizing before with
  | nil => exact .refl _
  | cons i items ih =>
    rw [problemsAfter, List.map_append, List.flatMap_cons]
    exact (item_problems_named before i).append (ih _)

/-- A problem behind some items is one of an item, given those before it. -/
theorem problem_of_item (wrong : d ∈ problemsAfter before items) :
    ∃ front i back, items = front ++ i :: back ∧ d ∈ problemsAt (before ++ front) i := by
  induction items generalizing before with
  | nil => cases wrong
  | cons i items ih =>
    rcases List.mem_append.mp wrong with here | later
    · exact ⟨[], i, items, rfl, by rwa [List.append_nil]⟩
    · obtain ⟨front, j, back, rfl, found⟩ := ih later
      exact ⟨i :: front, j, back, rfl, by rwa [List.append_assoc] at found⟩

/-- Only declarations are reported as repeated, and with the first declaration
before them. -/
theorem duplicate_of_problem {repeated : String} {first token : Token}
    (wrong : ⟨.duplicate repeated first, token⟩ ∈ problemsAt before i) :
    ∃ info found, i = .declaration ⟨repeated, token⟩ info ∧
      before.firstDeclaration? repeated = some found ∧ found.token = first := by
  have other (names : List (Located String)) :
      ⟨.duplicate repeated first, token⟩ ∉ names.flatMap (unresolved before) := by
    intro listed
    obtain ⟨name, -, here⟩ := List.mem_flatMap.mp listed
    unfold unresolved at here
    split at here <;> simp at here
  cases i with
  | declaration name info =>
    rw [problemsAt] at wrong
    cases known : before.firstDeclaration? name.value with
    | none => simp [known] at wrong
    | some found =>
      simp only [known, List.mem_singleton, Located.mk.injEq, Problem.duplicate.injEq] at wrong
      obtain ⟨⟨rfl, rfl⟩, rfl⟩ := wrong
      exact ⟨info, found, rfl, known, rfl⟩
  | reference name => exact absurd (by simpa [problemsAt] using wrong) (other [name])
  | call callee args =>
    rcases List.mem_append.mp wrong with here | there
    · unfold calleeProblems at here
      split at here
      · simp at here
      · split at here
        · split at here <;> simp at here
        · simp at here
    · exact absurd there (other args)

theorem first_declaration_named {name : String} {first : Located SymbolInfo}
    (known : before.firstDeclaration? name = some first) :
    ⟨name, first.token⟩ ∈ before.flatMap Item.names :=
  List.mem_flatMap.mpr ⟨_, first_declaration_mem known, List.mem_singleton.mpr rfl⟩

private theorem diagnostics_of_rules (items : Listing) :
    items.check.diagnostics = problemsAfter [] items :=
  (run_exact items tracks_nothing).1

/-- A declaration that is reported as repeated stands behind the first one of its
name. -/
theorem duplicate_splits {repeated : String} {first token : Token}
    (wrong : ⟨.duplicate repeated first, token⟩ ∈ items.check.diagnostics) :
    ∃ front info back found, items = front ++ .declaration ⟨repeated, token⟩ info :: back ∧
      Listing.firstDeclaration? front repeated = some found ∧ found.token = first := by
  rw [diagnostics_of_rules] at wrong
  obtain ⟨front, i, back, split, here⟩ := problem_of_item wrong
  obtain ⟨info, found, rfl, known, first⟩ := duplicate_of_problem here
  exact ⟨front, info, back, found, split, known, first⟩

/-- The diagnostics of a text are about identifiers of it, each at most once and in
order. -/
theorem diagnostics_named (lexed : tokensOf text = .ok tokens)
    (read : Listing.read text.toList tokens = .items items) :
    (items.check.diagnostics.map named).Sublist (identifiers tokens) := by
  rw [diagnostics_of_rules, text_names lexed read]
  exact problems_named items []

/-- The first declaration of a name that is declared again is an identifier too. -/
theorem duplicate_named {repeated : String} {first token : Token}
    (lexed : tokensOf text = .ok tokens) (read : Listing.read text.toList tokens = .items items)
    (wrong : ⟨.duplicate repeated first, token⟩ ∈ items.check.diagnostics) :
    ⟨repeated, first⟩ ∈ identifiers tokens := by
  obtain ⟨front, info, back, found, rfl, known, rfl⟩ := duplicate_splits wrong
  rw [text_names lexed read, List.flatMap_append]
  exact List.mem_append_left _ (first_declaration_named known)

/-- The diagnostics of a text carry tokens of it only. -/
theorem diagnostic_tokens (lexed : tokensOf text = .ok tokens)
    (read : Listing.read text.toList tokens = .items items) :
    items.check.diagnostics.flatMap problemTokens ⊆ tokens := by
  intro t carried
  obtain ⟨⟨problem, token⟩, listed, among⟩ := List.mem_flatMap.mp carried
  have own : token ∈ tokens :=
    identifier_token ((diagnostics_named lexed read).subset (List.mem_map_of_mem listed))
  cases problem with
  | duplicate name first =>
    rcases List.mem_cons.mp among with rfl | other
    · exact own
    · obtain rfl := List.mem_singleton.mp other
      exact identifier_token (duplicate_named lexed read listed)
  | undeclared | notCallable | wrongArgumentCount =>
    obtain rfl := List.mem_singleton.mp among
    exact own

/-- The tokens that the outcome of a check carries to a report. -/
def carried : Except Rejection Report → List Token
  | .ok report => report.diagnostics.flatMap problemTokens
  | .error (.lexical e) => [e.token]
  | .error (.syntactic e) => [e.token]
  | .error .unreadable => []

/-- No text is unreadable, and all tokens in what is said about it can be
reported. -/
theorem outcome_reportable (text : String) :
    (checkText text).outcome ≠ .error .unreadable ∧
      ∀ t ∈ carried (checkText text).outcome, Reportable text.toList t := by
  unfold checkText
  cases lexed : tokensOf text with
  | error e => simpa [carried] using refusal_reportable lexed
  | ok tokens =>
    have placed := (tokens_reportable lexed).1
    cases read : Reader.listing tokens with
    | ok items rest =>
      have among := diagnostic_tokens lexed (read_eq_items_iff.mpr ⟨rest, read⟩)
      simp only [Listing.read, read, Reading.ofRead, carried]
      exact ⟨by simp, fun t listed => placed t (among listed)⟩
    | error fault rest =>
      obtain ⟨e, stated, here⟩ := fault_reportable lexed read
      simpa [Listing.read, read, Reading.ofRead, stated, carried] using here

/-- Checking a text never cuts it where it cannot be cut. Every stretch that a
lexer answers is there, and holds what its token says; a text whose tokens are
no listing is rejected with an error about it; and all tokens in what is said
about a text can be reported. -/
theorem check_cuts_safely (text : String) :
    (∀ r ∈ (Lexer.ofText text).drain.1, ∃ written,
      Text.slice? text.toList (tokenOf r).span.start (tokenOf r).span.stop = some written ∧
        ∀ t, r = .ok t → t.terminal ≠ .eof → Form written t.terminal) ∧
    (checkText text).outcome ≠ .error .unreadable ∧
    ∀ t ∈ carried (checkText text).outcome, Reportable text.toList t :=
  ⟨tiles_cut (drain_tiles (stands_at_start text)), outcome_reportable text⟩

end DeclListing.ReportPlaces
