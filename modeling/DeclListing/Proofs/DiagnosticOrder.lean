import Mathlib.Data.List.Chain
import Mathlib.Data.List.TakeWhile
import DeclListing.Proofs.ReportedPositions
import DeclListing.Proofs.Reprinting

/-! Diagnostics follow the text. Every name of an item is reported at most once, and
in the order in which the names stand, so what the diagnostics are about are some of
the identifiers of the text in their order. Two names of a listing never touch, since
there is always a mark or a reserved word between them, and a name holds no line
feed. So the stretches of the diagnostics stand apart, and the position that is
printed for each is where its name starts. -/
namespace DeclListing.DiagnosticOrder
open TokenGrammarExactness ListingGrammarExactness NameConservation
open CheckDiagnostics ReportPlaces ReportedPositions Reprinting

variable {text : String} {tokens segment : List Token} {before items : Listing} {i : Item}
  {name : Located String} {t : Token}

/-- One of two neighbours is no name. -/
def Fenced (a b : Token) : Prop :=
  a.terminal.identifier? = none ∨ b.terminal.identifier? = none

private theorem integer_fenced {value : Int} (derived : Derives.Integer segment value) :
    segment.IsChain Fenced := by
  cases derived with
  | plain digits => exact List.isChain_singleton _
  | negated minus digits => simp [Fenced, minus, digits, Terminal.identifier?]

private theorem literal_fenced {value : Literal} (derived : Derives.Literal segment value) :
    segment.IsChain Fenced := by
  cases derived with
  | integer derived => exact integer_fenced derived
  | string quoted => exact List.isChain_singleton _

private theorem names_fenced {found : List (Located String)}
    (derived : Derives.Names segment found) : segment.IsChain Fenced := by
  induction derived with
  | last named => exact List.isChain_singleton _
  | more named separates _ ih =>
    have plain := congrArg Terminal.identifier? separates
    rw [List.isChain_cons_cons, List.isChain_cons]
    exact ⟨.inr plain, fun _ _ => .inl plain, ih⟩

private theorem arguments_fenced {found : List (Located String)}
    (derived : Derives.Arguments segment found) : segment.IsChain Fenced := by
  cases derived with
  | none => exact List.isChain_nil
  | some derived => exact names_fenced derived

/-- Neighbours in an item are fenced, and its first token is no name. -/
theorem item_fenced (derived : Derives.Item segment i) :
    segment.IsChain Fenced ∧ ∀ t ∈ segment.head?, t.terminal.identifier? = none := by
  cases derived with
  | plain opens _ named stops | reference opens named stops =>
    simp [Fenced, opens, stops, Terminal.identifier?]
  | initialized opens _ named assigns literal stops =>
    simp [Fenced, opens, assigns, stops, Terminal.identifier?, List.isChain_cons,
      List.isChain_append, literal_fenced literal]
  | function opens named encloses integer closes points ends _ stops =>
    simp [Fenced, opens, encloses, closes, points, ends, Terminal.identifier?,
      List.isChain_cons, List.isChain_append, integer_fenced integer]
  | call opens named encloses arguments closes stops =>
    simp [Fenced, opens, encloses, closes, Terminal.identifier?, List.isChain_cons,
      List.isChain_append, arguments_fenced arguments]

/-- Neighbours in a listing are fenced: within its items, and between them because
every item starts with a reserved word. -/
theorem listing_fenced (derived : Derives.Listing segment items) :
    segment.IsChain Fenced ∧ ∀ t ∈ segment.head?, t.terminal.identifier? = none := by
  induction derived with
  | nothing => simp
  | @item first rest i items derived _ ih =>
    obtain ⟨chain, head⟩ := item_fenced derived
    refine ⟨chain.append ih.1 fun _ _ b second => .inr (ih.2 b second), ?_⟩
    rw [List.head?_append]
    intro t here
    cases found : first.head? with
    | none => exact ih.2 t (by simpa [found] using here)
    | some u => exact head t (by simpa [found] using here)

/-- Names stand apart where tokens stand in order and names are fenced, because what
is between two of them takes room. -/
theorem names_apart (ordered : segment.Pairwise fun a b => a.span.stop ≤ b.span.start)
    (wide : ∀ t ∈ segment, t.span.start < t.span.stop) (fenced : segment.IsChain Fenced) :
    (identifiers segment).Pairwise fun a b => a.token.span.stop < b.token.span.start := by
  apply List.pairwise_filterMap.mpr
  induction segment with
  | nil => exact .nil
  | cons t rest ih =>
    refine List.pairwise_cons.mpr ⟨?_, ih ordered.of_cons (fun u listed =>
      wide u (List.mem_cons_of_mem t listed)) fenced.tail⟩
    intro u listed first one second other
    obtain ⟨word, spelled, rfl⟩ := Option.map_eq_some_iff.mp one
    obtain ⟨next, meant, rfl⟩ := Option.map_eq_some_iff.mp other
    cases rest with
    | nil => cases listed
    | cons between others =>
      -- The neighbour of a name is no name, so the other one is behind the neighbour.
      have plain : between.terminal.identifier? = none := by
        simpa [Fenced, spelled] using (List.isChain_cons_cons.mp fenced).1
      have behind : u ∈ others := by
        rcases List.mem_cons.mp listed with rfl | behind
        · simp [plain] at meant
        · exact behind
      have near := List.rel_of_pairwise_cons ordered (List.mem_cons_self (l := others))
      have room := wide between (by simp)
      have far := List.rel_of_pairwise_cons ordered.of_cons behind
      exact Nat.lt_of_le_of_lt near (Nat.lt_of_lt_of_le room far)

/-- A token of a text takes room, unless it is the end. -/
theorem token_wide (lexed : tokensOf text = .ok tokens) (listed : t ∈ tokens)
    (plain : t.terminal ≠ .eof) : t.span.start < t.span.stop := by
  obtain ⟨written, cut, form⟩ := token_written lexed listed plain
  obtain ⟨front, after, -, start, stop⟩ := Text.slice?_eq_some_iff.mp cut
  have some : Text.byteLength written ≠ 0 := fun none =>
    form_nonempty form (Text.byteLength_eq_zero_iff.mp none)
  omega

/-- Between two names of a listing there is always something else. -/
theorem text_names_apart (lexed : tokensOf text = .ok tokens)
    (read : Listing.read text.toList tokens = .items items) :
    (identifiers tokens).Pairwise fun a b => a.token.span.stop < b.token.span.start := by
  obtain ⟨rest, listed⟩ := read_eq_items_iff.mp read
  obtain ⟨stop, line, split⟩ := tokens_before_end lexed
  have same : identifiers tokens = identifiers (beforeEnd tokens) := by
    rw [text_names lexed read, listing_names (listing_sound listed)]
  rw [same]
  have among : (beforeEnd tokens).Sublist tokens := List.takeWhile_sublist _
  refine names_apart ((tokens_reportable lexed).2.sublist among) ?_
    (listing_fenced (listing_sound listed)).1
  intro t inner
  refine token_wide lexed (among.subset inner) ?_
  simpa using List.mem_takeWhile_imp inner

/-- The first declaration among some items stays the first when others follow. -/
theorem first_declaration_kept {repeated : String} {found : Located SymbolInfo}
    (known : before.firstDeclaration? repeated = some found) (later : Listing) :
    Listing.firstDeclaration? (before ++ later) repeated = some found := by
  rw [Listing.firstDeclaration?, List.findSome?_append]
  exact congrArg (Option.or · _) known

/-- A repeated declaration stands behind the first one of its name, and is reported
with the token that the usage of the name has. -/
theorem duplicate_placed {repeated : String} {first token : Token}
    (lexed : tokensOf text = .ok tokens) (read : Listing.read text.toList tokens = .items items)
    (wrong : ⟨.duplicate repeated first, token⟩ ∈ items.check.diagnostics) :
    first.span.stop < token.span.start ∧
      (items.check.usages.find? (·.name == repeated)).map Usage.declaredAt = some first := by
  obtain ⟨front, info, back, found, rfl, known, rfl⟩ := duplicate_splits wrong
  constructor
  · have apart := text_names_apart lexed read
    rw [text_names lexed read, List.flatMap_append, List.flatMap_cons] at apart
    exact (List.pairwise_append.mp apart).2.2 _ (first_declaration_named known)
      ⟨repeated, token⟩ (by simp [Item.names])
  · have tracks := (run_exact (front ++ .declaration ⟨repeated, token⟩ info :: back)
      tracks_nothing).2
    have whole := first_declaration_kept known (.declaration ⟨repeated, token⟩ info :: back)
    exact (tracks.declared repeated).trans (congrArg (Option.map Located.token) whole)

/-- The place behind the beginning of a text: its line and its byte column, both
counted from one. -/
def placeBehind (front : List Char) : Nat × Nat :=
  (1 + Text.lineFeeds front, 1 + Text.byteLength (Text.lastLine front))

/-- The place of a byte position of a text. -/
def placeAt? (text : List Char) (position : Nat) : Option (Nat × Nat) :=
  (Text.takeBytes? text position).map placeBehind

/-- A place is before another when it is on an earlier line, or on the same line in
an earlier column. -/
def Before : Nat × Nat → Nat × Nat → Prop :=
  Prod.Lex (· < ·) (· < ·)

/-- Going on in a text goes to a later place: to a later line if there is a line feed
on the way, and else to a later column. -/
theorem place_behind_more (front : List Char) {middle : List Char} (some : middle ≠ []) :
    Before (placeBehind front) (placeBehind (front ++ middle)) := by
  by_cases ends : '\n' ∈ middle
  · have feeds : 0 < Text.lineFeeds middle := List.count_pos_iff.mpr ends
    apply Prod.Lex.left
    rw [Text.lineFeeds_append]
    omega
  · have none : Text.lineFeeds middle = 0 := List.count_eq_zero.mpr ends
    have bytes : Text.byteLength middle ≠ 0 := mt Text.byteLength_eq_zero_iff.mp some
    have line : (placeBehind (front ++ middle)).1 = (placeBehind front).1 := by
      rw [placeBehind, placeBehind, Text.lineFeeds_append, none, Nat.add_zero]
    refine Prod.lex_def.mpr (.inr ⟨line.symm, ?_⟩)
    rw [placeBehind, placeBehind, Text.lastLine_append front ends, Text.byteLength_append]
    omega

/-- Of two positions in a text the earlier one has the earlier place. -/
theorem places_ordered {text : List Char} {first second : Nat} {here there : Nat × Nat}
    (one : placeAt? text first = some here) (other : placeAt? text second = some there)
    (order : first < second) : Before here there := by
  obtain ⟨front, cut, rfl⟩ := Option.map_eq_some_iff.mp one
  obtain ⟨longer, cut', rfl⟩ := Option.map_eq_some_iff.mp other
  obtain ⟨after, split, rfl⟩ := Text.takeBytes?_eq_some_iff.mp cut
  obtain ⟨after', split', rfl⟩ := Text.takeBytes?_eq_some_iff.mp cut'
  obtain ⟨middle, rfl⟩ :=
    Text.prefix_of_byteLength_le (split.symm.trans split') (Nat.le_of_lt order)
  apply place_behind_more
  rintro rfl
  simp at order

/-- The line in which a diagnostic is reported at a place. -/
def reportAt (d : Diagnostic) (place : Nat × Nat) : String :=
  positionLine place.1 place.2 d.value.name.toList d.value.message

private theorem name_without_line_feed {name : String} (valid : IsName name) :
    Text.lineFeeds name.toList = 0 := by
  apply List.count_eq_zero.mpr
  intro listed
  exact absurd (valid.1.2 _ listed) (by decide)

/-- A name is reported at the place where it starts. -/
theorem name_reported (lexed : tokensOf text = .ok tokens) (found : name ∈ identifiers tokens)
    (message : String) :
    ∃ place, placeAt? text.toList name.token.span.start = some place ∧
      Command.Job.reportLine? text.toList name.token message =
        some (positionLine place.1 place.2 name.value.toList message) := by
  have listed := identifier_token found
  have stands := identifier_in_text lexed found
  obtain ⟨front, lexeme, after, split, span, shown⟩ :=
    report_line ((tokens_reportable lexed).1 _ listed) message
  have whole : lexeme = name.value.toList := by
    have cut := stands.written
    rw [split, span, Text.byteLength_append, ← List.append_assoc, Text.slice?_append] at cut
    exact Option.some.inj cut
  -- The line of a token is the one on which it ends; a name ends on the line it starts on.
  obtain ⟨upTo, cut, line⟩ := tokens_on_line lexed _ listed
  rw [span, split, ← List.append_assoc, Text.takeBytes?_append] at cut
  obtain rfl := Option.some.inj cut
  rw [Text.lineFeeds_append, whole, name_without_line_feed stands.valid, Nat.add_zero] at line
  refine ⟨placeBehind front, ?_, ?_⟩
  · rw [placeAt?, span, split, Text.takeBytes?_append]
    rfl
  · rw [shown, line, whole]
    rfl

/-- Diagnostics that stand apart and can each be reported at a place are reported one
by one, at places that grow. -/
theorem reports_at_places {text : List Char} {diagnostics : List Diagnostic}
    (placed : ∀ d ∈ diagnostics, ∃ place, placeAt? text d.token.span.start = some place ∧
      Command.Job.reportLine? text d.token d.value.message = some (reportAt d place))
    (apart : diagnostics.Pairwise fun d e => d.token.span.start < e.token.span.start) :
    ∃ places, diagnostics.map (fun d => placeAt? text d.token.span.start) = places.map some ∧
      places.Pairwise Before ∧
      diagnostics.filterMap (fun d => Command.Job.reportLine? text d.token d.value.message) =
        List.zipWith reportAt diagnostics places := by
  induction diagnostics with
  | nil => exact ⟨[], rfl, .nil, rfl⟩
  | cons d diagnostics ih =>
    obtain ⟨first, others⟩ := List.forall_mem_cons.mp placed
    obtain ⟨behind, rest⟩ := List.pairwise_cons.mp apart
    obtain ⟨place, here, shown⟩ := first
    obtain ⟨places, there, grow, lines⟩ := ih others rest
    refine ⟨place :: places, by simp [here, there], List.pairwise_cons.mpr ⟨?_, grow⟩, ?_⟩
    · intro later listed
      have among : some later ∈ diagnostics.map fun d => placeAt? text d.token.span.start := by
        rw [there]
        exact List.mem_map_of_mem listed
      obtain ⟨e, member, at_later⟩ := List.mem_map.mp among
      exact places_ordered here at_later (behind e member)
    · rw [List.zipWith_cons_cons, ← lines]
      exact List.filterMap_cons_some shown

/-- The diagnostics of a text are about some of its identifiers, each at most once and
in their order, so their stretches of the text stand apart; every one has the name
that it tells of at its token. A repeated declaration has the token of the first,
an identifier of the same name before it, which the usage of the name has as well.
The lines that are printed have the places where the names start, and so those
grow. -/
theorem diagnostics_in_source_order {text : String} {report : Report}
    (checked : (checkText text).outcome = .ok report) :
    ∃ tokens, tokensOf text = .ok tokens ∧
      (report.diagnostics.map named).Sublist (identifiers tokens) ∧
      (∀ d ∈ report.diagnostics, d.token ∈ tokens ∧ NamedIn text.toList (named d) ∧
        d.token.span.start < d.token.span.stop) ∧
      report.diagnostics.Pairwise (fun d e => d.token.span.stop < e.token.span.start) ∧
      (∀ d ∈ report.diagnostics, ∀ name first, d.value = .duplicate name first →
        first ∈ tokens ∧ NamedIn text.toList ⟨name, first⟩ ∧
          first.span.stop < d.token.span.start ∧
          (report.usages.find? (·.name == name)).map Usage.declaredAt = some first) ∧
      ∃ places,
        report.diagnostics.map (fun d => placeAt? text.toList d.token.span.start) =
          places.map some ∧
        places.Pairwise Before ∧
        ∀ job : Command.Job, (job.runText text).stderr = Command.unlines
          (job.log (checkText text).events ++
            (List.zipWith reportAt report.diagnostics places).map job.styling.red ++
            if job.summary then job.log (Command.Job.summaryEvents report) else []) := by
  obtain ⟨tokens, items, lexed, read, rfl⟩ := report_of_text checked
  have among := diagnostics_named lexed read
  have apart : items.check.diagnostics.Pairwise
      fun d e => d.token.span.stop < e.token.span.start :=
    List.pairwise_map.mp ((text_names_apart lexed read).sublist among)
  have found (d : Diagnostic) (listed : d ∈ items.check.diagnostics) :
      named d ∈ identifiers tokens := among.subset (List.mem_map_of_mem listed)
  have wide (d : Diagnostic) (listed : d ∈ items.check.diagnostics) :
      d.token.span.start < d.token.span.stop := by
    have stands := (identifier_in_text lexed (found d listed)).token
    exact token_wide lexed (identifier_token (found d listed))
      fun ends => nomatch stands.symm.trans ends
  obtain ⟨places, here, grow, lines⟩ := reports_at_places
    (fun d listed => name_reported lexed (found d listed) d.value.message)
    (apart.imp_of_mem fun listed _ order => Nat.lt_trans (wide _ listed) order)
  refine ⟨tokens, lexed, among, ?_, apart, ?_, places, here, grow, fun job => ?_⟩
  · intro d listed
    exact ⟨identifier_token (found d listed), identifier_in_text lexed (found d listed),
      wide d listed⟩
  · rintro ⟨_, token⟩ listed name first rfl
    have earlier := duplicate_named lexed read listed
    obtain ⟨before, usage⟩ := duplicate_placed lexed read listed
    exact ⟨identifier_token earlier, identifier_in_text lexed earlier, before, usage⟩
  · rw [Command.Job.runText, checked]
    simp only [Command.Job.diagnosticLines, lines]

/-- A function that is declared again and then called with an argument too many, one
of which is not declared: three problems on one line. -/
theorem wrong_call_reported_in_order :
    ∃ report, (checkText "fn f(1)->int;\nint f;call f(a,f);").outcome = .ok report ∧
      report.diagnostics.map named =
        [⟨"f", ⟨.identifier "f", ⟨18, 19⟩, 2⟩⟩, ⟨"f", ⟨.identifier "f", ⟨25, 26⟩, 2⟩⟩,
          ⟨"a", ⟨.identifier "a", ⟨27, 28⟩, 2⟩⟩] ∧
      (report.usages.find? (·.name == "f")).map Usage.declaredAt =
        some ⟨.identifier "f", ⟨3, 4⟩, 1⟩ ∧
      ∃ places, places = [(2, 5), (2, 12), (2, 14)] ∧ places.Pairwise Before ∧
        ∀ job : Command.Job, job.summary = false →
          (job.runText "fn f(1)->int;\nint f;call f(a,f);").stderr = Command.unlines
            (job.log (checkText "fn f(1)->int;\nint f;call f(a,f);").events ++
              (List.zipWith reportAt report.diagnostics places).map job.styling.red) := by
  have shape : (checkText "fn f(1)->int;\nint f;call f(a,f);").outcome.toOption.map
      Report.diagnostics = some
        [⟨.duplicate "f" ⟨.identifier "f", ⟨3, 4⟩, 1⟩, ⟨.identifier "f", ⟨18, 19⟩, 2⟩⟩,
          ⟨.wrongArgumentCount "f" 1 2, ⟨.identifier "f", ⟨25, 26⟩, 2⟩⟩,
          ⟨.undeclared "a", ⟨.identifier "a", ⟨27, 28⟩, 2⟩⟩] := by decide +kernel
  cases checked : (checkText "fn f(1)->int;\nint f;call f(a,f);").outcome with
  | error e => simp [checked, Except.toOption] at shape
  | ok report =>
    simp only [checked, Except.toOption, Option.map_some, Option.some.injEq] at shape
    obtain ⟨_, -, -, -, -, repeated, places, here, grow, printed⟩ :=
      diagnostics_in_source_order checked
    rw [shape] at repeated here
    obtain ⟨-, -, -, usage⟩ := repeated _ List.mem_cons_self _ _ rfl
    have counted : places = [(2, 5), (2, 12), (2, 14)] := by
      apply List.map_injective_iff.mpr fun _ _ => Option.some.inj
      rw [← here]
      decide +kernel
    refine ⟨report, rfl, by rw [shape]; rfl, usage, places, counted, grow, fun job quiet => ?_⟩
    rw [printed job, quiet, if_neg Bool.false_ne_true, List.append_nil]

end DeclListing.DiagnosticOrder
