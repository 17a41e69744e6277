import DeclListing.Proofs.Relocation

/-! Checks of moved tokens. A check looks at names and never at where they stand; it
only hands on the tokens that it is given. So the check of a listing whose tokens
were moved finds the same problems in the same order, with every token and line in
them moved along, and so does the check of a text whose tokens were. -/
namespace DeclListing.Relocation

variable {m : Relocation} {text other : String} {tokens : List Token}

/-- A problem whose token was moved. -/
def problem (m : Relocation) : Problem → Problem
  | .duplicate name first => .duplicate name (m.token first)
  | problem => problem

/-- A diagnostic whose tokens were moved. -/
def diagnostic (m : Relocation) (d : Diagnostic) : Diagnostic :=
  ⟨m.problem d.value, m.token d.token⟩

/-- A usage whose declaration was moved. -/
def usage (m : Relocation) (u : Usage) : Usage :=
  { u with declaredAt := m.token u.declaredAt }

/-- An event whose line and problem were moved. -/
def event (m : Relocation) : Event → Event
  | .diagnosed line problem => .diagnosed (m.line line) (m.problem problem)
  | event => event

/-- The state of a check of moved tokens. -/
def checker (m : Relocation) (c : Checker) : Checker where
  table := c.table
  usages := c.usages.map m.usage
  diagnostics := c.diagnostics.map m.diagnostic
  events := c.events.map m.event

/-- A report on moved tokens. -/
def report (m : Relocation) (r : Report) : Report where
  table := r.table
  usages := r.usages.map m.usage
  diagnostics := r.diagnostics.map m.diagnostic
  events := r.events.map m.event

/-- What is said about a text whose tokens were moved. -/
def verdict (m : Relocation) (v : Verdict) : Verdict where
  outcome := (v.outcome.mapError m.rejection).map m.report
  events := v.events.map m.event

theorem record_moved (c : Checker) (e : Event) :
    (m.checker c).record (m.event e) = m.checker (c.record e) := by
  simp [Checker.record, checker]

theorem report_moved (c : Checker) (t : Token) (p : Problem) :
    (m.checker c).report (m.token t) (m.problem p) = m.checker (c.report t p) := by
  simp [Checker.report, checker, diagnostic, event, token]

theorem usage_moved (c : Checker) (name : String) :
    (m.checker c).usage? name = (c.usage? name).map m.usage :=
  List.find?_map ..

theorem count_moved (c : Checker) (name : String) :
    (m.checker c).count name = m.checker (c.count name) := by
  simp only [Checker.count, checker, List.map_map]
  congr 1
  refine List.map_congr_left fun u _ => ?_
  rw [Function.comp_apply, Function.comp_apply, show (m.usage u).name = u.name from rfl]
  split <;> rfl

theorem declare_moved (c : Checker) (name : Located String) (info : SymbolInfo) :
    (m.checker c).declare (m.located name) info = m.checker (c.declare name info) := by
  have same : (m.checker c).table.add? ⟨(m.located name).value, info⟩ =
      c.table.add? ⟨name.value, info⟩ := rfl
  unfold Checker.declare
  rw [same]
  cases c.table.add? ⟨name.value, info⟩ with
  | some table => simp [checker, usage, located, event]
  | none =>
    have first :
        (((m.checker c).usage? name.value).map Usage.declaredAt).getD (m.token name.token) =
          m.token (((c.usage? name.value).map Usage.declaredAt).getD name.token) := by
      rw [usage_moved]
      cases c.usage? name.value <;> rfl
    simp only [located, first]
    rw [← report_moved, ← record_moved]
    rfl

theorem resolve_moved (c : Checker) (name : Located String) :
    (m.checker c).resolve (m.located name) = m.checker (c.resolve name) := by
  have known : (m.checker c).table.contains (m.located name).value =
      c.table.contains name.value := rfl
  simp only [Checker.resolve, known]
  split
  · exact count_moved c name.value
  · exact report_moved c name.token (.undeclared name.value)

theorem match_call_moved (c : Checker) (callee : Located String) (got : Nat) :
    (m.checker c).matchCall (m.located callee) got = m.checker (c.matchCall callee got) := by
  have same : (m.checker c).table.info? (m.located callee).value = c.table.info? callee.value := rfl
  unfold Checker.matchCall
  rw [same]
  cases c.table.info? callee.value with
  | none => exact record_moved c (.missed callee.value)
  | some info =>
    dsimp only
    cases info.type with
    | function params result =>
      dsimp only
      split
      · rfl
      · exact report_moved c callee.token (.wrongArgumentCount callee.value params.toNat got)
    | int | str | intOrStr | undefined =>
      exact report_moved c callee.token (.notCallable callee.value _)

theorem call_moved (c : Checker) (callee : Located String) (args : List (Located String)) :
    (m.checker c).call (m.located callee) (args.map m.located) =
      m.checker (c.call callee args) := by
  have all (args : List (Located String)) (c : Checker) :
      (args.map m.located).foldl Checker.resolve (m.checker c) =
        m.checker (args.foldl Checker.resolve c) := by
    rw [List.foldl_map]
    exact List.foldl_hom m.checker fun c name => resolve_moved c name
  have known : (m.checker c).table.contains (m.located callee).value =
      c.table.contains callee.value := rfl
  simp only [Checker.call, known, List.length_map, resolve_moved]
  split
  · rw [match_call_moved, all]
  · rw [all]

/-- A step commutes with moving the tokens. -/
theorem step_moved (c : Checker) (i : Item) :
    (m.checker c).step (m.item i) = m.checker (c.step i) := by
  cases i with
  | declaration name info => exact declare_moved c name info
  | reference name => exact resolve_moved c name
  | call callee args => exact call_moved c callee args

/-- The check of moved items finds the same, moved. -/
theorem check_moved (m : Relocation) (items : Listing) :
    Listing.check (items.map m.item) = m.report items.check := by
  have run : Checker.run (m.checker {}) (items.map m.item) = m.checker (Checker.run {} items) := by
    rw [Checker.run, List.foldl_map]
    exact List.foldl_hom m.checker fun c i => step_moved c i
  have start : m.checker {} = {} := rfl
  rw [start] at run
  simp [Listing.check, run, Report.ofChecker, report, checker, event]

/-- Where another text has the tokens of a text, moved, and shows a fault of the
reader alike, it has the same listing, moved. -/
theorem readText_moved (lexed : tokensOf text = .ok tokens)
    (moved : tokensOf other = .ok (tokens.map m.token))
    (shows : ∀ e rest, Reader.listing tokens = .error e rest →
      m.Shows text.toList other.toList e) :
    readText other = ((readText text).mapError m.rejection).map (List.map m.item) := by
  simp only [readText, lexed, moved, Listing.read, listing_moved]
  exact outcome_moved shows

/-- Where another text has the tokens of a text, moved, and shows a fault of the
reader alike, the same is said about it, moved. -/
theorem checkText_moved (lexed : tokensOf text = .ok tokens)
    (moved : tokensOf other = .ok (tokens.map m.token))
    (shows : ∀ e rest, Reader.listing tokens = .error e rest →
      m.Shows text.toList other.toList e) :
    checkText other = m.verdict (checkText text) := by
  simp only [checkText, lexed, moved, Listing.read, listing_moved, List.length_map,
    of_read_moved shows]
  cases Reading.ofRead text.toList (Reader.listing tokens) with
  | items items =>
    simp only [reading, check_moved, List.length_map]
    rfl
  | rejected e => rfl
  | unreadable => rfl

end DeclListing.Relocation
