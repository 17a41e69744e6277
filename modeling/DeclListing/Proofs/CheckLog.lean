import DeclListing.Command.LogFilter
import DeclListing.Proofs.ReportContents
import DeclListing.Proofs.ReportPlaces

/-! The log of a check. What an item logs depends, as its problems do, on the first
declarations before it: a declaration says whether its name was added or refused, and
then every problem is logged as it is reported. The log is that of the items, in
order, and a last event that counts what came of them. A name that is asked for is
known by then, so nothing is ever logged as missed. -/
namespace DeclListing.CheckLog
open CheckDiagnostics UsageAccounts ReportContents ReportPlaces

variable {c d : Checker} {before items : Listing} {events more : List Event}

/-- How a problem is logged when it is reported. -/
def logged (d : Diagnostic) : Event :=
  .diagnosed d.token.line d.value

/-- What the symbol table logs of an item, given the items before it. -/
def admission (before : Listing) : Item → List Event
  | .declaration name info =>
    match before.firstDeclaration? name.value with
    | none => [.added name.value info.type]
    | some _ => [.refused name.value]
  | _ => []

/-- What is logged of an item, given the items before it. -/
def eventsAt (before : Listing) (i : Item) : List Event :=
  admission before i ++ (problemsAt before i).map logged

/-- What is logged of the items of a listing behind those in `before`. -/
def eventsAfter (before : Listing) : Listing → List Event
  | [] => []
  | i :: items => eventsAt before i ++ eventsAfter (before ++ [i]) items

/-- Whatever was reported on the way from one state to another was logged, and nothing
else. -/
def LogsReports (c d : Checker) : Prop :=
  ∃ new, d.diagnostics = c.diagnostics ++ new ∧ d.events = c.events ++ new.map logged

theorem LogsReports.trans {e : Checker} (first : LogsReports c d) (second : LogsReports d e) :
    LogsReports c e := by
  obtain ⟨new, diagnostics, events⟩ := first
  obtain ⟨others, later, laterEvents⟩ := second
  exact ⟨new ++ others, by rw [later, diagnostics, List.append_assoc],
    by rw [laterEvents, events, List.map_append, List.append_assoc]⟩

theorem logs_nothing (diagnostics : d.diagnostics = c.diagnostics) (events : d.events = c.events) :
    LogsReports c d :=
  ⟨[], by simp [diagnostics], by simp [events]⟩

theorem report_logs (c : Checker) (token : Token) (problem : Problem) :
    LogsReports c (c.report token problem) :=
  ⟨[⟨problem, token⟩], rfl, rfl⟩

theorem resolve_logs (c : Checker) (name : Located String) : LogsReports c (c.resolve name) := by
  unfold Checker.resolve
  split
  · exact logs_nothing rfl rfl
  · exact report_logs c _ _

theorem resolve_all_logs (names : List (Located String)) (c : Checker) :
    LogsReports c (names.foldl Checker.resolve c) := by
  induction names generalizing c with
  | nil => exact logs_nothing rfl rfl
  | cons name names ih => exact (resolve_logs c name).trans (ih _)

/-- The type of a declared name is found, so its call logs no miss. -/
theorem match_call_logs {callee : Located String} (known : c.table.contains callee.value = true)
    (got : Nat) : LogsReports c (c.matchCall callee got) := by
  obtain ⟨e, found⟩ := Option.isSome_iff_exists.mp known
  unfold Checker.matchCall
  rw [SymbolTable.info?, found, Option.map_some]
  dsimp only
  split
  · split
    · exact logs_nothing rfl rfl
    · exact report_logs c _ _
  · exact report_logs c _ _

theorem call_logs (c : Checker) (callee : Located String) (args : List (Located String)) :
    LogsReports c (c.call callee args) := by
  unfold Checker.call
  dsimp only
  split
  · rename_i known
    have still : (c.resolve callee).table.contains callee.value = true := by
      rw [(keeps_resolve c callee).1, known]
    exact ((resolve_logs c callee).trans (match_call_logs still _)).trans (resolve_all_logs args _)
  · exact (resolve_logs c callee).trans (resolve_all_logs args _)

/-- What is logged on the way are the problems that are known to be reported. -/
private theorem events_of_reports {new : List Diagnostic} (logs : LogsReports c d)
    (reported : d.diagnostics = c.diagnostics ++ new) :
    d.events = c.events ++ new.map logged := by
  obtain ⟨others, diagnostics, events⟩ := logs
  rw [diagnostics] at reported
  rw [events, List.append_cancel_left reported]

/-- A step adds to the log what its item logs. -/
theorem step_logs (tracks : Tracks c before) (i : Item) :
    (c.step i).events = c.events ++ eventsAt before i := by
  have reported := (step_exact tracks i).1
  cases i with
  | reference name => exact events_of_reports (resolve_logs c name) reported
  | call callee args => exact events_of_reports (call_logs c callee args) reported
  | declaration name info =>
    have known := contains_iff tracks name.value
    simp only [Checker.step] at reported ⊢
    cases first : before.firstDeclaration? name.value with
    | none =>
      obtain ⟨unused, declared⟩ := declare_fresh info (known.trans (by rw [first]; rfl))
      rw [declared]
      simp [eventsAt, admission, problemsAt, first]
    | some found =>
      -- The refusal is logged by the table, before the problem is reported.
      have taken : c.table.contains name.value = true := by rw [known, first]; rfl
      rw [declare_taken taken] at reported ⊢
      have logs := events_of_reports (report_logs _ _ _) reported
      rw [logs]
      simp [Checker.record, eventsAt, admission, first]

/-- A run adds what all its items log, each with the items before it. -/
theorem run_logs (items : Listing) (tracks : Tracks c before) :
    (c.run items).events = c.events ++ eventsAfter before items := by
  induction items generalizing c before with
  | nil => simp [Checker.run, eventsAfter]
  | cons i items ih =>
    have rest := ih (step_exact tracks i).2
    simp only [Checker.run, List.foldl_cons] at rest ⊢
    rw [rest, step_logs tracks i, eventsAfter, List.append_assoc]

/-- The log of a check is that of its items and the end. -/
theorem check_logs (items : Listing) :
    items.check.events = eventsAfter [] items ++
      [.finished items.check.table.size items.check.diagnostics.length] := by
  have run := run_logs items tracks_nothing
  simp only [Listing.check, Report.ofChecker]
  rw [run]
  rfl

/-- The name and the type that an event says were added. -/
def added? : Event → Option (String × SymbolType)
  | .added name type => some (name, type)
  | _ => none

/-- An entry, as its addition is logged. -/
def typed (e : Entry) : String × SymbolType :=
  (e.name, e.info.type)

private theorem logged_adds_nothing (diagnostics : List Diagnostic) :
    (diagnostics.map logged).filterMap added? = [] := by
  simp [List.filterMap_map, Function.comp_def, logged, added?]

/-- A step adds to the table what its item logs as added. -/
theorem step_adds (tracks : Tracks c before) (i : Item) :
    (c.step i).table.entries.map typed =
      c.table.entries.map typed ++ (eventsAt before i).filterMap added? := by
  rw [eventsAt, List.filterMap_append, logged_adds_nothing, List.append_nil]
  cases i with
  | reference name => simp [Checker.step, (keeps_resolve c name).1, admission]
  | call callee args => simp [Checker.step, (keeps_call c callee args).1, admission]
  | declaration name info =>
    have known := contains_iff tracks name.value
    rw [Checker.step, admission]
    cases first : before.firstDeclaration? name.value with
    | none =>
      obtain ⟨unused, declared⟩ := declare_fresh info (known.trans (by rw [first]; rfl))
      rw [declared]
      simp [typed, added?]
    | some found =>
      rw [declare_taken (known.trans (by rw [first]; rfl))]
      simp [Checker.report, Checker.record, added?]

theorem run_adds (items : Listing) (tracks : Tracks c before) :
    (c.run items).table.entries.map typed =
      c.table.entries.map typed ++ (eventsAfter before items).filterMap added? := by
  induction items generalizing c before with
  | nil => simp [Checker.run, eventsAfter]
  | cons i items ih =>
    have rest := ih (step_exact tracks i).2
    simp only [Checker.run, List.foldl_cons] at rest ⊢
    rw [rest, step_adds tracks i, eventsAfter, List.filterMap_append, List.append_assoc]

/-- The additions that a check logs are the entries of its table, in order. -/
theorem check_adds (items : Listing) :
    items.check.events.filterMap added? = items.check.table.entries.map typed := by
  have nothing : ({} : Checker).table.entries.map typed = [] := rfl
  have run := run_adds items tracks_nothing
  rw [nothing, List.nil_append] at run
  rw [check_logs, List.filterMap_append, ← run]
  exact List.append_nil _

/-- A name with the type of its first declaration. -/
def declaredType? (items : Listing) (name : String) : Option (String × SymbolType) :=
  (items.firstDeclaration? name).map fun first => (name, first.value.type)

/-- An entry has the type of the first declaration of its name. -/
theorem entry_typed (items : Listing) {e : Entry} (listed : e ∈ items.check.table.entries) :
    declaredType? items e.name = some (typed e) := by
  have known : items.check.table.get? e.name = some e := SymbolTable.get?_of_mem listed
  rw [entry_found] at known
  obtain ⟨first, declared, same⟩ := Option.map_eq_some_iff.mp known
  rw [declaredType?, declared, ← same]
  rfl

/-- The additions that a check logs are the declared names with the types of their first
declarations, in the order of the usages. -/
theorem additions_declared (items : Listing) :
    (items.check.events.filterMap added?).map some =
      items.check.usages.map fun u => declaredType? items u.name := by
  have told := told_of_listing items
  calc (items.check.events.filterMap added?).map some
      = items.check.table.entries.map fun e => declaredType? items e.name := by
        rw [check_adds, List.map_map]
        exact List.map_congr_left fun e listed => (entry_typed items listed).symm
    _ = items.check.table.names.map (declaredType? items) := by
        rw [SymbolTable.names, List.map_map]
        rfl
    _ = items.check.usages.map fun u => declaredType? items u.name := by
        rw [told.tabled, ← told.keyed, List.map_map]
        rfl

/-- Whether an event says that a problem was found. -/
def isDiagnosed : Event → Bool
  | .diagnosed _ _ => true
  | _ => false

/-- The problems that are logged are those of the items. -/
theorem diagnosed_after (before items : Listing) :
    (eventsAfter before items).filter isDiagnosed = (problemsAfter before items).map logged := by
  induction items generalizing before with
  | nil => rfl
  | cons i items ih =>
    have silent : (admission before i).filter isDiagnosed = [] := by
      unfold admission
      split
      · split <;> rfl
      · rfl
    have all : ((problemsAt before i).map logged).filter isDiagnosed =
        (problemsAt before i).map logged :=
      List.filter_eq_self.mpr (by simp [logged, isDiagnosed])
    rw [eventsAfter, eventsAt, problemsAfter, List.filter_append, List.filter_append, silent, all,
      ih, List.map_append, List.nil_append]

/-- Events in which each refusal stands directly before the report of a repeated
declaration of its name, and no such report stands elsewhere. -/
inductive Paired : List Event → Prop where
  | nothing : Paired []
  | pair (name : String) (line : Nat) (first : Token) {events : List Event} :
      Paired events → Paired (.refused name :: .diagnosed line (.duplicate name first) :: events)
  | other {e : Event} {events : List Event} :
      (∀ name, e ≠ .refused name) →
      (∀ line name first, e ≠ .diagnosed line (.duplicate name first)) →
      Paired events → Paired (e :: events)

theorem Paired.append (front : Paired events) (back : Paired more) : Paired (events ++ more) := by
  induction front with
  | nothing => exact back
  | pair name line first _ ih => exact .pair name line first ih
  | other noRefusal noRepeat _ ih => exact .other noRefusal noRepeat ih

/-- What other items than declarations log holds neither. -/
private theorem problems_paired {i : Item} (silent : ∀ name, i.declares? name = none) :
    Paired ((problemsAt before i).map logged) := by
  have other : ∀ d ∈ problemsAt before i, ∀ name first, d.value ≠ .duplicate name first := by
    rintro ⟨_, token⟩ wrong name first rfl
    obtain ⟨info, -, rfl, -⟩ := duplicate_of_problem wrong
    simpa [Item.declares?] using silent name
  generalize problemsAt before i = problems at other
  induction problems with
  | nil => exact .nothing
  | cons d problems ih =>
    obtain ⟨here, later⟩ := List.forall_mem_cons.mp other
    refine .other (by simp [logged]) (fun line name first same => ?_) (ih later)
    exact here name first (Event.diagnosed.inj same).2

theorem item_paired (before : Listing) (i : Item) : Paired (eventsAt before i) := by
  cases i with
  | reference name => exact problems_paired (i := .reference name) fun _ => rfl
  | call callee args => exact problems_paired (i := .call callee args) fun _ => rfl
  | declaration name info =>
    rw [eventsAt, admission, problemsAt]
    cases before.firstDeclaration? name.value with
    | none => exact .other (by simp) (by simp) .nothing
    | some found => exact .pair _ _ _ .nothing

theorem after_paired (before items : Listing) : Paired (eventsAfter before items) := by
  induction items generalizing before with
  | nil => exact .nothing
  | cons i items ih => exact (item_paired before i).append (ih _)

theorem check_paired (items : Listing) : Paired items.check.events := by
  rw [check_logs]
  exact (after_paired [] items).append (.other (by simp) (by simp) .nothing)

/-- A refusal is followed by the report of the repeated declaration. -/
theorem Paired.followed (paired : Paired events) {front back : List Event} {name : String}
    (split : events = front ++ .refused name :: back) :
    ∃ line first rest, back = .diagnosed line (.duplicate name first) :: rest := by
  induction paired generalizing front with
  | nothing => simp at split
  | pair other line first _ ih =>
    match front, split with
    | [], split =>
      obtain ⟨same, rfl⟩ := List.cons.inj split
      cases same
      exact ⟨_, _, _, rfl⟩
    | [_], split => simp at split
    | _ :: _ :: front, split => exact ih (List.cons.inj (List.cons.inj split).2).2
  | other noRefusal _ _ ih =>
    match front, split with
    | [], split => exact absurd (List.cons.inj split).1 (noRefusal name)
    | _ :: front, split => exact ih (List.cons.inj split).2

/-- The report of a repeated declaration is preceded by the refusal. -/
theorem Paired.preceded (paired : Paired events) {front back : List Event} {name : String}
    {line : Nat} {first : Token}
    (split : events = front ++ .diagnosed line (.duplicate name first) :: back) :
    ∃ rest, front = rest ++ [.refused name] := by
  induction paired generalizing front with
  | nothing => simp at split
  | pair other _ _ _ ih =>
    match front, split with
    | [], split => simp at split
    | [_], split =>
      obtain ⟨rfl, next⟩ := List.cons.inj split
      cases (List.cons.inj next).1
      exact ⟨[], rfl⟩
    | e :: f :: front, split =>
      obtain ⟨rest, rfl⟩ := ih (List.cons.inj (List.cons.inj split).2).2
      exact ⟨e :: f :: rest, rfl⟩
  | other _ noRepeat _ ih =>
    match front, split with
    | [], split => exact absurd (List.cons.inj split).1 (noRepeat line name first)
    | e :: front, split =>
      obtain ⟨rest, rfl⟩ := ih (List.cons.inj split).2
      exact ⟨e :: rest, rfl⟩

/-! ## The whole log -/

/-- Whether an event tells what was made of an item. -/
def tellsOfItem : Event → Bool
  | .added _ _ | .refused _ | .diagnosed _ _ => true
  | _ => false

/-- The items are logged by events that tell of them: no name is ever missed on the way,
and the check does not end. -/
theorem after_tells (before items : Listing) :
    ∀ e ∈ eventsAfter before items, tellsOfItem e = true := by
  induction items generalizing before with
  | nil => simp [eventsAfter]
  | cons i items ih =>
    have admitted : ∀ e ∈ admission before i, tellsOfItem e = true := by
      unfold admission
      split
      · split <;> simp [tellsOfItem]
      · simp
    have reported : ∀ e ∈ (problemsAt before i).map logged, tellsOfItem e = true := by
      simp [logged, tellsOfItem]
    rw [eventsAfter, eventsAt]
    simp only [List.forall_mem_append]
    exact ⟨⟨admitted, reported⟩, ih _⟩

/-- The log of a check gives a true account of its report on a listing. -/
structure Faithful (items : Listing) (report : Report) : Prop where
  /-- A log at the lowest level shows every event. -/
  shown : report.events.filter Command.LogFilter.everything.admits = report.events
  /-- The additions are those of the declared names, in order, each with the type of its
  first declaration. -/
  additions : (report.events.filterMap added?).map some =
    report.usages.map fun u => declaredType? items u.name
  /-- The problems that are logged are the diagnostics, in order. -/
  diagnosed : report.events.filter isDiagnosed = report.diagnostics.map logged
  /-- Each is written with the line of its token and its message, behind the time stamp
  that a log puts in front. -/
  messages : (report.events.filter isDiagnosed).map Event.logLine =
    report.diagnostics.map fun d =>
      "DEBUG diagnostic line=" ++ toString d.token.line ++ " kind=" ++ d.value.message
  /-- Directly behind a refusal stands the report of the repeated declaration. -/
  followed : ∀ front name back, report.events = front ++ .refused name :: back →
    ∃ line first rest, back = .diagnosed line (.duplicate name first) :: rest
  /-- Directly before the report of a repeated declaration stands the refusal. -/
  preceded : ∀ front line name first back,
    report.events = front ++ .diagnosed line (.duplicate name first) :: back →
      ∃ rest, front = rest ++ [.refused name]
  /-- No name is missed by the check. -/
  unmissed : ∀ name, .missed name ∉ report.events
  /-- No name is missed by a summary of the report. -/
  summarized : Command.Job.summaryEvents report = []
  /-- The end of the check is the last event, and no event before it. -/
  finished : ∃ front,
    report.events = front ++ [.finished report.table.size report.diagnostics.length] ∧
      ∀ symbols diagnostics, .finished symbols diagnostics ∉ front

/-- The log of every check is a true account of it. -/
theorem check_log_faithful (items : Listing) : Faithful items items.check := by
  have logs := check_logs items
  have told := told_of_listing items
  have tells := after_tells [] items
  have untold (e : Event) (other : tellsOfItem e = false) : e ∉ eventsAfter [] items := by
    intro listed
    simp [tells e listed] at other
  have diagnosed : items.check.events.filter isDiagnosed = items.check.diagnostics.map logged := by
    rw [logs, List.filter_append, diagnosed_after, diagnostics_of_listing]
    simp [Listing.problems, isDiagnosed]
  constructor
  · refine List.filter_eq_self.mpr fun e _ => ?_
    cases e <;> rfl
  · exact additions_declared items
  · exact diagnosed
  · rw [diagnosed, List.map_map]
    exact List.map_congr_left fun d _ => rfl
  · intro front name back split
    exact (check_paired items).followed split
  · intro front line name first back split
    exact (check_paired items).preceded split
  · intro name listed
    rw [logs, List.mem_append, List.mem_singleton] at listed
    rcases listed with missed | last
    · exact untold _ rfl missed
    · cases last
  · refine List.flatMap_eq_nil_iff.mpr fun u listed => ?_
    obtain ⟨first, -, info, -⟩ := told.entries u listed
    rw [Command.Job.summaryType, info]
  · exact ⟨_, logs, fun symbols diagnostics => untold _ rfl⟩

end DeclListing.CheckLog
