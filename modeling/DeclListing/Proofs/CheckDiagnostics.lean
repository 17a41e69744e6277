import DeclListing.Check.Checker
import DeclListing.Check.Rules

/-! The diagnostics of a check are those of the rules, item by item. The state of
a check is held against the items it has taken: its table and its usages know
of a name what the first declaration of it says, and nothing else of them
matters for what is reported. -/
namespace DeclListing.CheckDiagnostics

variable {c : Checker} {before : Listing} {name : Located String} {info : SymbolInfo}

/-- The table and the usages hold, for every name, its first declaration among
the items before. -/
structure Tracks (c : Checker) (before : Listing) : Prop where
  /-- The table has what was declared. -/
  info : ∀ name, c.table.info? name = (before.firstDeclaration? name).map Located.value
  /-- The usages have the token that declared it. -/
  declared : ∀ name,
    (c.usage? name).map Usage.declaredAt = (before.firstDeclaration? name).map Located.token

theorem tracks_nothing : Tracks {} [] where
  info _ := rfl
  declared _ := rfl

theorem contains_iff (tracks : Tracks c before) (name : String) :
    c.table.contains name = (before.firstDeclaration? name).isSome := by
  have info := congrArg Option.isSome (tracks.info name)
  simpa [SymbolTable.info?, SymbolTable.contains] using info

theorem first_declaration_snoc (i : Item) (name : String) :
    Listing.firstDeclaration? (before ++ [i]) name =
      (before.firstDeclaration? name).or (i.declares? name) := by
  simp [Listing.firstDeclaration?, List.findSome?_append, List.findSome?_cons]
  cases i.declares? name <;> rfl

/-- A first declaration is one of the items, with its token. -/
theorem first_declaration_mem {name : String} {first : Located SymbolInfo}
    (known : before.firstDeclaration? name = some first) :
    .declaration ⟨name, first.token⟩ first.value ∈ before := by
  obtain ⟨i, listed, declares⟩ := List.exists_of_findSome?_eq_some known
  cases i with
  | declaration n info =>
    simp only [Item.declares?, Option.ite_none_right_eq_some, Option.some.injEq] at declares
    obtain ⟨rfl, rfl⟩ := declares
    exact listed
  | reference | call => cases declares

/-- A new name is added to the table and to the usages. -/
theorem declare_fresh (info : SymbolInfo) (fresh : c.table.contains name.value = false) :
    ∃ unused, c.declare name info =
      { c with
        table := c.table.push { name := name.value, info } unused
        usages := c.usages ++ [{ name := name.value, declaredAt := name.token, uses := 0 }]
        events := c.events ++ [.added name.value info.type] } := by
  have unused : name.value ∉ c.table.names := by
    rw [← SymbolTable.contains_iff_mem_names, fresh]
    simp
  refine ⟨unused, ?_⟩
  simp [Checker.declare, SymbolTable.add?, unused]

/-- A name that is declared already is reported, and nothing else changes. -/
theorem declare_taken (taken : c.table.contains name.value = true) :
    c.declare name info = (c.record (.refused name.value)).report name.token
      (.duplicate name.value (((c.usage? name.value).map Usage.declaredAt).getD name.token)) := by
  have used : name.value ∈ c.table.names := SymbolTable.contains_iff_mem_names.mp taken
  simp [Checker.declare, SymbolTable.add?, used]

private theorem info_push {t : SymbolTable} {e : Entry} (fresh : e.name ∉ t.names)
    (other : String) :
    (t.push e fresh).info? other =
      (t.info? other).or (if e.name = other then some e.info else none) := by
  simp only [SymbolTable.info?, SymbolTable.get?, SymbolTable.push_entries, List.find?_append,
    Option.map_or, List.find?_singleton, beq_iff_eq]
  split <;> rfl

private theorem declared_snoc (usages : List Usage) (u : Usage) (other : String) :
    ((usages ++ [u]).find? (·.name == other)).map Usage.declaredAt =
      ((usages.find? (·.name == other)).map Usage.declaredAt).or
        (if u.name = other then some u.declaredAt else none) := by
  simp only [List.find?_append, Option.map_or, List.find?_singleton, beq_iff_eq]
  split <;> rfl

/-- A declaration is reported exactly when its name was declared before, and
only the first declaration of a name is kept. -/
theorem declare_exact (tracks : Tracks c before) :
    (c.declare name info).diagnostics =
        c.diagnostics ++ problemsAt before (.declaration name info) ∧
      Tracks (c.declare name info) (before ++ [.declaration name info]) := by
  cases first : before.firstDeclaration? name.value with
  | none =>
    have fresh : c.table.contains name.value = false := by
      rw [contains_iff tracks, first]
      rfl
    obtain ⟨unused, declared⟩ := declare_fresh info fresh
    rw [declared]
    refine ⟨by simp [problemsAt, first], ?_, ?_⟩
    · intro other
      rw [info_push, tracks.info, first_declaration_snoc, Option.map_or]
      simp only [Item.declares?]
      split <;> rfl
    · intro other
      rw [first_declaration_snoc, Option.map_or, ← tracks.declared]
      simp only [Checker.usage?, declared_snoc, Item.declares?]
      split <;> rfl
  | some found =>
    have taken : c.table.contains name.value = true := by
      rw [contains_iff tracks, first]
      rfl
    have prev : (c.usage? name.value).map Usage.declaredAt = some found.token := by
      rw [tracks.declared, first]
      rfl
    rw [declare_taken taken, prev]
    refine ⟨by simp [problemsAt, first, Checker.report, Checker.record], ?_⟩
    have kept : ∀ other, Listing.firstDeclaration? (before ++ [.declaration name info]) other =
        before.firstDeclaration? other := by
      intro other
      rw [first_declaration_snoc]
      by_cases same : name.value = other
      · rw [← same, first, Option.some_or]
      · simp [Item.declares?, same]
    constructor
    · intro other
      rw [kept]
      exact tracks.info other
    · intro other
      rw [kept]
      exact tracks.declared other

/-- A usage without its count. -/
def declared (u : Usage) : String × Token :=
  (u.name, u.declaredAt)

/-- A step that leaves the table and the declared names as they are: it may only count
uses and report. -/
def Keeps (c d : Checker) : Prop :=
  d.table = c.table ∧ d.usages.map declared = c.usages.map declared

theorem Keeps.trans {d e : Checker} (first : Keeps c d) (second : Keeps d e) : Keeps c e :=
  ⟨second.1.trans first.1, second.2.trans first.2⟩

theorem keeps_count (c : Checker) (name : String) : Keeps c (c.count name) := by
  refine ⟨rfl, ?_⟩
  rw [Checker.count, List.map_map]
  apply List.map_congr_left
  intro u _
  simp only [Function.comp_apply]
  split <;> rfl

theorem keeps_resolve (c : Checker) (name : Located String) : Keeps c (c.resolve name) := by
  unfold Checker.resolve
  split
  · exact keeps_count c name.value
  · exact ⟨rfl, rfl⟩

theorem keeps_resolve_all (names : List (Located String)) (c : Checker) :
    Keeps c (names.foldl Checker.resolve c) := by
  induction names generalizing c with
  | nil => exact ⟨rfl, rfl⟩
  | cons name names ih => exact (keeps_resolve c name).trans (ih (c.resolve name))

theorem keeps_match_call (c : Checker) (callee : Located String) (got : Nat) :
    Keeps c (c.matchCall callee got) := by
  unfold Checker.matchCall
  split
  · exact ⟨rfl, rfl⟩
  · split
    · split <;> exact ⟨rfl, rfl⟩
    · exact ⟨rfl, rfl⟩

theorem keeps_callee (c : Checker) (callee : Located String) (got : Nat) :
    Keeps c (if c.table.contains callee.value then (c.resolve callee).matchCall callee got
      else c.resolve callee) := by
  split
  · exact (keeps_resolve c callee).trans (keeps_match_call _ callee got)
  · exact keeps_resolve c callee

theorem keeps_call (c : Checker) (callee : Located String) (args : List (Located String)) :
    Keeps c (c.call callee args) :=
  (keeps_callee c callee args.length).trans (keeps_resolve_all args _)

/-- Two states know the same of every name; they may differ in the uses they
have counted and in what they have reported. -/
structure SameNames (c d : Checker) : Prop where
  /-- The tables are the same. -/
  table : d.table = c.table
  /-- The usages have the same declaring tokens. -/
  declared : ∀ name, (d.usage? name).map Usage.declaredAt = (c.usage? name).map Usage.declaredAt

/-- The declaring token of a name is found among the usages without their counts. -/
private theorem token_of_declared (usages : List Usage) (name : String) :
    (usages.find? (·.name == name)).map Usage.declaredAt =
      ((usages.map declared).find? (·.1 == name)).map Prod.snd := by
  rw [List.find?_map, Option.map_map]
  rfl

theorem Keeps.same_names {d : Checker} (kept : Keeps c d) : SameNames c d where
  table := kept.1
  declared name := by
    rw [Checker.usage?, Checker.usage?, token_of_declared, token_of_declared, kept.2]

/-- Items that declare nothing leave what is known of the names as it is. -/
theorem SameNames.tracks {d : Checker} (same : SameNames c d) (tracks : Tracks c before) :
    Tracks d before where
  info name := by rw [same.table, tracks.info]
  declared name := by rw [same.declared, tracks.declared]

/-- A reference is reported exactly when its name is not declared before. -/
theorem resolve_exact (tracks : Tracks c before) (name : Located String) :
    (c.resolve name).diagnostics = c.diagnostics ++ unresolved before name := by
  unfold Checker.resolve unresolved
  rw [contains_iff tracks]
  cases before.firstDeclaration? name.value with
  | none => rfl
  | some first => simp [Checker.count]

/-- Each of several names is reported when it is not declared before, in order
and as often as it stands there. -/
theorem resolve_all_exact (names : List (Located String)) (tracks : Tracks c before) :
    (names.foldl Checker.resolve c).diagnostics =
      c.diagnostics ++ names.flatMap (unresolved before) := by
  induction names generalizing c with
  | nil => simp
  | cons name names ih =>
    have later := ih ((keeps_resolve c name).same_names.tracks tracks)
    rw [List.foldl_cons, later, resolve_exact tracks name, List.flatMap_cons, List.append_assoc]

/-- A declared callee is reported when it is no function, or one of another
arity. -/
theorem match_call_exact {first : Located SymbolInfo} (tracks : Tracks c before)
    (known : before.firstDeclaration? name.value = some first) (got : Nat) :
    (c.matchCall name got).diagnostics = c.diagnostics ++ calleeProblems before name got := by
  have info : c.table.info? name.value = some first.value := by
    rw [tracks.info, known]
    rfl
  unfold Checker.matchCall calleeProblems
  rw [info, known]
  cases type : first.value.type with
  | function params result =>
    simp only [type]
    split
    · simp
    · rfl
  | _ => simp [type, Checker.report]

/-- A callee is resolved and, when it is declared, held against its type. -/
theorem callee_exact (tracks : Tracks c before) (got : Nat) :
    (if c.table.contains name.value then (c.resolve name).matchCall name got
      else c.resolve name).diagnostics = c.diagnostics ++ calleeProblems before name got := by
  have resolved := (keeps_resolve c name).same_names.tracks tracks
  rw [contains_iff tracks]
  cases known : before.firstDeclaration? name.value with
  | none =>
    have report := resolve_exact tracks name
    simpa [unresolved, calleeProblems, known] using report
  | some first =>
    have matched := match_call_exact resolved known got
    have quiet := resolve_exact tracks name
    simp only [unresolved, known, List.append_nil] at quiet
    rw [Option.isSome_some, if_pos rfl, matched, quiet]

/-- A call reports its callee first and then its arguments. -/
theorem call_exact (tracks : Tracks c before) (name : Located String)
    (args : List (Located String)) :
    (c.call name args).diagnostics = c.diagnostics ++ problemsAt before (.call name args) := by
  have same := (keeps_callee c name args.length).same_names
  rw [Checker.call, resolve_all_exact args (same.tracks tracks), callee_exact tracks]
  simp [problemsAt]

private theorem tracks_snoc {i : Item} (silent : ∀ name, i.declares? name = none)
    (tracks : Tracks c before) : Tracks c (before ++ [i]) where
  info name := by rw [first_declaration_snoc, silent, Option.or_none, tracks.info]
  declared name := by rw [first_declaration_snoc, silent, Option.or_none, tracks.declared]

/-- An item adds the problems it has with the items before, and leaves a state
that holds what those and it declare. -/
theorem step_exact (tracks : Tracks c before) (i : Item) :
    (c.step i).diagnostics = c.diagnostics ++ problemsAt before i ∧
      Tracks (c.step i) (before ++ [i]) := by
  cases i with
  | declaration name info => exact declare_exact tracks
  | reference name =>
    have same := (keeps_resolve c name).same_names
    exact ⟨resolve_exact tracks name, tracks_snoc (fun _ => rfl) (same.tracks tracks)⟩
  | call callee args =>
    have same := (keeps_call c callee args).same_names
    exact ⟨call_exact tracks callee args, tracks_snoc (fun _ => rfl) (same.tracks tracks)⟩

/-- A run adds the problems of all its items, each with the items before it. -/
theorem run_exact (items : Listing) (tracks : Tracks c before) :
    (c.run items).diagnostics = c.diagnostics ++ problemsAfter before items ∧
      Tracks (c.run items) (before ++ items) := by
  induction items generalizing c before with
  | nil => simpa [Checker.run, problemsAfter] using tracks
  | cons i items ih =>
    obtain ⟨reported, next⟩ := step_exact tracks i
    obtain ⟨rest, last⟩ := ih next
    simp only [Checker.run, List.foldl_cons] at rest last ⊢
    rw [rest, reported]
    exact ⟨by simp [problemsAfter], by simpa using last⟩

/-- A check reports what the rules find wrong with the listing: all of it,
nothing else, and in the order of the items. -/
theorem check_diagnostics_exact (items : Listing) :
    items.check.diagnostics = items.problems := by
  have run := (run_exact items tracks_nothing).left
  simpa [Listing.check, Report.ofChecker, Listing.problems] using run

end DeclListing.CheckDiagnostics
