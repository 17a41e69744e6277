import Mathlib.Data.Set.Function
import DeclListing.Proofs.CheckDiagnostics

/-! Names are opaque to a check: it looks at whether two of them are equal, and at
nothing else. So where other names stand in place of the names of a listing, and
different ones for different ones, the check goes the same way step by step, with
the new names in everything that it finds. -/
namespace DeclListing.Renaming
open CheckDiagnostics

variable {f : String → String} {names : Set String} {c d : Checker} {items : Listing}
  {name : Located String}

/-- A name with another one in its place, at the same token. -/
def located (f : String → String) (name : Located String) : Located String :=
  name.map f

/-- An item with other names. What it declares stays the same. -/
def item (f : String → String) : Item → Item
  | .declaration name info => .declaration (located f name) info
  | .reference name => .reference (located f name)
  | .call callee args => .call (located f callee) (args.map (located f))

/-- A problem with another name. -/
def problem (f : String → String) : Problem → Problem
  | .duplicate name first => .duplicate (f name) first
  | .undeclared name => .undeclared (f name)
  | .notCallable name type => .notCallable (f name) type
  | .wrongArgumentCount name expected got => .wrongArgumentCount (f name) expected got

/-- A diagnostic with another name, at the same token. -/
def diagnostic (f : String → String) (d : Diagnostic) : Diagnostic :=
  d.map (problem f)

/-- A usage of another name. -/
def usage (f : String → String) (u : Usage) : Usage :=
  { u with name := f u.name }

/-- An entry of another name. -/
def entry (f : String → String) (e : Entry) : Entry :=
  { e with name := f e.name }

/-- An event with another name. -/
def event (f : String → String) : Event → Event
  | .added name type => .added (f name) type
  | .refused name => .refused (f name)
  | .missed name => .missed (f name)
  | .diagnosed line p => .diagnosed line (problem f p)
  | e => e

/-- The names that occur in a listing: declared, referred to, called or passed. -/
def occurring (items : Listing) : Set String :=
  {name | name ∈ (items.flatMap Item.names).map Located.value}

/-- No other name of the set is replaced by the same one. -/
def Apart (f : String → String) (names : Set String) (name : String) : Prop :=
  ∀ other ∈ names, f other = f name → other = name

/-- A name of the set is apart from the others. -/
theorem apart_of_mem (injective : Set.InjOn f names) {name : String} (member : name ∈ names) :
    Apart f names name :=
  fun _ listed same => injective listed member same

/-- One check has found what another one has, with other names. Both know names of the
set only. -/
structure Follows (f : String → String) (names : Set String) (c d : Checker) : Prop where
  /-- The same is declared, in the same order. -/
  entries : d.table.entries = c.table.entries.map (entry f)
  /-- The names were used alike. -/
  usages : d.usages = c.usages.map (usage f)
  /-- The same problems were found. -/
  diagnostics : d.diagnostics = c.diagnostics.map (diagnostic f)
  /-- The same happened. -/
  events : d.events = c.events.map (event f)
  /-- The table holds names of the set. -/
  tabled : ∀ e ∈ c.table.entries, e.name ∈ names
  /-- So do the usages. -/
  used : ∀ u ∈ c.usages, u.name ∈ names

/-- What has a name is found under the other one. -/
private theorem find_renamed {α : Type} {key : α → String} {put : α → α} {members : List α}
    {name : String} (renames : ∀ a, key (put a) = f (key a))
    (apart : ∀ a ∈ members, f (key a) = f name → key a = name) :
    (members.map put).find? (key · == f name) = (members.find? (key · == name)).map put := by
  induction members with
  | nil => rfl
  | cons a members ih =>
    obtain ⟨first, others⟩ := List.forall_mem_cons.mp apart
    rw [List.map_cons]
    by_cases same : key a = name
    · rw [List.find?_cons_of_pos (by simp [renames, same]),
        List.find?_cons_of_pos (by simp [same]), Option.map_some]
    · have other : f (key a) ≠ f name := mt first same
      rw [List.find?_cons_of_neg (by simp [renames, other]),
        List.find?_cons_of_neg (by simp [same]), ih others]

theorem get_renamed (follows : Follows f names c d) {name : String} (apart : Apart f names name) :
    d.table.get? (f name) = (c.table.get? name).map (entry f) := by
  rw [SymbolTable.get?, follows.entries]
  exact find_renamed (fun _ => rfl) fun e listed => apart e.name (follows.tabled e listed)

theorem info_renamed (follows : Follows f names c d) {name : String} (apart : Apart f names name) :
    d.table.info? (f name) = c.table.info? name := by
  rw [SymbolTable.info?, get_renamed follows apart, Option.map_map]
  rfl

theorem contains_renamed (follows : Follows f names c d) {name : String}
    (apart : Apart f names name) : d.table.contains (f name) = c.table.contains name := by
  rw [SymbolTable.contains, get_renamed follows apart, Option.isSome_map]
  rfl

theorem usage_renamed (follows : Follows f names c d) {name : String}
    (apart : Apart f names name) : d.usage? (f name) = (c.usage? name).map (usage f) := by
  rw [Checker.usage?, follows.usages]
  exact find_renamed (fun _ => rfl) fun u listed => apart u.name (follows.used u listed)

theorem follows_nothing (f : String → String) (names : Set String) : Follows f names {} {} where
  entries := rfl
  usages := rfl
  diagnostics := rfl
  events := rfl
  tabled := by simp [SymbolTable.empty]
  used := by simp

theorem record_renamed (follows : Follows f names c d) (e : Event) :
    Follows f names (c.record e) (d.record (event f e)) :=
  { follows with events := by simp [Checker.record, follows.events] }

theorem report_renamed (follows : Follows f names c d) (token : Token) (p : Problem) :
    Follows f names (c.report token p) (d.report token (problem f p)) :=
  { follows with
    diagnostics := by simp [Checker.report, follows.diagnostics, diagnostic, Located.map]
    events := by simp [Checker.report, follows.events, event] }

theorem count_renamed (follows : Follows f names c d) {name : String}
    (apart : Apart f names name) : Follows f names (c.count name) (d.count (f name)) :=
  { follows with
    usages := by
      rw [Checker.count, Checker.count, follows.usages, List.map_map, List.map_map]
      apply List.map_congr_left
      intro u listed
      rw [Function.comp_apply, Function.comp_apply]
      by_cases same : u.name = name
      · simp [usage, same]
      · have other : f u.name ≠ f name := mt (apart u.name (follows.used u listed)) same
        simp [usage, same, other]
    used := by
      intro u listed
      obtain ⟨v, member, rfl⟩ := List.mem_map.mp listed
      have known := follows.used v member
      split
      · exact known
      · exact known }

theorem resolve_renamed (follows : Follows f names c d) (apart : Apart f names name.value) :
    Follows f names (c.resolve name) (d.resolve (located f name)) := by
  have same : d.table.contains (located f name).value = c.table.contains name.value :=
    contains_renamed follows apart
  rw [Checker.resolve, Checker.resolve, same]
  split
  · exact count_renamed follows apart
  · exact report_renamed follows name.token (.undeclared name.value)

theorem resolve_all_renamed (follows : Follows f names c d) {args : List (Located String)}
    (apart : ∀ name ∈ args, Apart f names name.value) :
    Follows f names (args.foldl Checker.resolve c)
      ((args.map (located f)).foldl Checker.resolve d) := by
  induction args generalizing c d with
  | nil => exact follows
  | cons name args ih =>
    obtain ⟨first, others⟩ := List.forall_mem_cons.mp apart
    exact ih (resolve_renamed follows first) others

theorem match_call_renamed (follows : Follows f names c d) (apart : Apart f names name.value)
    (got : Nat) :
    Follows f names (c.matchCall name got) (d.matchCall (located f name) got) := by
  have same : d.table.info? (located f name).value = c.table.info? name.value :=
    info_renamed follows apart
  rw [Checker.matchCall, Checker.matchCall, same]
  cases c.table.info? name.value with
  | none => exact record_renamed follows (.missed name.value)
  | some info =>
    dsimp only
    cases info.type with
    | function params result =>
      dsimp only
      split
      · exact follows
      · exact report_renamed follows name.token
          (.wrongArgumentCount name.value params.toNat got)
    | int | str | intOrStr | undefined =>
      exact report_renamed follows name.token (.notCallable name.value _)

theorem call_renamed (follows : Follows f names c d) (apart : Apart f names name.value)
    {args : List (Located String)} (passed : ∀ arg ∈ args, Apart f names arg.value) :
    Follows f names (c.call name args) (d.call (located f name) (args.map (located f))) := by
  have same : d.table.contains (located f name).value = c.table.contains name.value :=
    contains_renamed follows apart
  have resolved := resolve_renamed follows apart
  rw [Checker.call, Checker.call, same, List.length_map]
  split
  · exact resolve_all_renamed (match_call_renamed resolved apart args.length) passed
  · exact resolve_all_renamed resolved passed

/-- A name that is new is new under the other one, and a name that is declared already
has its first declaration at the same token. -/
theorem declare_renamed (follows : Follows f names c d) (injective : Set.InjOn f names)
    (member : name.value ∈ names) (info : SymbolInfo) :
    Follows f names (c.declare name info) (d.declare (located f name) info) := by
  have apart := apart_of_mem injective member
  have same : d.table.contains (located f name).value = c.table.contains name.value :=
    contains_renamed follows apart
  by_cases known : c.table.contains name.value = true
  · have first : ((d.usage? (f name.value)).map Usage.declaredAt).getD name.token =
        ((c.usage? name.value).map Usage.declaredAt).getD name.token := by
      rw [usage_renamed follows apart, Option.map_map]
      rfl
    rw [declare_taken known, declare_taken (same.trans known), ← first]
    exact report_renamed (record_renamed follows (.refused name.value)) name.token
      (.duplicate name.value (((d.usage? (f name.value)).map Usage.declaredAt).getD name.token))
  · have new := Bool.eq_false_iff.mpr known
    obtain ⟨_, added⟩ := declare_fresh info new
    have new' : d.table.contains (located f name).value = false := same.trans new
    obtain ⟨_, added'⟩ := declare_fresh info new'
    rw [added, added']
    constructor
    · simp [follows.entries, entry, located, Located.map]
    · simp [follows.usages, usage, located, Located.map]
    · exact follows.diagnostics
    · simp [follows.events, event, located, Located.map]
    · simpa [or_imp, forall_and, member] using follows.tabled
    · simpa [or_imp, forall_and, member] using follows.used

/-- A step goes the same way with other names. -/
theorem step_renamed (follows : Follows f names c d) (injective : Set.InjOn f names) {i : Item}
    (within : ∀ name ∈ i.names, name.value ∈ names) :
    Follows f names (c.step i) (d.step (item f i)) := by
  have apart : ∀ name ∈ i.names, Apart f names name.value :=
    fun name listed => apart_of_mem injective (within name listed)
  cases i with
  | declaration name info =>
    exact declare_renamed follows injective (within name List.mem_cons_self) info
  | reference name => exact resolve_renamed follows (apart name List.mem_cons_self)
  | call callee args =>
    obtain ⟨first, passed⟩ := List.forall_mem_cons.mp apart
    exact call_renamed follows first passed

theorem run_renamed (follows : Follows f names c d) (injective : Set.InjOn f names)
    (within : ∀ i ∈ items, ∀ name ∈ i.names, name.value ∈ names) :
    Follows f names (c.run items) (d.run (items.map (item f))) := by
  induction items generalizing c d with
  | nil => exact follows
  | cons i items ih =>
    obtain ⟨first, others⟩ := List.forall_mem_cons.mp within
    exact ih (step_renamed follows injective first) others

/-- Where a listing has other names, different ones for different ones, its check finds
the same with the other names: the same problems at the same tokens and in the same
order, the same names declared and used alike, and the same in the log. Whatever
is looked up in the table is answered as before, also for a name that does not
occur, as long as its replacement is not that of a name that does. -/
theorem check_renamed_exact (items : Listing) (f : String → String)
    (injective : Set.InjOn f (occurring items)) :
    let report := items.check
    let renamed := Listing.check (items.map (item f))
    renamed.diagnostics = report.diagnostics.map (diagnostic f) ∧
      renamed.usages = report.usages.map (usage f) ∧
      renamed.table.entries = report.table.entries.map (entry f) ∧
      renamed.events = report.events.map (event f) ∧
      ∀ name, name ∈ occurring items ∨ Apart f (occurring items) name →
        renamed.table.contains (f name) = report.table.contains name ∧
          renamed.table.info? (f name) = report.table.info? name ∧
          renamed.table.record (f name) = report.table.record name := by
  intro report renamed
  have within : ∀ i ∈ items, ∀ name ∈ i.names, name.value ∈ occurring items :=
    fun i listed name among => List.mem_map_of_mem (List.mem_flatMap.mpr ⟨i, listed, among⟩)
  have follows := run_renamed (follows_nothing f (occurring items)) injective within
  refine ⟨follows.diagnostics, follows.usages, follows.entries, ?_, fun name meant => ?_⟩
  · have sizes := congrArg List.length follows.entries
    have problems := congrArg List.length follows.diagnostics
    rw [List.length_map] at sizes problems
    simp [renamed, report, Listing.check, Report.ofChecker, follows.events, SymbolTable.size,
      sizes, problems, event]
  · have apart : Apart f (occurring items) name := meant.elim (apart_of_mem injective) id
    have info := info_renamed follows apart
    refine ⟨contains_renamed follows apart, info, ?_⟩
    have known : renamed.table.info? (f name) = report.table.info? name := info
    rw [SymbolTable.record, SymbolTable.record, known]

/-- A listing with a name that is empty, one that is a reserved word and one that is
neither, and a replacement that is injective on these three only. -/
theorem odd_names_replaced :
    ∃ (items : Listing) (f : String → String) (token : Token), f "y" = f "z" ∧
      Set.InjOn f (occurring items) ∧
      (Listing.check (items.map (item f))).diagnostics =
        [⟨.duplicate "é" token, token⟩, ⟨.undeclared "", token⟩, ⟨.notCallable "é" .str, token⟩,
          ⟨.undeclared "int", token⟩] ∧
      (Listing.check (items.map (item f))).usages = [⟨"é", token, 1⟩] ∧
      (Listing.check (items.map (item f))).table.info? "é" = some { type := .str } ∧
      (Listing.check (items.map (item f))).table.contains "" = false := by
  let token : Token := ⟨.identifier "x", ⟨4, 5⟩, 1⟩
  let items : Listing := [.declaration ⟨"", token⟩ { type := .str },
    .declaration ⟨"", token⟩ {}, .reference ⟨"é", token⟩, .call ⟨"", token⟩ [⟨"int", token⟩]]
  let f : String → String := fun name =>
    if name = "" then "é" else if name = "int" then "int" else ""
  have injective : Set.InjOn f (occurring items) := by
    have pairs : ∀ a ∈ (items.flatMap Item.names).map Located.value,
        ∀ b ∈ (items.flatMap Item.names).map Located.value, f a = f b → a = b := by decide
    exact fun a first b second => pairs a first b second
  have empty : "" ∈ (items.flatMap Item.names).map Located.value := by decide
  have word : "é" ∈ (items.flatMap Item.names).map Located.value := by decide
  obtain ⟨diagnostics, usages, -, -, lookups⟩ := check_renamed_exact items f injective
  obtain ⟨-, declared, -⟩ := lookups "" (.inl empty)
  obtain ⟨absent, -, -⟩ := lookups "é" (.inl word)
  refine ⟨items, f, token, rfl, injective, ?_, ?_, ?_, ?_⟩
  · rw [diagnostics]
    decide
  · rw [usages]
    decide
  · exact declared.trans (by decide)
  · exact absent.trans (by decide)

end DeclListing.Renaming
