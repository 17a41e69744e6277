import Mathlib.Data.List.Induction
import DeclListing.Proofs.NameConservation

/-! What a report holds, said of its listing alone. The entries of the table and the
usages are those of the declared names, in the order of their first declarations.
The diagnostics are the problems item by item, and what is wrong with an item
depends on nothing but the first declarations before it. A name that is referred to
is used there or undeclared, so the two counts make up its references. -/
namespace DeclListing.ReportContents
open CheckDiagnostics UsageAccounts NameConservation

variable {before other items : Listing}

/-- What is declared first is declared in the first part, or else in the second. -/
theorem first_declaration_append (first second : Listing) (name : String) :
    Listing.firstDeclaration? (first ++ second) name =
      (first.firstDeclaration? name).or (second.firstDeclaration? name) :=
  List.findSome?_append

/-- Behind the names of the first part are those of the second that it does not have. -/
theorem declared_names_append (first second : Listing) :
    Listing.declaredNames (first ++ second) =
      first.declaredNames ++ second.declaredNames.filter (· ∉ first.declaredNames) := by
  induction first with
  | nil => simp [Listing.declaredNames]
  | cons i first ih =>
    cases i with
    | declaration name info =>
      rw [List.cons_append, Listing.declaredNames, Listing.declaredNames, ih, List.filter_append,
        List.filter_filter, List.cons_append]
      congr 2
      apply List.filter_congr
      intro other _
      by_cases same : other = name.value <;> simp [same]
    | reference | call => exact ih

/-- References behind the first part use the names that it declares, and no other name. -/
theorem uses_append (first second : Listing) (name : String) :
    Listing.usesOf name (first ++ second) =
      if (first.firstDeclaration? name).isSome then
        first.usesOf name + ((second.flatMap Item.references).map Located.value).count name
      else second.usesOf name := by
  induction first with
  | nil => rfl
  | cons i first ih =>
    rw [first_declaration_cons, List.cons_append, Listing.usesOf, Listing.usesOf]
    cases i.declares? name with
    | none => exact ih
    | some found => simp

/-- The entry that a listing gives to a name. -/
def entryOf? (items : Listing) (name : String) : Option Entry :=
  (items.firstDeclaration? name).map fun first => { name, info := first.value }

/-- The usage that a listing gives to a name. -/
def usageOf? (items : Listing) (name : String) : Option Usage :=
  (items.firstDeclaration? name).map fun first =>
    { name, declaredAt := first.token, uses := items.usesOf name }

private theorem told_by_keys {α : Type} {key : α → String} {told : String → Option α}
    {members : List α} (each : ∀ a ∈ members, told (key a) = some a) :
    (members.map key).filterMap told = members := by
  rw [List.filterMap_map]
  exact (List.filterMap_congr each).trans List.filterMap_some

/-- The table has one entry for each declared name, in order, with what the first
declaration says. -/
theorem entries_exact (items : Listing) :
    items.check.table.entries = items.declaredNames.filterMap (entryOf? items) := by
  have tracks := (run_exact items tracks_nothing).2
  have names : items.check.table.names = items.declaredNames :=
    (run_counts items counts_nothing).tabled
  rw [← names]
  refine (told_by_keys fun e listed => ?_).symm
  have known : items.check.table.get? e.name = some e := SymbolTable.get?_of_mem listed
  have info : items.check.table.info? e.name =
      (items.firstDeclaration? e.name).map Located.value := tracks.info e.name
  rw [SymbolTable.info?, known] at info
  obtain ⟨first, found, same⟩ := Option.map_eq_some_iff.mp info.symm
  rw [entryOf?, found, Option.map_some, same]

/-- A name is looked up as the entry that the listing gives to it. -/
theorem entry_found (items : Listing) (name : String) :
    items.check.table.get? name = entryOf? items name := by
  have info : items.check.table.info? name =
      (items.firstDeclaration? name).map Located.value :=
    (run_exact items tracks_nothing).2.info name
  rw [SymbolTable.info?] at info
  cases found : items.check.table.get? name with
  | none =>
    rw [found] at info
    rw [entryOf?, Option.map_eq_none_iff.mp info.symm]
    rfl
  | some e =>
    have listed : items.check.table.entries.find? (·.name == name) = some e := found
    have named : e.name = name := by simpa using List.find?_some listed
    rw [found] at info
    obtain ⟨first, declared, same⟩ := Option.map_eq_some_iff.mp info.symm
    rw [entryOf?, declared, Option.map_some, same, ← named]

/-- The table and the usages of a report give account of its listing. -/
theorem told_of_listing (items : Listing) :
    Accounts items.check.table items.check.usages items :=
  accounts (run_exact items tracks_nothing).2 (run_counts items counts_nothing)

/-- There is one usage for each declared name, in order, with the token of the first
declaration and the references behind it. -/
theorem usages_exact (items : Listing) :
    items.check.usages = items.declaredNames.filterMap (usageOf? items) := by
  have told := told_of_listing items
  rw [← told.keyed]
  refine (told_by_keys fun u listed => ?_).symm
  obtain ⟨first, found, -, token, uses⟩ := told.entries u listed
  rw [usageOf?, found, Option.map_some, ← token, ← uses]

/-- Tables are the same when their entries are. -/
theorem table_of_entries {t u : SymbolTable} (same : t.entries = u.entries) : t = u := by
  cases t
  cases u
  cases same
  rfl

/-- The diagnostics of a check are the problems of its listing. -/
theorem diagnostics_of_listing (items : Listing) :
    items.check.diagnostics = items.problems :=
  (run_exact items tracks_nothing).1

theorem problems_after_append (before first second : Listing) :
    problemsAfter before (first ++ second) =
      problemsAfter before first ++ problemsAfter (before ++ first) second := by
  induction first generalizing before with
  | nil => simp [problemsAfter]
  | cons i first ih => simp [problemsAfter, ih, List.append_assoc]

/-- The problems of the first part come first. -/
theorem problems_append (first second : Listing) :
    Listing.problems (first ++ second) = first.problems ++ problemsAfter first second :=
  problems_after_append [] first second

/-- What is wrong with an item depends on what is declared of its names before it, and
on nothing else. -/
theorem problems_at_names {i : Item} (same : ∀ name ∈ i.names,
    before.firstDeclaration? name.value = other.firstDeclaration? name.value) :
    problemsAt before i = problemsAt other i := by
  cases i with
  | declaration name info => rw [problemsAt, problemsAt, same name (by simp [Item.names])]
  | reference name =>
    rw [problemsAt, problemsAt, unresolved, unresolved, same name (by simp [Item.names])]
  | call callee args =>
    have passed : args.flatMap (unresolved before) = args.flatMap (unresolved other) := by
      apply List.flatMap_congr
      intro arg listed
      rw [unresolved, unresolved, same arg (by simp [Item.names, listed])]
    rw [problemsAt, problemsAt, passed, calleeProblems, calleeProblems,
      same callee (by simp [Item.names])]

theorem problems_at_congr
    (same : ∀ name, before.firstDeclaration? name = other.firstDeclaration? name) (i : Item) :
    problemsAt before i = problemsAt other i :=
  problems_at_names fun name _ => same name.value

/-- So it is with the items of a listing behind others. -/
theorem problems_after_names (same : ∀ i ∈ items, ∀ name ∈ i.names,
    before.firstDeclaration? name.value = other.firstDeclaration? name.value) :
    problemsAfter before items = problemsAfter other items := by
  induction items generalizing before other with
  | nil => rfl
  | cons i items ih =>
    obtain ⟨first, others⟩ := List.forall_mem_cons.mp same
    have next : ∀ j ∈ items, ∀ name ∈ j.names,
        Listing.firstDeclaration? (before ++ [i]) name.value =
          Listing.firstDeclaration? (other ++ [i]) name.value := by
      intro j listed name written
      rw [first_declaration_snoc, first_declaration_snoc, others j listed name written]
    rw [problemsAfter, problemsAfter, problems_at_names first, ih next]

/-- What holds between the problems of each item and something about that item holds
between all problems of a listing and all of that, if it goes over to appended lists. -/
theorem problems_itemwise {r : List Diagnostic → List Diagnostic → Prop}
    {each : Item → List Diagnostic} (nothing : r [] [])
    (append : ∀ a b c d, r a b → r c d → r (a ++ c) (b ++ d))
    (item : ∀ front i back, items = front ++ i :: back → r (problemsAt front i) (each i)) :
    r items.problems (items.flatMap each) := by
  have behind : ∀ front back, items = front ++ back →
      r (problemsAfter front back) (back.flatMap each) := by
    intro front back split
    induction back generalizing front with
    | nil => exact nothing
    | cons i back ih =>
      rw [problemsAfter, List.flatMap_cons]
      refine append _ _ _ _ (item front i back split) (ih (front ++ [i]) ?_)
      rw [split, List.append_assoc]
      rfl
  exact behind [] items rfl

/-- What is reported of names that are looked up is that they are not declared. -/
theorem unresolved_all {d : Diagnostic} {names : List (Located String)}
    (listed : d ∈ names.flatMap (unresolved before)) :
    ∃ name ∈ names, d = ⟨.undeclared name.value, name.token⟩ := by
  obtain ⟨name, member, wrong⟩ := List.mem_flatMap.mp listed
  unfold unresolved at wrong
  split at wrong
  · exact ⟨name, member, List.mem_singleton.mp wrong⟩
  · cases wrong

/-- Where only other problems are looked for, none of them is found. -/
theorem unresolved_passed_over {keep : Diagnostic → Bool}
    (quiet : ∀ name : Located String, keep ⟨.undeclared name.value, name.token⟩ = false)
    (before : Listing) (names : List (Located String)) :
    (names.flatMap (unresolved before)).filter keep = [] := by
  apply List.filter_eq_nil_iff.mpr
  intro d listed
  obtain ⟨name, -, rfl⟩ := unresolved_all listed
  simp [quiet]

/-- The names that an item reports as undeclared are those of its references that are
not declared before, in order. -/
theorem undeclared_at (before : Listing) (i : Item) :
    (problemsAt before i).filter isUndeclared = i.references.flatMap (unresolved before) := by
  have all (names : List (Located String)) :
      (names.flatMap (unresolved before)).filter isUndeclared =
        names.flatMap (unresolved before) := by
    apply List.filter_eq_self.mpr
    intro d listed
    obtain ⟨name, -, rfl⟩ := unresolved_all listed
    rfl
  cases i with
  | declaration name info =>
    rw [problemsAt]
    split <;> rfl
  | reference name =>
    rw [problemsAt, Item.references, List.flatMap_singleton]
    simpa using all [name]
  | call callee args =>
    rw [problemsAt, List.filter_append, all, Item.references, List.flatMap_cons]
    congr 1
    unfold calleeProblems unresolved
    cases before.firstDeclaration? callee.value with
    | none => rfl
    | some first =>
      dsimp only
      split
      · split <;> rfl
      · rfl

/-- Whether a problem is this name, not declared. -/
def misses (name : String) (d : Diagnostic) : Bool :=
  d.value = .undeclared name

private theorem misses_undeclared {d : Diagnostic} (missed : misses name d = true) :
    isUndeclared d = true := by
  simp only [misses, decide_eq_true_eq] at missed
  simp [isUndeclared, missed]

/-- The undeclared uses of a name are among the undeclared names. -/
theorem count_undeclared (name : String) (diagnostics : List Diagnostic) :
    diagnostics.countP (misses name) = (diagnostics.filter isUndeclared).countP (misses name) := by
  rw [List.countP_filter]
  apply List.countP_congr
  intro d _
  simpa using misses_undeclared

/-- Of the references of an item to a name that is not declared before, all are
reported, and of those to another none. -/
theorem missed_at (before : Listing) (i : Item) (name : String) :
    (problemsAt before i).countP (misses name) =
      if (before.firstDeclaration? name).isSome then 0
      else (i.references.map Located.value).count name := by
  rw [count_undeclared, undeclared_at]
  induction i.references with
  | nil => simp
  | cons other names ih =>
    rw [List.flatMap_cons, List.countP_append, ih, List.map_cons, List.count_cons]
    by_cases same : other.value = name
    · rw [unresolved, same]
      cases before.firstDeclaration? name <;> simp [misses, Nat.add_comm]
    · have quiet : (unresolved before other).countP (misses name) = 0 := by
        rw [unresolved]
        split <;> simp [misses, same]
      simp [quiet, same]

theorem problems_snoc (items : Listing) (i : Item) :
    Listing.problems (items ++ [i]) = items.problems ++ problemsAt items i := by
  rw [problems_append, problemsAfter, problemsAfter, List.append_nil]

/-- Every reference to a name is a use of it or reports it as undeclared. -/
theorem references_balance (items : Listing) (name : String) :
    items.usesOf name + items.problems.countP (misses name) =
      ((items.flatMap Item.references).map Located.value).count name := by
  induction items using List.reverseRecOn with
  | nil => rfl
  | append_singleton items i ih =>
    rw [uses_snoc, problems_snoc, List.countP_append, missed_at, List.flatMap_append,
      List.map_append, List.count_append, ← ih, List.flatMap_singleton]
    split <;> omega

end DeclListing.ReportContents
