import DeclListing.Proofs.ReportContents

/-! A listing with its declarations in front. Declarations look at earlier declarations
only, so they fare the same there. A reference behind all of them knows every name
that is declared anywhere: what it missed before is missed no longer, and what it
knew it still knows in the same way. So the order of a listing matters to its check
by the uses before a declaration and by nothing else. -/
namespace DeclListing.DeclarationsFirst
open CheckDiagnostics UsageAccounts NameConservation ReportContents

variable {before other items : Listing} {i : Item}

/-- Whether an item is a declaration. -/
def isDeclaration : Item → Bool
  | .declaration _ _ => true
  | _ => false

/-- The listing with its declarations in front. They keep their order, and so do the
other items behind them. -/
def hoisted (items : Listing) : Listing :=
  items.filter isDeclaration ++ items.filter fun i => !isDeclaration i

/-- Whether a problem is a call that does not fit what is declared of its callee. -/
def isMiscall (d : Diagnostic) : Bool :=
  match d.value with
  | .notCallable _ _ | .wrongArgumentCount _ _ _ => true
  | _ => false

theorem declares_nothing (plain : isDeclaration i = false) (name : String) :
    i.declares? name = none := by
  cases i with
  | declaration => cases plain
  | reference | call => rfl

private theorem all_plain (items : Listing) :
    ∀ i ∈ items.filter fun i => !isDeclaration i, isDeclaration i = false := by
  intro i listed
  simpa using List.of_mem_filter listed

/-- Items that declare nothing change no first declaration. -/
theorem first_declaration_plain (plain : ∀ i ∈ items, isDeclaration i = false)
    (before : Listing) (name : String) :
    Listing.firstDeclaration? (before ++ items) name = before.firstDeclaration? name := by
  have none : items.firstDeclaration? name = none := by
    apply List.findSome?_eq_none_iff.mpr
    intro i listed
    exact declares_nothing (plain i listed) name
  rw [first_declaration_append, none, Option.or_none]

/-- Nor do they declare a name. -/
theorem declared_names_plain (plain : ∀ i ∈ items, isDeclaration i = false) (before : Listing) :
    Listing.declaredNames (before ++ items) = before.declaredNames := by
  induction items generalizing before with
  | nil => rw [List.append_nil]
  | cons i items ih =>
    obtain ⟨first, others⟩ := List.forall_mem_cons.mp plain
    have split : before ++ i :: items = (before ++ [i]) ++ items := by simp
    rw [split, ih others, declared_names_silent (declares_nothing first)]

theorem first_declaration_filter (items : Listing) (name : String) :
    Listing.firstDeclaration? (items.filter isDeclaration) name = items.firstDeclaration? name := by
  induction items with
  | nil => rfl
  | cons i items ih =>
    cases i with
    | declaration other info =>
      have kept := first_declaration_append [.declaration other info]
      rw [List.filter_cons_of_pos rfl]
      exact (kept _ name).trans ((congrArg (Option.or _) ih).trans (kept items name).symm)
    | reference | call => exact ih

theorem declared_names_filter (items : Listing) :
    Listing.declaredNames (items.filter isDeclaration) = items.declaredNames := by
  induction items with
  | nil => rfl
  | cons i items ih =>
    cases i with
    | declaration name info =>
      rw [List.filter_cons_of_pos rfl, Listing.declaredNames, Listing.declaredNames, ih]
    | reference | call => exact ih

/-- The first declarations are the same in front. -/
theorem first_declaration_hoisted (items : Listing) (name : String) :
    (hoisted items).firstDeclaration? name = items.firstDeclaration? name := by
  rw [hoisted, first_declaration_plain (all_plain items), first_declaration_filter]

theorem declared_names_hoisted (items : Listing) :
    (hoisted items).declaredNames = items.declaredNames := by
  rw [hoisted, declared_names_plain (all_plain items), declared_names_filter]

/-- Items other than declarations keep their references. -/
private theorem over_plain {α : Type} {each : Item → List α}
    (quiet : ∀ name info, each (.declaration name info) = []) (items : Listing) :
    (items.filter fun i => !isDeclaration i).flatMap each = items.flatMap each := by
  induction items with
  | nil => rfl
  | cons i items ih =>
    cases i with
    | declaration name info => simpa [isDeclaration, quiet] using ih
    | reference | call => simpa [isDeclaration] using ih

theorem references_hoisted (items : Listing) :
    (hoisted items).flatMap Item.references = items.flatMap Item.references := by
  have none : (items.filter isDeclaration).flatMap Item.references = [] := by
    apply List.flatMap_eq_nil_iff.mpr
    intro i listed
    have declares := List.of_mem_filter listed
    cases i with
    | declaration => rfl
    | reference | call => cases declares
  rw [hoisted, List.flatMap_append, none, over_plain (fun _ _ => rfl), List.nil_append]

private theorem duplicates_at (before : Listing) (i : Item) :
    (problemsAt before i).filter isDuplicate =
      if isDeclaration i then problemsAt before i else [] := by
  have none (names : List (Located String)) :
      (names.flatMap (unresolved before)).filter isDuplicate = [] :=
    unresolved_passed_over (fun _ => rfl) before names
  cases i with
  | declaration name info =>
    rw [problemsAt]
    split <;> rfl
  | reference name => simpa [problemsAt, isDeclaration] using none [name]
  | call callee args =>
    rw [problemsAt, List.filter_append, none, List.append_nil]
    unfold calleeProblems
    split
    · rfl
    · split
      · split <;> rfl
      · rfl

/-- Declarations alone have the problems that they have among other items: those of
repeated declarations. -/
theorem problems_of_declarations (items : Listing)
    (same : ∀ name, before.firstDeclaration? name = other.firstDeclaration? name) :
    problemsAfter other (items.filter isDeclaration) =
      (problemsAfter before items).filter isDuplicate := by
  induction items generalizing before other with
  | nil => rfl
  | cons i items ih =>
    rw [problemsAfter, List.filter_append, duplicates_at]
    by_cases declares : isDeclaration i = true
    · have next : ∀ name, Listing.firstDeclaration? (before ++ [i]) name =
          Listing.firstDeclaration? (other ++ [i]) name := by
        intro name
        rw [first_declaration_snoc, first_declaration_snoc, same]
      rw [if_pos declares, List.filter_cons_of_pos declares, problemsAfter, ← ih next,
        problems_at_congr same]
    · have plain : isDeclaration i = false := Bool.eq_false_iff.mpr declares
      have next : ∀ name, Listing.firstDeclaration? (before ++ [i]) name =
          other.firstDeclaration? name := by
        intro name
        rw [first_declaration_snoc, declares_nothing plain, Option.or_none, same]
      rw [if_neg declares, List.filter_cons_of_neg declares, List.nil_append, ih next]

/-- Items that declare nothing all see the same declarations. -/
theorem problems_of_references (plain : ∀ i ∈ items, isDeclaration i = false)
    (same : ∀ name, before.firstDeclaration? name = other.firstDeclaration? name) :
    problemsAfter before items = items.flatMap (problemsAt other) := by
  induction items generalizing before with
  | nil => rfl
  | cons i items ih =>
    obtain ⟨first, others⟩ := List.forall_mem_cons.mp plain
    have next : ∀ name, Listing.firstDeclaration? (before ++ [i]) name =
        other.firstDeclaration? name := by
      intro name
      rw [first_declaration_snoc, declares_nothing first, Option.or_none, same]
    rw [problemsAfter, List.flatMap_cons, ih others next, problems_at_congr same]

/-- With the declarations in front, the repeated ones are reported first, and then
what is wrong with the other items given all declarations. -/
theorem problems_hoisted (items : Listing) :
    (hoisted items).problems = items.problems.filter isDuplicate ++
      (items.filter fun i => !isDeclaration i).flatMap (problemsAt items) := by
  rw [hoisted, Listing.problems, problems_after_append, Listing.problems,
    problems_of_declarations items fun _ => rfl]
  congr 1
  exact problems_of_references (all_plain items) (first_declaration_filter items)

/-- An item reports a name as undeclared in two places if it is declared in neither. -/
private theorem unresolved_everywhere {front back : Listing} (name : Located String) :
    (unresolved front name).filter
        (fun d => decide (d.value.name ∉ Listing.declaredNames (front ++ back))) =
      unresolved (front ++ back) name := by
  have known := mem_declared_names (front ++ back) name.value
  have split := first_declaration_append front back name.value
  unfold unresolved
  cases here : front.firstDeclaration? name.value with
  | some first =>
    rw [here, Option.some_or] at split
    rw [split]
    rfl
  | none =>
    cases there : Listing.firstDeclaration? (front ++ back) name.value with
    | some first =>
      rw [there, Option.isSome_some] at known
      simp [Problem.name, known]
    | none =>
      rw [there, Option.isSome_none] at known
      simp [Problem.name, known]

/-- A call that does not fit a declaration before it does not fit it later either. -/
private theorem miscalls_kept {front back : Listing} (i : Item) :
    ((problemsAt front i).filter isMiscall).Sublist
      ((problemsAt (front ++ back) i).filter isMiscall) := by
  have none (before : Listing) (names : List (Located String)) :
      (names.flatMap (unresolved before)).filter isMiscall = [] :=
    unresolved_passed_over (fun _ => rfl) before names
  cases i with
  | declaration name info =>
    rw [problemsAt]
    split <;> exact List.nil_sublist _
  | reference name =>
    have quiet : (problemsAt front (.reference name)).filter isMiscall = [] := by
      simpa [problemsAt] using none front [name]
    rw [quiet]
    exact List.nil_sublist _
  | call callee args =>
    rw [problemsAt, problemsAt, List.filter_append, List.filter_append, none, none,
      List.append_nil, List.append_nil]
    cases known : front.firstDeclaration? callee.value with
    | none =>
      rw [calleeProblems, known]
      exact List.nil_sublist _
    | some first =>
      have kept : Listing.firstDeclaration? (front ++ back) callee.value = some first := by
        rw [first_declaration_append, known, Option.some_or]
      rw [calleeProblems, calleeProblems, known, kept]

/-- The names reported as undeclared behind all declarations are those reported
before that are declared nowhere. -/
theorem undeclared_hoisted (items : Listing) :
    (hoisted items).problems.filter isUndeclared =
      (items.problems.filter isUndeclared).filter
        fun d => decide (d.value.name ∉ items.declaredNames) := by
  have duplicates : (items.problems.filter isDuplicate).filter isUndeclared = [] := by
    apply List.filter_eq_nil_iff.mpr
    intro d listed
    have duplicate := List.of_mem_filter listed
    cases value : d.value <;> simp_all [isDuplicate, isUndeclared]
  have behind : (items.flatMap fun i => (problemsAt items i).filter isUndeclared) =
      items.flatMap fun i => i.references.flatMap (unresolved items) :=
    congrArg items.flatMap (funext (undeclared_at items))
  rw [problems_hoisted, List.filter_append, duplicates, List.nil_append, List.filter_flatMap,
    over_plain (fun name info => undeclared_at items (.declaration name info)), behind]
  symm
  refine problems_itemwise
    (r := fun a b => (a.filter isUndeclared).filter
      (fun d => decide (d.value.name ∉ items.declaredNames)) = b) rfl ?_ ?_
  · rintro a _ c _ rfl rfl
    rw [List.filter_append, List.filter_append]
  · rintro front i back rfl
    rw [undeclared_at, List.filter_flatMap]
    exact congrArg i.references.flatMap (funext unresolved_everywhere)

/-- A call that does not fit a declaration before it is reported behind all
declarations too. -/
theorem miscalls_hoisted (items : Listing) :
    (items.problems.filter isMiscall).Sublist ((hoisted items).problems.filter isMiscall) := by
  have behind : ((items.filter fun i => !isDeclaration i).flatMap (problemsAt items)).filter
      isMiscall = items.flatMap fun i => (problemsAt items i).filter isMiscall := by
    rw [List.filter_flatMap, over_plain]
    intro name info
    rw [problemsAt]
    split <;> rfl
  rw [problems_hoisted, List.filter_append, behind]
  refine List.Sublist.trans ?_ (List.sublist_append_right _ _)
  refine problems_itemwise (r := fun a b => (a.filter isMiscall).Sublist b) (.refl _) ?_ ?_
  · intro a b c d first second
    rw [List.filter_append]
    exact first.append second
  · rintro front i back rfl
    exact miscalls_kept i

theorem duplicates_hoisted (items : Listing) :
    (hoisted items).problems.filter isDuplicate = items.problems.filter isDuplicate := by
  have none : ((items.filter fun i => !isDeclaration i).flatMap (problemsAt items)).filter
      isDuplicate = [] := by
    rw [List.filter_flatMap]
    apply List.flatMap_eq_nil_iff.mpr
    intro i listed
    rw [duplicates_at, all_plain items i listed]
    rfl
  rw [problems_hoisted, List.filter_append, none, List.append_nil, List.filter_filter]
  simp

/-- A name that is declared somewhere is missed nowhere behind all declarations. -/
theorem missed_hoisted {name : String} (declared : name ∈ items.declaredNames) :
    (hoisted items).problems.countP (misses name) = 0 := by
  rw [count_undeclared, undeclared_hoisted]
  apply List.countP_eq_zero.mpr
  intro d listed missed
  have undeclared := List.of_mem_filter listed
  simp only [misses, decide_eq_true_eq] at missed
  simp [missed, Problem.name, declared] at undeclared

/-- Behind all declarations a name is used wherever it is referred to. -/
theorem uses_hoisted {name : String} (declared : name ∈ items.declaredNames) :
    (hoisted items).usesOf name = items.usesOf name + items.problems.countP (misses name) := by
  have balance := references_balance (hoisted items) name
  rw [missed_hoisted declared, references_hoisted] at balance
  rw [references_balance]
  exact balance

/-- Moving the declarations of a listing to the front changes nothing about them: the
table and the usages have the same names in the same order with the same first
declarations, and the same declarations are reported as repeated. Of the names
reported as undeclared, those stay that are declared nowhere, and every other report
becomes a use. The calls that did not fit are reported again, as often as before and
in their order. -/
theorem declarations_first_exact (items : Listing) :
    (hoisted items).check.table = items.check.table ∧
      (hoisted items).check.usages = items.check.usages.map (fun u =>
        { u with uses := u.uses + items.check.diagnostics.countP (misses u.name) }) ∧
      (hoisted items).check.diagnostics.filter isDuplicate =
        items.check.diagnostics.filter isDuplicate ∧
      (hoisted items).check.diagnostics.filter isUndeclared =
        (items.check.diagnostics.filter isUndeclared).filter
          (fun d => decide (d.value.name ∉ items.declaredNames)) ∧
      (items.check.diagnostics.filter isMiscall).Sublist
        ((hoisted items).check.diagnostics.filter isMiscall) := by
  simp only [diagnostics_of_listing]
  refine ⟨table_of_entries ?_, ?_, duplicates_hoisted items, undeclared_hoisted items,
    miscalls_hoisted items⟩
  · have same : entryOf? (hoisted items) = entryOf? items := by
      funext name
      rw [entryOf?, entryOf?, first_declaration_hoisted]
    rw [entries_exact, entries_exact, declared_names_hoisted, same]
  · rw [usages_exact, usages_exact, declared_names_hoisted, List.map_filterMap]
    apply List.filterMap_congr
    intro name declared
    rw [usageOf?, usageOf?, first_declaration_hoisted, uses_hoisted declared, Option.map_map]
    rfl

end DeclListing.DeclarationsFirst
