import DeclListing.Proofs.DeclarationsFirst

/-! References in another order. Between two declarations all references see the same
names, so each has the problems that it has in any other place there, and counts for the
same name. What is declared, in which order and where, does not depend on references at
all, also not on those that fail. -/
namespace DeclListing.ReorderedReferences
open CheckDiagnostics UsageAccounts NameConservation ReportContents DeclarationsFirst

variable {a b r s : Listing} {i : Item}

/-- An item that is no declaration declares nothing and takes no declaration away,
whatever is wrong with it. -/
theorem keeps_step (plain : isDeclaration i = false) (c : Checker) : Keeps c (c.step i) := by
  cases i with
  | declaration => cases plain
  | reference name => exact keeps_resolve c name
  | call callee args => exact keeps_call c callee args

/-- References between two parts change no first declaration. -/
theorem first_declaration_between (plain : ∀ i ∈ r, isDeclaration i = false) (name : String) :
    Listing.firstDeclaration? (a ++ r ++ b) name = Listing.firstDeclaration? (a ++ b) name := by
  rw [first_declaration_append, first_declaration_plain plain, ← first_declaration_append]

theorem declared_names_between (plain : ∀ i ∈ r, isDeclaration i = false) :
    Listing.declaredNames (a ++ r ++ b) = Listing.declaredNames (a ++ b) := by
  rw [declared_names_append, declared_names_plain plain, ← declared_names_append]

/-- Behind the first part, references are used in any order by the names it declares. -/
theorem uses_reordered (plain : ∀ i ∈ r, isDeclaration i = false) (perm : s.Perm r)
    (name : String) : Listing.usesOf name (a ++ s ++ b) = Listing.usesOf name (a ++ r ++ b) := by
  have also : ∀ i ∈ s, isDeclaration i = false := fun i listed => plain i (perm.mem_iff.mp listed)
  have same : ((s.flatMap Item.references).map Located.value).count name =
      ((r.flatMap Item.references).map Located.value).count name :=
    ((perm.flatMap_right Item.references).map Located.value).count_eq name
  rw [uses_append (a ++ s), uses_append (a ++ r), first_declaration_plain also,
    first_declaration_plain plain, uses_append a s, uses_append a r]
  split
  · rw [same]
  · rfl

/-- What is wrong with references between two parts is what is wrong with each of them
behind the first, and the second part is no worse for them. -/
theorem problems_between (plain : ∀ i ∈ r, isDeclaration i = false) :
    Listing.problems (a ++ r ++ b) =
      a.problems ++ (r.flatMap (problemsAt a) ++ problemsAfter a b) := by
  have rest : problemsAfter (a ++ r) b = problemsAfter a b :=
    problems_after_names fun _ _ name _ => first_declaration_plain plain a name.value
  rw [List.append_assoc, problems_append, problems_after_append,
    problems_of_references plain fun _ => rfl, rest]

/-- References between two parts of a listing can be put in any order: the table and the
usages are the same, and so are the diagnostics of both parts; those of the references
are the same in another order. No step of a reference, from whatever state, changes the
table, the order of the declared names or where they were declared. -/
theorem references_reordered_exact (plain : ∀ i ∈ r, isDeclaration i = false) (perm : s.Perm r) :
    (a ++ s ++ b).check.table = (a ++ r ++ b).check.table ∧
      (a ++ s ++ b).check.usages = (a ++ r ++ b).check.usages ∧
      (∃ block block' rest, block'.Perm block ∧
        (a ++ r).check.diagnostics = a.check.diagnostics ++ block ∧
        (a ++ s).check.diagnostics = a.check.diagnostics ++ block' ∧
        (a ++ b).check.diagnostics = a.check.diagnostics ++ rest ∧
        (a ++ r ++ b).check.diagnostics = a.check.diagnostics ++ (block ++ rest) ∧
        (a ++ s ++ b).check.diagnostics = a.check.diagnostics ++ (block' ++ rest)) ∧
      ∀ (c : Checker), ∀ i ∈ r, (c.step i).table = c.table ∧
        (c.step i).usages.map declared = c.usages.map declared := by
  have also : ∀ i ∈ s, isDeclaration i = false := fun i listed => plain i (perm.mem_iff.mp listed)
  have names : Listing.declaredNames (a ++ s ++ b) = Listing.declaredNames (a ++ r ++ b) := by
    rw [declared_names_between also, declared_names_between plain]
  have first (name : String) : Listing.firstDeclaration? (a ++ s ++ b) name =
      Listing.firstDeclaration? (a ++ r ++ b) name := by
    rw [first_declaration_between also, first_declaration_between plain]
  refine ⟨table_of_entries ?_, ?_, ?_, fun c i listed => keeps_step (plain i listed) c⟩
  · rw [entries_exact, entries_exact, names]
    exact congrArg (List.filterMap · _) (funext fun name => by rw [entryOf?, entryOf?, first])
  · rw [usages_exact, usages_exact, names]
    refine congrArg (List.filterMap · _) (funext fun name => ?_)
    rw [usageOf?, usageOf?, first, uses_reordered plain perm]
  · refine ⟨r.flatMap (problemsAt a), s.flatMap (problemsAt a), problemsAfter a b,
      perm.flatMap_right _, ?_⟩
    simp only [diagnostics_of_listing]
    have alone {items : Listing} (plain : ∀ i ∈ items, isDeclaration i = false) :
        Listing.problems (a ++ items) = a.problems ++ items.flatMap (problemsAt a) := by
      rw [problems_append, problems_of_references plain fun _ => rfl]
    exact ⟨alone plain, alone also, problems_append a b, problems_between plain,
      problems_between also⟩

/-- Of `int x; use y; call x(y); int y;` the same is said as of the listing with its two
references swapped, in another order. -/
theorem failing_references_swapped :
    let letter (name : String) (start : Nat) : Located String :=
      ⟨name, ⟨.identifier name, ⟨start, start + 1⟩, 1⟩⟩
    let front : Listing := [.declaration (letter "x" 4) { type := .int }]
    let use : Item := .reference (letter "y" 11)
    let call : Item := .call (letter "x" 19) [letter "y" 21]
    let back : Listing := [.declaration (letter "y" 29) { type := .int }]
    (front ++ [call, use] ++ back).check.table = (front ++ [use, call] ++ back).check.table ∧
      (front ++ [call, use] ++ back).check.usages = (front ++ [use, call] ++ back).check.usages ∧
      (front ++ [call, use] ++ back).check.diagnostics.Perm
        (front ++ [use, call] ++ back).check.diagnostics := by
  intro letter front use call back
  have plain : ∀ i ∈ [use, call], isDeclaration i = false := by decide
  obtain ⟨table, usages, ⟨block, block', rest, perm, -, -, -, before, after⟩, -⟩ :=
    @references_reordered_exact front back [use, call] [call, use] plain (.swap use call [])
  refine ⟨table, usages, ?_⟩
  rw [before, after]
  exact (perm.append_right rest).append_left _

end DeclListing.ReorderedReferences
