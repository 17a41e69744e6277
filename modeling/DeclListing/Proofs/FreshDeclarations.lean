import DeclListing.Proofs.ReportContents

/-! The declaration of a fresh name. A name that occurs nowhere in a listing can be
declared between any two of its items. The run behind it knows one name more, but no item
asks for that name, so the same is reported of each and counted for each; the name itself
is looked up as it was declared, and is used by nothing. -/
namespace DeclListing.FreshDeclarations
open CheckDiagnostics UsageAccounts NameConservation ReportContents

variable {a b items : Listing} {name : Located String} {info : SymbolInfo} {other : String}
  {i : Item}

/-- A name that occurs in no item: none declares it, refers to it, calls it or passes it. -/
def Fresh (items : Listing) (name : String) : Prop :=
  ∀ i ∈ items, ∀ written ∈ i.names, written.value ≠ name

theorem fresh_append : Fresh (a ++ b) other ↔ Fresh a other ∧ Fresh b other :=
  List.forall_mem_append

theorem fresh_undeclared (fresh : Fresh items other) : items.firstDeclaration? other = none := by
  apply List.findSome?_eq_none_iff.mpr
  intro i listed
  cases i with
  | declaration written info =>
    exact if_neg (fresh _ listed written (by simp [Item.names]))
  | reference | call => rfl

/-- The names that an item refers to are among its names. -/
theorem references_named : ∀ written ∈ i.references, written ∈ i.names := by
  cases i with
  | declaration => simp [Item.references]
  | reference | call => simp [Item.references, Item.names]

theorem fresh_unused (fresh : Fresh items other) :
    ((items.flatMap Item.references).map Located.value).count other = 0 := by
  apply List.count_eq_zero.mpr
  intro listed
  obtain ⟨written, referred, same⟩ := List.mem_map.mp listed
  obtain ⟨i, member, inside⟩ := List.mem_flatMap.mp referred
  exact fresh i member written (references_named written inside) same

/-- A listing with a declaration between two parts. -/
def inserted (a : Listing) (name : Located String) (info : SymbolInfo) (b : Listing) : Listing :=
  a ++ .declaration name info :: b

theorem declares_own :
    (Item.declaration name info).declares? name.value = some ⟨info, name.token⟩ :=
  if_pos rfl

theorem declares_no_other (different : other ≠ name.value) :
    (Item.declaration name info).declares? other = none :=
  if_neg (Ne.symm different)

/-- Other names are declared as before. -/
theorem first_declaration_inserted (different : other ≠ name.value) :
    (inserted a name info b).firstDeclaration? other =
      Listing.firstDeclaration? (a ++ b) other := by
  rw [inserted, first_declaration_append, first_declaration_append, first_declaration_cons,
    declares_no_other different, Option.none_or]

/-- The fresh name is declared where it was put. -/
theorem first_declaration_fresh (fresh : Fresh a name.value) :
    (inserted a name info b).firstDeclaration? name.value = some ⟨info, name.token⟩ := by
  rw [inserted, first_declaration_append, fresh_undeclared fresh, first_declaration_cons,
    declares_own]
  rfl

/-- It stands behind the names that are declared before it. -/
theorem declared_names_inserted (fresh : Fresh (a ++ b) name.value) :
    (inserted a name info b).declaredNames =
      a.declaredNames ++ name.value :: b.declaredNames.filter (· ∉ a.declaredNames) := by
  obtain ⟨before, behind⟩ := fresh_append.mp fresh
  have unlisted {items : Listing} (fresh : Fresh items name.value) :
      name.value ∉ items.declaredNames := by
    rw [mem_declared_names, fresh_undeclared fresh]
    simp
  have kept : b.declaredNames.filter (· ≠ name.value) = b.declaredNames := by
    apply List.filter_eq_self.mpr
    intro other listed
    simp only [decide_eq_true_eq]
    rintro rfl
    exact unlisted behind listed
  rw [inserted, declared_names_append, Listing.declaredNames, kept, List.filter_cons_of_pos]
  simpa using unlisted before

/-- Other names are used as often as before. -/
theorem uses_inserted (different : other ≠ name.value) :
    (inserted a name info b).usesOf other = Listing.usesOf other (a ++ b) := by
  rw [inserted, uses_append, uses_append, Listing.usesOf, declares_no_other different]
  rfl

/-- The fresh name is used by nothing. -/
theorem uses_fresh (fresh : Fresh (a ++ b) name.value) :
    (inserted a name info b).usesOf name.value = 0 := by
  obtain ⟨before, behind⟩ := fresh_append.mp fresh
  rw [inserted, uses_append, fresh_undeclared before, Listing.usesOf, declares_own]
  exact fresh_unused behind

/-- No item has another problem for it, and the declaration itself has none. -/
theorem problems_inserted (fresh : Fresh (a ++ b) name.value) :
    (inserted a name info b).problems = Listing.problems (a ++ b) := by
  obtain ⟨before, behind⟩ := fresh_append.mp fresh
  have quiet : problemsAt a (.declaration name info) = [] := by
    rw [problemsAt, fresh_undeclared before]
  have same : problemsAfter (a ++ [.declaration name info]) b = problemsAfter a b := by
    apply problems_after_names
    intro i listed written inside
    rw [first_declaration_snoc, declares_no_other (behind i listed written inside), Option.or_none]
  rw [inserted, problems_append, problems_append, problemsAfter, quiet, same, List.nil_append]

/-- The usages of declared names have those names. -/
theorem usages_named {names : List String} (declared : ∀ n ∈ names, n ∈ items.declaredNames) :
    (names.filterMap (usageOf? items)).map Usage.name = names := by
  have each : ∀ n ∈ names, (usageOf? items n).map Usage.name = some n := by
    intro n listed
    obtain ⟨first, found⟩ :=
      Option.isSome_iff_exists.mp ((mem_declared_names items n).mp (declared n listed))
    rw [usageOf?, found]
    rfl
  rw [List.map_filterMap]
  exact (List.filterMap_congr each).trans List.filterMap_some

/-- Other names have the usages that they had. -/
theorem usages_kept {names : List String} (different : ∀ n ∈ names, n ≠ name.value) :
    names.filterMap (usageOf? (inserted a name info b)) = names.filterMap (usageOf? (a ++ b)) := by
  apply List.filterMap_congr
  intro n listed
  rw [usageOf?, usageOf?, first_declaration_inserted (different n listed),
    uses_inserted (different n listed)]

/-- The usage of the fresh name stands between those of the names declared before it and
the others. -/
theorem usages_parted (fresh : Fresh (a ++ b) name.value) :
    ∃ front back, (a ++ b).check.usages = front ++ back ∧
      front.map Usage.name = a.check.usages.map Usage.name ∧
      (inserted a name info b).check.usages = front ++ ⟨name.value, name.token, 0⟩ :: back := by
  obtain ⟨before, -⟩ := fresh_append.mp fresh
  let later := b.declaredNames.filter (· ∉ a.declaredNames)
  have names : Listing.declaredNames (a ++ b) = a.declaredNames ++ later :=
    declared_names_append a b
  have different : ∀ n ∈ a.declaredNames ++ later, n ≠ name.value := by
    rintro n listed rfl
    rw [← names, mem_declared_names, fresh_undeclared fresh] at listed
    cases listed
  obtain ⟨differentFront, differentBack⟩ := List.forall_mem_append.mp different
  have own : usageOf? (inserted a name info b) name.value = some ⟨name.value, name.token, 0⟩ := by
    rw [usageOf?, first_declaration_fresh before, uses_fresh fresh]
    rfl
  refine ⟨a.declaredNames.filterMap (usageOf? (a ++ b)), later.filterMap (usageOf? (a ++ b)),
    ?_, ?_, ?_⟩
  · rw [usages_exact, names, List.filterMap_append]
  · rw [usages_named, (told_of_listing a).keyed]
    intro n listed
    rw [names]
    exact List.mem_append_left _ listed
  · rw [usages_exact, declared_names_inserted fresh, List.filterMap_append,
      List.filterMap_cons_some own, usages_kept differentFront, usages_kept differentBack]

/-- A table answers every lookup of a name with what is declared of it here, or with
nothing. -/
structure Answers (t : SymbolTable) (name : String) (info? : Option SymbolInfo) : Prop where
  entry : t.get? name = info?.map fun info => { name, info }
  info : t.info? name = info?
  record : t.record name = (info?.map SymbolInfo.toRecord).getD .notFound
  known : t.contains name = info?.isSome

/-- Lookups answer with the first declaration. -/
theorem lookups_answered (items : Listing) (name : String) :
    Answers items.check.table name ((items.firstDeclaration? name).map Located.value) := by
  have entry : items.check.table.get? name =
      ((items.firstDeclaration? name).map Located.value).map fun info => { name, info } := by
    rw [entry_found, entryOf?, Option.map_map]
    rfl
  have info : items.check.table.info? name = (items.firstDeclaration? name).map Located.value :=
    (run_exact items tracks_nothing).2.info name
  refine ⟨entry, info, ?_, ?_⟩
  · rw [SymbolTable.record, info]
    cases items.firstDeclaration? name <;> rfl
  · rw [SymbolTable.contains, entry, Option.isSome_map]

/-- Declaring a fresh name between two parts of a listing reports nothing and takes no
report away; all usages stay as they are, and the one of the new name stands behind
those of the names declared before it; every other name is looked up as before, the new
one as it was declared, and the table has one entry more. -/
theorem fresh_declaration_exact (fresh : Fresh (a ++ b) name.value) (info : SymbolInfo) :
    (inserted a name info b).check.diagnostics = (a ++ b).check.diagnostics ∧
      (∃ front back, (a ++ b).check.usages = front ++ back ∧
        front.map Usage.name = a.check.usages.map Usage.name ∧
        (inserted a name info b).check.usages =
          front ++ { name := name.value, declaredAt := name.token, uses := 0 } :: back) ∧
      (∀ other ≠ name.value, ∃ info?, Answers (a ++ b).check.table other info? ∧
        Answers (inserted a name info b).check.table other info?) ∧
      Answers (inserted a name info b).check.table name.value (some info) ∧
      (inserted a name info b).check.table.size = (a ++ b).check.table.size + 1 := by
  obtain ⟨before, -⟩ := fresh_append.mp fresh
  simp only [diagnostics_of_listing]
  refine ⟨problems_inserted fresh, usages_parted fresh, fun other different => ?_, ?_, ?_⟩
  · have answered := lookups_answered (inserted a name info b) other
    rw [first_declaration_inserted different] at answered
    exact ⟨_, lookups_answered (a ++ b) other, answered⟩
  · have answered := lookups_answered (inserted a name info b) name.value
    rwa [first_declaration_fresh before] at answered
  · obtain ⟨sizes, count⟩ := (told_of_listing (inserted a name info b)).sizes
    obtain ⟨oldSizes, oldCount⟩ := (told_of_listing (a ++ b)).sizes
    rw [sizes, count, oldSizes, oldCount, declared_names_inserted fresh, declared_names_append]
    simp [Nat.add_assoc]

/-- `int z = 7;` put into `int x; use x; use y;`, behind the first item. -/
theorem fresh_declaration_between :
    let letter (name : String) (start : Nat) : Located String :=
      ⟨name, ⟨.identifier name, ⟨start, start + 1⟩, 1⟩⟩
    let front : Listing := [.declaration (letter "x" 4) { type := .int }]
    let back : Listing := [.reference (letter "x" 11), .reference (letter "y" 18)]
    let more := inserted front (letter "z" 4) { type := .int, intVal := 7 } back
    more.check.diagnostics = [⟨.undeclared "y", (letter "y" 18).token⟩] ∧
      more.check.table.info? "z" = some { type := .int, intVal := 7 } := by
  intro letter front back more
  have fresh : Fresh (front ++ back) (letter "z" 4).value := by
    simp [Fresh, front, back, Item.names, letter]
  obtain ⟨diagnostics, -, -, answers, -⟩ :=
    fresh_declaration_exact fresh { type := .int, intVal := 7 }
  have old : (front ++ back).check.diagnostics = [⟨.undeclared "y", (letter "y" 18).token⟩] := by
    decide +kernel
  exact ⟨diagnostics.trans old, answers.info⟩

end DeclListing.FreshDeclarations
