import DeclListing.Command.Job
import DeclListing.Proofs.CheckDiagnostics

/-! The table and the usages of a check agree with each other and with the items
taken so far: the same names, in the order of their first declarations, each
with what its first declaration says and with the references behind it. So a
declared name has a usage whenever the table knows it, and no step falls back to
a default. -/
namespace DeclListing.UsageAccounts
open CheckDiagnostics

variable {c : Checker} {before : Listing} {name : Located String} {info : SymbolInfo}

theorem first_declaration_cons (i : Item) (items : Listing) (name : String) :
    Listing.firstDeclaration? (i :: items) name =
      (i.declares? name).or (items.firstDeclaration? name) := by
  rw [Listing.firstDeclaration?, List.findSome?_cons]
  cases i.declares? name <;> rfl

/-- The declared names are those that have a first declaration. -/
theorem mem_declared_names (items : Listing) (name : String) :
    name ∈ items.declaredNames ↔ (items.firstDeclaration? name).isSome = true := by
  induction items with
  | nil => simp [Listing.declaredNames, Listing.firstDeclaration?]
  | cons i items ih =>
    rw [first_declaration_cons]
    cases i with
    | declaration other info =>
      by_cases same : other.value = name
      · simp [Listing.declaredNames, Item.declares?, same]
      · simp [Listing.declaredNames, Item.declares?, same, Ne.symm same, ih]
    | reference | call => simpa [Listing.declaredNames, Item.declares?] using ih

theorem declared_names_nodup (items : Listing) : items.declaredNames.Nodup := by
  induction items with
  | nil => simp [Listing.declaredNames]
  | cons i items ih =>
    cases i with
    | declaration name info =>
      rw [Listing.declaredNames, List.nodup_cons]
      exact ⟨by simp, ih.filter _⟩
    | reference | call => simpa [Listing.declaredNames] using ih

/-- A declaration adds its name at the end, unless the name is there. -/
theorem declared_names_snoc (before : Listing) (name : Located String) (info : SymbolInfo) :
    Listing.declaredNames (before ++ [.declaration name info]) =
      before.declaredNames ++ if name.value ∈ before.declaredNames then [] else [name.value] := by
  induction before with
  | nil => simp [Listing.declaredNames]
  | cons i items ih =>
    cases i with
    | declaration other _ =>
      simp only [List.cons_append, Listing.declaredNames, ih, List.filter_append]
      by_cases same : name.value = other.value
      · by_cases listed : other.value ∈ Listing.declaredNames items <;> simp [same, listed]
      · by_cases listed : name.value ∈ Listing.declaredNames items <;> simp [same, listed]
    | reference | call => exact ih

theorem declared_names_silent {i : Item} (silent : ∀ name, i.declares? name = none) :
    Listing.declaredNames (before ++ [i]) = before.declaredNames := by
  induction before with
  | nil =>
    cases i with
    | declaration name info => simpa [Item.declares?] using silent name.value
    | reference | call => rfl
  | cons j items ih => cases j <;> simp [Listing.declaredNames, ih]

/-- An item adds its references to the uses of the names declared before it. -/
theorem uses_snoc (before : Listing) (i : Item) (name : String) :
    Listing.usesOf name (before ++ [i]) = before.usesOf name +
      if (before.firstDeclaration? name).isSome then (i.references.map Located.value).count name
      else 0 := by
  induction before with
  | nil => cases found : i.declares? name <;> simp [Listing.usesOf, Listing.firstDeclaration?, found]
  | cons j items ih =>
    rw [first_declaration_cons, List.cons_append]
    cases found : j.declares? name with
    | none =>
      rw [Option.none_or, Listing.usesOf, Listing.usesOf, found]
      exact ih
    | some first => simp [Listing.usesOf, found]

theorem uses_undeclared {name : String} (absent : before.firstDeclaration? name = none) :
    before.usesOf name = 0 := by
  induction before with
  | nil => rfl
  | cons i items ih =>
    rw [first_declaration_cons, Option.or_eq_none_iff] at absent
    rw [Listing.usesOf, absent.1]
    exact ih absent.2

/-- The usages with these references counted. -/
def counted (names : List String) (usages : List Usage) : List Usage :=
  usages.map fun u => { u with uses := u.uses + names.count u.name }

@[simp]
theorem counted_nil (usages : List Usage) : counted [] usages = usages := by
  simp [counted]

theorem counted_append (first second : List String) (usages : List Usage) :
    counted (first ++ second) usages = counted second (counted first usages) := by
  simp [counted, Nat.add_assoc]

@[simp]
theorem names_counted (names : List String) (usages : List Usage) :
    (counted names usages).map Usage.name = usages.map Usage.name := by
  simp [counted]

/-- The names of the usages are those of the table, in its order. -/
def Keyed (c : Checker) : Prop :=
  c.usages.map Usage.name = c.table.names

private theorem usages_count (c : Checker) (name : String) :
    (c.count name).usages = counted [name] c.usages := by
  apply List.map_congr_left
  intro u _
  by_cases same : u.name = name <;> simp [same, Ne.symm]

/-- Referring to a name counts it. A name that is not declared has no usage, so
nothing is counted for it. -/
theorem resolve_counts (keyed : Keyed c) (name : Located String) :
    (c.resolve name).usages = counted [name.value] c.usages ∧
      (c.resolve name).table = c.table := by
  unfold Checker.resolve
  by_cases known : c.table.contains name.value = true
  · rw [if_pos known]
    exact ⟨usages_count c name.value, rfl⟩
  · rw [if_neg known]
    refine ⟨?_, rfl⟩
    have absent : ∀ u ∈ c.usages, name.value ≠ u.name := by
      rintro u member same
      apply known
      rw [SymbolTable.contains_iff_mem_names, ← keyed, same]
      exact List.mem_map_of_mem member
    have unchanged : counted [name.value] c.usages = c.usages.map id := by
      apply List.map_congr_left
      intro u member
      simp [absent u member]
    rw [unchanged, List.map_id]
    rfl

theorem resolve_keyed (keyed : Keyed c) (name : Located String) : Keyed (c.resolve name) := by
  obtain ⟨usages, table⟩ := resolve_counts keyed name
  rw [Keyed, usages, names_counted, table]
  exact keyed

theorem resolve_all_counts (names : List (Located String)) (keyed : Keyed c) :
    (names.foldl Checker.resolve c).usages = counted (names.map Located.value) c.usages ∧
      (names.foldl Checker.resolve c).table = c.table := by
  induction names generalizing c with
  | nil => simp
  | cons name names ih =>
    obtain ⟨usages, table⟩ := resolve_counts keyed name
    obtain ⟨restUsages, restTable⟩ := ih (resolve_keyed keyed name)
    rw [List.foldl_cons, restUsages, restTable, usages, table, ← counted_append]
    exact ⟨rfl, rfl⟩

private theorem match_call_usages (c : Checker) (callee : Located String) (got : Nat) :
    (c.matchCall callee got).usages = c.usages ∧ (c.matchCall callee got).table = c.table := by
  unfold Checker.matchCall
  split
  · exact ⟨rfl, rfl⟩
  · split
    · split <;> exact ⟨rfl, rfl⟩
    · exact ⟨rfl, rfl⟩

theorem match_call_keyed (keyed : Keyed c) (callee : Located String) (got : Nat) :
    Keyed (c.matchCall callee got) := by
  obtain ⟨usages, table⟩ := match_call_usages c callee got
  rw [Keyed, usages, table]
  exact keyed

/-- A call counts its callee and its arguments, whatever is wrong with it. -/
theorem call_counts (keyed : Keyed c) (callee : Located String) (args : List (Located String)) :
    (c.call callee args).usages = counted ((callee :: args).map Located.value) c.usages ∧
      (c.call callee args).table = c.table := by
  obtain ⟨usages, table⟩ := resolve_counts keyed callee
  obtain ⟨matchedUsages, matchedTable⟩ := match_call_usages (c.resolve callee) callee args.length
  have resolved := resolve_keyed keyed callee
  unfold Checker.call
  dsimp only
  by_cases known : c.table.contains callee.value = true
  · obtain ⟨restUsages, restTable⟩ :=
      resolve_all_counts args (match_call_keyed resolved callee args.length)
    rw [if_pos known, restUsages, restTable, matchedUsages, matchedTable, usages, table,
      ← counted_append]
    exact ⟨rfl, rfl⟩
  · obtain ⟨restUsages, restTable⟩ := resolve_all_counts args resolved
    rw [if_neg known, restUsages, restTable, usages, table, ← counted_append]
    exact ⟨rfl, rfl⟩

/-- What an item that declares nothing does: it counts its references. -/
theorem step_counts {i : Item} (silent : ∀ name, i.declares? name = none) (keyed : Keyed c) :
    (c.step i).usages = counted (i.references.map Located.value) c.usages ∧
      (c.step i).table = c.table := by
  cases i with
  | declaration name info => simpa [Item.declares?] using silent name.value
  | reference name => exact resolve_counts keyed name
  | call callee args => exact call_counts keyed callee args

/-- The table and the usages have the names declared before, and the usages the
references to them. -/
structure Counts (c : Checker) (before : Listing) : Prop where
  /-- The table has the declared names. -/
  tabled : c.table.names = before.declaredNames
  /-- The usages have them in the same order. -/
  keyed : c.usages.map Usage.name = before.declaredNames
  /-- Each has been referred to as often as it was used. -/
  uses : ∀ u ∈ c.usages, u.uses = before.usesOf u.name

theorem Counts.toKeyed (counts : Counts c before) : Keyed c :=
  counts.keyed.trans counts.tabled.symm

private theorem declared_of_mem (counts : Counts c before) {u : Usage} (member : u ∈ c.usages) :
    (before.firstDeclaration? u.name).isSome = true := by
  rw [← mem_declared_names, ← counts.keyed]
  exact List.mem_map_of_mem member

private theorem uses_kept (counts : Counts c before) :
    ∀ u ∈ c.usages, u.uses = Listing.usesOf u.name (before ++ [.declaration name info]) := by
  intro u member
  rw [uses_snoc, counts.uses u member]
  simp [Item.references]

theorem declare_counts (counts : Counts c before) :
    Counts (c.declare name info) (before ++ [.declaration name info]) := by
  by_cases known : c.table.contains name.value = true
  · have listed : name.value ∈ before.declaredNames := by
      rw [← counts.tabled]
      exact SymbolTable.contains_iff_mem_names.mp known
    rw [declare_taken known]
    constructor
    · rw [declared_names_snoc, if_pos listed, List.append_nil]
      exact counts.tabled
    · rw [declared_names_snoc, if_pos listed, List.append_nil]
      exact counts.keyed
    · exact uses_kept (c := c) counts
  · obtain ⟨unused, declared⟩ := declare_fresh info (Bool.eq_false_iff.mpr known)
    have unlisted : name.value ∉ before.declaredNames := by
      rw [← counts.tabled]
      exact unused
    rw [declared]
    constructor
    · rw [declared_names_snoc, if_neg unlisted, ← counts.tabled]
      simp [SymbolTable.names]
    · rw [declared_names_snoc, if_neg unlisted, ← counts.keyed]
      simp
    · intro u member
      rcases List.mem_append.mp member with old | new
      · exact uses_kept counts u old
      · obtain rfl := List.mem_singleton.mp new
        have absent : before.firstDeclaration? name.value = none := by
          rwa [mem_declared_names, Bool.not_eq_true, Option.isSome_eq_false_iff,
            Option.isNone_iff_eq_none] at unlisted
        simp [uses_snoc, Item.references, uses_undeclared absent]

/-- An item leaves the names and the uses of the items before and itself. -/
theorem step_accounts (counts : Counts c before) (i : Item) : Counts (c.step i) (before ++ [i]) := by
  by_cases silent : ∀ name, i.declares? name = none
  · obtain ⟨usages, table⟩ := step_counts silent counts.toKeyed
    constructor
    · rw [table, declared_names_silent silent, counts.tabled]
    · rw [usages, names_counted, declared_names_silent silent, counts.keyed]
    · intro u member
      rw [usages] at member
      obtain ⟨old, listed, rfl⟩ := List.mem_map.mp member
      rw [uses_snoc, if_pos (declared_of_mem counts listed), counts.uses old listed]
  · cases i with
    | declaration name info => exact declare_counts counts
    | reference | call => exact absurd (fun _ => rfl) silent

theorem run_counts (items : Listing) (counts : Counts c before) :
    Counts (c.run items) (before ++ items) := by
  induction items generalizing c before with
  | nil => simpa [Checker.run] using counts
  | cons i items ih =>
    have later := ih (step_accounts counts i)
    simpa [Checker.run] using later

theorem counts_nothing : Counts {} [] where
  tabled := rfl
  keyed := rfl
  uses := by simp

/-- A table and usages give account of items: they have the declared names, each
once and in the order of first declarations, and say of each what the first
declaration says and how often the name is referred to behind it. -/
structure Accounts (table : SymbolTable) (usages : List Usage) (items : Listing) : Prop where
  /-- The usages have the declared names in order. -/
  keyed : usages.map Usage.name = items.declaredNames
  /-- The table has the same names. -/
  tabled : table.names = items.declaredNames
  /-- No name stands twice. -/
  distinct : (usages.map Usage.name).Nodup
  /-- The names are those with a first declaration. -/
  declared : ∀ name, name ∈ items.declaredNames ↔ (items.firstDeclaration? name).isSome = true
  /-- Table and usages are as many as the declared names. -/
  sizes : table.size = usages.length ∧ usages.length = items.declaredNames.length
  /-- Each name has its first declaration and its references. -/
  entries : ∀ u ∈ usages, ∃ first, items.firstDeclaration? u.name = some first ∧
    table.info? u.name = some first.value ∧ u.declaredAt = first.token ∧
    u.uses = items.usesOf u.name

private theorem declared_at (tracks : Tracks c before) (counts : Counts c before) {u : Usage}
    (member : u ∈ c.usages) :
    (before.firstDeclaration? u.name).map Located.token = some u.declaredAt := by
  have distinct : (c.usages.map Usage.name).Nodup := by
    rw [counts.keyed]
    exact declared_names_nodup before
  have found : c.usage? u.name = some u := by
    obtain ⟨front, back, split⟩ := List.append_of_mem member
    rw [split, List.map_append, List.map_cons, List.nodup_append] at distinct
    have earlier : ∀ v ∈ front, ¬ (v.name == u.name) = true := by
      intro v listed same
      exact distinct.2.2 _ (List.mem_map_of_mem listed) _ (by simp) (beq_iff_eq.mp same)
    rw [Checker.usage?, split, List.find?_append, List.find?_eq_none.mpr earlier]
    simp
  rw [← tracks.declared, found]
  rfl

theorem accounts (tracks : Tracks c before) (counts : Counts c before) :
    Accounts c.table c.usages before where
  keyed := counts.keyed
  tabled := counts.tabled
  distinct := by
    rw [counts.keyed]
    exact declared_names_nodup before
  declared := mem_declared_names before
  sizes := by
    have table := congrArg List.length counts.tabled
    have usages := congrArg List.length counts.keyed
    rw [SymbolTable.names, List.length_map] at table
    rw [List.length_map] at usages
    exact ⟨table.trans usages.symm, usages⟩
  entries := by
    intro u member
    obtain ⟨first, known⟩ := Option.isSome_iff_exists.mp (declared_of_mem counts member)
    have token := declared_at tracks counts member
    rw [known, Option.map_some, Option.some.injEq] at token
    exact ⟨first, known, by rw [tracks.info, known]; rfl, token.symm, counts.uses u member⟩

/-- A name whose declaration is refused has a usage, with the token of its first
declaration. -/
theorem refused_declared (tracks : Tracks c before) (refused : c.table.add? ⟨name.value, info⟩ = none) :
    ∃ first, before.firstDeclaration? name.value = some first ∧
      (c.usage? name.value).map Usage.declaredAt = some first.token := by
  have taken : name.value ∈ c.table.names := by
    by_cases listed : name.value ∈ c.table.names
    · exact listed
    · simp [SymbolTable.add?, listed] at refused
  have known := SymbolTable.contains_iff_mem_names.mpr taken
  rw [contains_iff tracks] at known
  obtain ⟨first, found⟩ := Option.isSome_iff_exists.mp known
  exact ⟨first, found, by rw [tracks.declared, found]; rfl⟩

/-- Every check passes through the state behind each prefix of its items, and
there as at the end the table and the usages give account of the items taken.
So a refused declaration finds the usage of the first one, and the summary finds
the type of every name: neither falls back to a default. -/
theorem check_accounts (before after : Listing) :
    let c := Checker.run {} before
    let report := Listing.check (before ++ after)
    report = .ofChecker (c.run after) ∧
    Accounts c.table c.usages before ∧
    Accounts report.table report.usages (before ++ after) ∧
    (∀ (name : Located String) (info : SymbolInfo), c.table.add? ⟨name.value, info⟩ = none →
      ∃ first, before.firstDeclaration? name.value = some first ∧
        (c.usage? name.value).map Usage.declaredAt = some first.token) ∧
    ∀ u ∈ report.usages, ∃ first, (before ++ after).firstDeclaration? u.name = some first ∧
      Command.Job.summaryType report.table u.name = (first.value.type, []) := by
  intro c report
  have state (items : Listing) : Tracks (Checker.run {} items) items ∧
      Counts (Checker.run {} items) items :=
    ⟨(run_exact items tracks_nothing).2, run_counts items counts_nothing⟩
  have whole : Accounts report.table report.usages (before ++ after) :=
    accounts (state (before ++ after)).1 (state (before ++ after)).2
  refine ⟨?_, accounts (state before).1 (state before).2, whole, ?_, ?_⟩
  · simp only [report, c, Listing.check, Checker.run, List.foldl_append]
  · intro name info refused
    exact refused_declared (state before).1 refused
  · intro u member
    obtain ⟨first, known, info, -⟩ := whole.entries u member
    exact ⟨first, known, by rw [Command.Job.summaryType, info]⟩

end DeclListing.UsageAccounts
