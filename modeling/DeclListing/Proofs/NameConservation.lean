import Mathlib.Algebra.GroupWithZero.Nat
import DeclListing.Check.Verdict
import DeclListing.Proofs.ListingGrammarExactness
import DeclListing.Proofs.TokenGrammarExactness
import DeclListing.Proofs.UsageAccounts

/-! No name is lost between a text and its report, and none is counted twice. The
names of the items are the identifiers among the tokens, in order; and every one
of them is a first declaration, a repeated one, a use of a declared name or a
name that is not declared. The readers keep the first half, a step of the check
the second. -/
namespace DeclListing.NameConservation
open TokenGrammarExactness ListingGrammarExactness UsageAccounts CheckDiagnostics

variable {tokens segment : List Token} {t : Token} {i : Item} {items before : Listing}
  {c : Checker} {name : Located String}

/-- The name that a token is, with the token. -/
def nameOf? (t : Token) : Option (Located String) :=
  t.terminal.identifier?.map (⟨·, t⟩)

/-- The names among tokens, in order. -/
def identifiers (tokens : List Token) : List (Located String) :=
  tokens.filterMap nameOf?

/-- The token of an identifier is one of the tokens. -/
theorem identifier_token (found : name ∈ identifiers tokens) : name.token ∈ tokens := by
  obtain ⟨t, listed, same⟩ := List.mem_filterMap.mp found
  obtain ⟨word, -, rfl⟩ := Option.map_eq_some_iff.mp same
  exact listed

private theorem name_of_name (named : Derives.Name t name) : nameOf? t = some name := by
  obtain ⟨word⟩ := named
  simp [nameOf?, word, Terminal.identifier?]

private theorem no_name {terminal : Terminal} (same : t.terminal = terminal)
    (other : terminal.identifier? = none) : nameOf? t = none := by
  rw [nameOf?, same, other]
  rfl

private theorem integer_names {value : Int} (derived : Derives.Integer segment value) :
    identifiers segment = [] := by
  cases derived with
  | plain digits => simp [identifiers, no_name digits rfl]
  | negated minus digits => simp [identifiers, no_name minus rfl, no_name digits rfl]

private theorem literal_names {value : Literal} (derived : Derives.Literal segment value) :
    identifiers segment = [] := by
  cases derived with
  | integer derived => exact integer_names derived
  | string quoted => simp [identifiers, no_name quoted rfl]

private theorem names_names {found : List (Located String)} (derived : Derives.Names segment found) :
    identifiers segment = found := by
  induction derived with
  | last named => simp [identifiers, name_of_name named]
  | more named separates _ ih =>
    simpa [identifiers, name_of_name named, no_name separates rfl] using ih

private theorem arguments_names {found : List (Located String)}
    (derived : Derives.Arguments segment found) : identifiers segment = found := by
  cases derived with
  | none => rfl
  | some derived => exact names_names derived

/-- The names of an item are those among its tokens. -/
theorem item_names (derived : Derives.Item segment i) : identifiers segment = i.names := by
  cases derived with
  | plain opens _ named stops =>
    simp [identifiers, no_name opens rfl, name_of_name named, no_name stops rfl, Item.names]
  | initialized opens _ named assigns literal stops =>
    have inner := literal_names literal
    simp only [identifiers] at inner
    simp [identifiers, no_name opens rfl, name_of_name named, no_name assigns rfl, inner,
      no_name stops rfl, Item.names]
  | function opens named encloses integer closes points ends _ stops =>
    have inner := integer_names integer
    simp only [identifiers] at inner
    simp [identifiers, no_name opens rfl, name_of_name named, no_name encloses rfl, inner,
      no_name closes rfl, no_name points rfl, no_name ends rfl, no_name stops rfl, Item.names]
  | reference opens named stops =>
    simp [identifiers, no_name opens rfl, name_of_name named, no_name stops rfl, Item.names]
  | call opens named encloses arguments closes stops =>
    have inner := arguments_names arguments
    simp only [identifiers] at inner
    simp [identifiers, no_name opens rfl, name_of_name named, no_name encloses rfl, inner,
      no_name closes rfl, no_name stops rfl, Item.names]

theorem listing_names (derived : Derives.Listing segment items) :
    identifiers segment = items.flatMap Item.names := by
  induction derived with
  | nothing => rfl
  | item derived _ ih =>
    rw [identifiers, List.filterMap_append, List.flatMap_cons, ← ih, ← item_names derived]
    rfl

/-- The tokens of a text are those before its end, and the end. -/
theorem tokens_before_end {text : String} (lexed : tokensOf text = .ok tokens) :
    ∃ stop line, tokens = beforeEnd tokens ++ [Lexer.endToken stop line] := by
  obtain ⟨front, stop, line, split, plain⟩ := tokens_ended lexed
  have whole : beforeEnd tokens = front := by
    rw [split, beforeEnd, List.takeWhile_append_of_pos (by simpa using plain)]
    simp [Lexer.endToken]
  exact ⟨stop, line, by rw [whole, split]⟩

/-- The names of what is read from a text are the identifiers of the text. -/
theorem text_names {text : String} (lexed : tokensOf text = .ok tokens)
    (read : Listing.read text.toList tokens = .items items) :
    identifiers tokens = items.flatMap Item.names := by
  obtain ⟨stop, line, split⟩ := tokens_before_end lexed
  obtain ⟨rest, listed⟩ := read_eq_items_iff.mp read
  rw [split, identifiers, List.filterMap_append, ← listing_names (listing_sound listed)]
  simp [nameOf?, Lexer.endToken, Terminal.identifier?, identifiers]

/-- Whether a problem is a repeated declaration. -/
def isDuplicate (d : Diagnostic) : Bool :=
  match d.value with
  | .duplicate _ _ => true
  | _ => false

/-- Whether a problem is a name that is not declared. -/
def isUndeclared (d : Diagnostic) : Bool :=
  match d.value with
  | .undeclared _ => true
  | _ => false

/-- The names that usages and diagnostics account for. -/
def accounted (usages : List Usage) (diagnostics : List Diagnostic) : Nat :=
  usages.length + diagnostics.countP isDuplicate + (usages.map Usage.uses).sum +
    diagnostics.countP isUndeclared

private theorem sum_counted (name : String) (usages : List Usage) :
    ((counted [name] usages).map Usage.uses).sum =
      (usages.map Usage.uses).sum + (usages.map Usage.name).count name := by
  induction usages with
  | nil => rfl
  | cons u usages ih =>
    simp only [counted, List.map_cons, List.sum_cons, List.count_cons] at ih ⊢
    by_cases same : u.name = name
    · simp [same] at ih ⊢
      omega
    · simp [same, Ne.symm same] at ih ⊢
      omega

private theorem keyed_count (keyed : Keyed c) {name : String}
    (known : c.table.contains name = true) : (c.usages.map Usage.name).count name = 1 := by
  have listed := SymbolTable.contains_iff_mem_names.mp known
  have distinct : c.table.names.Nodup := c.table.distinct
  rw [keyed, distinct.count, if_pos listed]

/-- A name that is referred to is counted or reported, and not both. -/
theorem resolve_accounted (keyed : Keyed c) (name : Located String) :
    accounted (c.resolve name).usages (c.resolve name).diagnostics =
      accounted c.usages c.diagnostics + 1 := by
  obtain ⟨usages, -⟩ := resolve_counts keyed name
  have length := congrArg List.length (names_counted [name.value] c.usages)
  simp only [List.length_map] at length
  by_cases known : c.table.contains name.value = true
  · have quiet : (c.resolve name).diagnostics = c.diagnostics := by
      rw [Checker.resolve, if_pos known]
      rfl
    rw [usages, quiet, accounted, accounted, sum_counted, keyed_count keyed known, length]
    omega
  · have loud : c.resolve name = c.report name.token (.undeclared name.value) := by
      rw [Checker.resolve, if_neg known]
    rw [loud]
    simp [accounted, Checker.report, isDuplicate, isUndeclared]
    omega

theorem resolve_all_accounted (names : List (Located String)) (keyed : Keyed c) :
    accounted (names.foldl Checker.resolve c).usages (names.foldl Checker.resolve c).diagnostics =
      accounted c.usages c.diagnostics + names.length := by
  induction names generalizing c with
  | nil => rfl
  | cons name names ih =>
    rw [List.foldl_cons, ih (resolve_keyed keyed name), resolve_accounted keyed, List.length_cons]
    omega

private theorem match_call_accounted (c : Checker) (callee : Located String) (got : Nat) :
    accounted (c.matchCall callee got).usages (c.matchCall callee got).diagnostics =
      accounted c.usages c.diagnostics := by
  unfold Checker.matchCall
  split
  · rfl
  · split
    · split
      · rfl
      · simp [accounted, Checker.report, isDuplicate, isUndeclared]
    · simp [accounted, Checker.report, isDuplicate, isUndeclared]

theorem call_accounted (keyed : Keyed c) (callee : Located String) (args : List (Located String)) :
    accounted (c.call callee args).usages (c.call callee args).diagnostics =
      accounted c.usages c.diagnostics + (callee :: args).length := by
  have resolved := resolve_accounted keyed callee
  have matched := match_call_accounted (c.resolve callee) callee args.length
  unfold Checker.call
  dsimp only
  by_cases known : c.table.contains callee.value = true
  · rw [if_pos known, resolve_all_accounted args (match_call_keyed (resolve_keyed keyed callee) _ _),
      matched, resolved, List.length_cons]
    omega
  · rw [if_neg known, resolve_all_accounted args (resolve_keyed keyed callee), resolved,
      List.length_cons]
    omega

/-- A declaration adds a usage or is reported as a repeated one. -/
theorem declare_accounted (c : Checker) (name : Located String) (info : SymbolInfo) :
    accounted (c.declare name info).usages (c.declare name info).diagnostics =
      accounted c.usages c.diagnostics + 1 := by
  by_cases known : c.table.contains name.value = true
  · rw [declare_taken known]
    simp [accounted, Checker.record, Checker.report, isDuplicate, isUndeclared]
    omega
  · obtain ⟨unused, declared⟩ := declare_fresh info (Bool.eq_false_iff.mpr known)
    rw [declared]
    simp [accounted]
    omega

/-- An item adds as many names to the account as stand in it. -/
theorem step_accounted (keyed : Keyed c) (i : Item) :
    accounted (c.step i).usages (c.step i).diagnostics =
      accounted c.usages c.diagnostics + i.names.length := by
  cases i with
  | declaration name info => exact declare_accounted c name info
  | reference name => exact resolve_accounted keyed name
  | call callee args => exact call_accounted keyed callee args

theorem run_accounted (items : Listing) (counts : Counts c before) :
    accounted (c.run items).usages (c.run items).diagnostics =
      accounted c.usages c.diagnostics + (items.flatMap Item.names).length := by
  induction items generalizing c before with
  | nil => rfl
  | cons i items ih =>
    have later := ih (step_accounts counts i)
    have first := step_accounted counts.toKeyed i
    simp only [Checker.run, List.foldl_cons] at later ⊢
    rw [later, first, List.flatMap_cons, List.length_append]
    omega

/-- A report is that of the items read from the tokens of the text. -/
theorem report_of_text {text : String} {report : Report}
    (checked : (checkText text).outcome = .ok report) :
    ∃ tokens items, tokensOf text = .ok tokens ∧
      Listing.read text.toList tokens = .items items ∧ report = items.check := by
  obtain ⟨items, read, same⟩ := checkText_eq_ok_iff.mp checked
  obtain ⟨tokens, lexed, read⟩ := readText_eq_ok_iff.mp read
  exact ⟨tokens, items, lexed, read, same⟩

/-- The identifiers of a text that is checked are the names of its items, in
order, and each of them is in its report once: as a declared name, a repeated
declaration, a use or an undeclared name. -/
theorem names_conserved {text : String} {report : Report}
    (checked : (checkText text).outcome = .ok report) :
    ∃ tokens items, tokensOf text = .ok tokens ∧
      Listing.read text.toList tokens = .items items ∧ report = items.check ∧
      identifiers tokens = items.flatMap Item.names ∧
      (identifiers tokens).length =
        report.usages.length + report.diagnostics.countP isDuplicate +
          (report.usages.map Usage.uses).sum + report.diagnostics.countP isUndeclared := by
  obtain ⟨tokens, items, lexed, read, rfl⟩ := report_of_text checked
  have names := text_names lexed read
  have account := run_accounted items counts_nothing
  refine ⟨tokens, items, lexed, read, rfl, names, ?_⟩
  rw [names]
  simpa [accounted, Listing.check, Report.ofChecker] using account.symm

/-- A listing with a name in each of the four places, and in a call that is
wrong itself. -/
theorem names_conserved_mixed :
    ∃ tokens report, (checkText "int a;fn a(0)->int;call a(a,b);use b;").outcome = .ok report ∧
      tokensOf "int a;fn a(0)->int;call a(a,b);use b;" = .ok tokens ∧
      (identifiers tokens).length = 6 ∧
      report.usages.length + report.diagnostics.countP isDuplicate +
        (report.usages.map Usage.uses).sum + report.diagnostics.countP isUndeclared = 6 := by
  have shape : ((checkText "int a;fn a(0)->int;call a(a,b);use b;").outcome.toOption.map
      fun r => (r.usages.length, r.diagnostics.countP isDuplicate,
        (r.usages.map Usage.uses).sum, r.diagnostics.countP isUndeclared)) =
      some (1, 1, 2, 2) := by decide +kernel
  cases checked : (checkText "int a;fn a(0)->int;call a(a,b);use b;").outcome with
  | error e => simp [checked, Except.toOption] at shape
  | ok report =>
    simp only [checked, Except.toOption, Option.map_some, Option.some.injEq, Prod.mk.injEq] at shape
    obtain ⟨usages, duplicates, uses, undeclared⟩ := shape
    obtain ⟨tokens, items, lexed, -, -, -, total⟩ := names_conserved checked
    rw [usages, duplicates, uses, undeclared] at total
    exact ⟨tokens, report, rfl, lexed, total, by rw [usages, duplicates, uses, undeclared]⟩

end DeclListing.NameConservation
