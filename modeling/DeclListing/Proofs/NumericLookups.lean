import DeclListing.Proofs.RecordCodec
import DeclListing.Proofs.Reprinting

/-! Names looked up in the numeric form. The record of an absent name is that of the
default information and of no other. A declaration made by hand can give a value to
an `undefined` name, which has a record of its own then; one that is read from a
text cannot. So behind a text the records of absent names and of `undefined` ones
are the same, and all other records tell what was declared. -/
namespace DeclListing.NumericLookups
open CheckDiagnostics RecordCodec Reprinting CanonicalText

variable {text name : String} {items : Listing} {first : Located SymbolInfo}

/-- Different symbol information has different records. -/
theorem record_injective {info other : SymbolInfo} (same : info.toRecord = other.toRecord) :
    info = other := by
  have read := info_read_back info
  rw [same, info_read_back] at read
  exact (Except.ok.inj read).symm

/-- The table of a check has of a name what its first declaration says. -/
theorem info_of_listing (items : Listing) (name : String) :
    items.check.table.info? name = (items.firstDeclaration? name).map Located.value :=
  (run_exact items tracks_nothing).2.info name

/-- The record of a declared name is that of its first declaration. -/
theorem record_of_declared (known : items.firstDeclaration? name = some first) :
    items.check.table.record name = first.value.toRecord := by
  rw [SymbolTable.record, info_of_listing, known]
  rfl

theorem record_of_absent (absent : items.firstDeclaration? name = none) :
    items.check.table.record name = .notFound := by
  rw [SymbolTable.record, info_of_listing, absent]
  rfl

/-- The record of a declared name is that of an absent one exactly when nothing but
the default was declared. -/
theorem not_found_iff (known : items.firstDeclaration? name = some first) :
    items.check.table.record name = .notFound ↔ first.value = {} := by
  rw [record_of_declared known]
  constructor
  · intro same
    have empty : first.value.toRecord = SymbolInfo.toRecord {} := same
    exact record_injective empty
  · intro default
    rw [default]
    rfl

/-- What a text declares as `undefined` has no value. -/
theorem undefined_without_value (read : readText text = .ok items)
    (known : items.firstDeclaration? name = some first) :
    first.value = {} ↔ first.value.type = .undefined := by
  obtain ⟨tokens, lexed, read⟩ := readText_eq_ok_iff.mp read
  have fits := (read_well_formed lexed read _ (first_declaration_mem known)).2 _ _ rfl
  constructor
  · intro default
    rw [default]
  · intro undefined
    obtain ⟨⟨type, intVal, strVal⟩, token⟩ := first
    obtain rfl : type = .undefined := undefined
    obtain ⟨rfl, rfl⟩ := fits
    rfl

/-- Behind a text, a look-up in the numeric form answers with the record of an absent
name exactly when the name is not declared or first declared as `undefined`. Of a
declared name the record is always read as what the first declaration says, and
whether a name is declared can be asked for itself. -/
theorem numeric_lookup_exact {text : String} {report : Report}
    (checked : (checkText text).outcome = .ok report) (name : String) :
    ∃ items, readText text = .ok items ∧
      (report.table.record name = .notFound ↔
        items.firstDeclaration? name = none ∨
          ∃ first, items.firstDeclaration? name = some first ∧ first.value.type = .undefined) ∧
      (∀ first, items.firstDeclaration? name = some first →
        (report.table.record name).toInfo = .ok first.value) ∧
      (report.table.contains name = true ↔ items.firstDeclaration? name ≠ none) := by
  obtain ⟨items, read, rfl⟩ := checkText_eq_ok_iff.mp checked
  refine ⟨items, read, ?_, ?_, ?_⟩
  · cases known : items.firstDeclaration? name with
    | none => simp [record_of_absent known]
    | some first => simp [not_found_iff known, undefined_without_value read known]
  · intro first known
    rw [record_of_declared known]
    exact info_read_back first.value
  · rw [Option.ne_none_iff_isSome]
    exact Bool.eq_iff_iff.mp (contains_iff (run_exact items tracks_nothing).2 name)

/-- A name that is declared as `undefined` first, and as something else later, looks
absent in the numeric form. One that is declared the other way round does not. -/
theorem undefined_first_looks_absent :
    ∃ report, (checkText "undefined u;int x=-3;int u;undefined x;").outcome = .ok report ∧
      report.table.record "u" = .notFound ∧ report.table.contains "u" = true ∧
      (report.table.record "x").toInfo = .ok { type := .int, intVal := -3 } := by
  have declared : (readText "undefined u;int x=-3;int u;undefined x;").toOption.map
      (fun items => (Listing.firstDeclaration? items "u", Listing.firstDeclaration? items "x")) =
      some (some ⟨{}, ⟨.identifier "u", ⟨10, 11⟩, 1⟩⟩,
        some ⟨{ type := .int, intVal := -3 }, ⟨.identifier "x", ⟨16, 17⟩, 1⟩⟩) := by
    decide +kernel
  cases read : readText "undefined u;int x=-3;int u;undefined x;" with
  | error e => simp [read, Except.toOption] at declared
  | ok items =>
    simp only [read, Except.toOption, Option.map_some, Option.some.injEq, Prod.mk.injEq] at declared
    obtain ⟨undefined, integer⟩ := declared
    have checked := checkText_eq_ok_iff.mpr ⟨items, read, rfl⟩
    obtain ⟨_, again, absent, -, known⟩ := numeric_lookup_exact checked "u"
    obtain ⟨_, again', -, info, -⟩ := numeric_lookup_exact checked "x"
    obtain rfl := Except.ok.inj (read.symm.trans again)
    obtain rfl := Except.ok.inj (read.symm.trans again')
    exact ⟨_, checked, absent.mpr (.inr ⟨_, undefined, rfl⟩), known.mpr (by simp [undefined]),
      info _ integer⟩

end DeclListing.NumericLookups
