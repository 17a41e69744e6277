import DeclListing.Listing.Rendering

/-! A listing can be written when its names are names and its declarations say
no more than their kinds admit. The canonical terminals of its items are then
among those that can be written for them, and the spelling of each is a way to
write it. -/
namespace DeclListing.CanonicalText
open Lexeme

variable {written : List Char} {info : SymbolInfo} {i : Item}

private theorem digit_char {n : Nat} (small : n < 10) :
    n.digitChar.isDigit = true ∧ digitValue n.digitChar = n := by
  have all : ∀ n < 10, n.digitChar.isDigit = true ∧ digitValue n.digitChar = n := by decide
  exact all n small

private theorem decimal_value_snoc (digits : List Char) (c : Char) :
    decimalValue (digits ++ [c]) = 10 * decimalValue digits + digitValue c := by
  simp [decimalValue]

/-- The decimal digits of a number are digits, and they denote it. -/
theorem decimal_digits (n : Nat) :
    decimalDigits n ≠ [] ∧ (∀ c ∈ decimalDigits n, c.isDigit = true) ∧
      decimalValue (decimalDigits n) = n := by
  fun_induction decimalDigits n with
  | case1 n small =>
    obtain ⟨digit, value⟩ := digit_char small
    exact ⟨by simp, by simpa using digit, by simpa [decimalValue] using value⟩
  | case2 n _ ih =>
    obtain ⟨digit, value⟩ := digit_char (Nat.mod_lt n (by decide : 10 > 0))
    obtain ⟨_, digits, front⟩ := ih
    refine ⟨by simp, ?_, ?_⟩
    · intro c member
      rcases List.mem_append.mp member with earlier | last
      · exact digits c earlier
      · rw [List.mem_singleton.mp last]
        exact digit
    · rw [decimal_value_snoc, front, value]
      exact Nat.div_add_mod n 10

theorem integer_form (value : UInt64) : Form (Terminal.integer value).spelling (.integer value) :=
  form_integer_iff.mpr (decimal_digits value.toNat)

private theorem string_body (value : List Char) : StringBody (value.flatMap writtenInString) value := by
  induction value with
  | nil => exact .nothing
  | cons c value ih =>
    rw [List.flatMap_cons, writtenInString]
    split
    · rename_i special
      rcases special with rfl | rfl
      · exact .escape .quote ih
      · exact .escape .backslash ih
    · rename_i other
      exact .plain (fun same => other (.inl same)) (fun same => other (.inr same)) ih

theorem string_form (value : String) : Form (Terminal.string value).spelling (.string value) := by
  have form := Form.string (string_body value.toList)
  rwa [String.ofList_toList] at form

theorem identifier_form {name : String} (valid : IsName name) :
    Form (Terminal.identifier name).spelling (.identifier name) := by
  have form := Form.identifier valid.1 valid.2
  rwa [String.ofList_toList] at form

/-- Only names are written as identifiers. -/
theorem name_of_form {name : String} (form : Form written (.identifier name)) : IsName name := by
  cases form with
  | identifier word free => exact ⟨by rwa [String.toList_ofList], by rwa [String.toList_ofList]⟩

/-- A declaration says what its kind admits: values of the sorts of the kind,
not more than one, and of a function no result that is a function. -/
def WellFormedInfo (info : SymbolInfo) : Prop :=
  match info.type with
  | .int => info.strVal = ""
  | .str => info.intVal = 0
  | .intOrStr => info.intVal = 0 ∨ info.strVal = ""
  | .undefined => info.intVal = 0 ∧ info.strVal = ""
  | .function _ result => result ≠ .function ∧ info.intVal = 0 ∧ info.strVal = ""

/-- The names of an item can be written, and so can what it declares. -/
def WellFormedItem (i : Item) : Prop :=
  (∀ name ∈ i.names, IsName name.value) ∧
    ∀ name info, i = .declaration name info → WellFormedInfo info

/-- Every item of a listing can be written. -/
def WellFormed (items : Listing) : Prop :=
  ∀ i ∈ items, WellFormedItem i

/-- A word for a kind alone says what the kind admits. -/
theorem declares_well_formed {word : Keyword} (declares : Derives.Declares word info) :
    WellFormedInfo info := by
  cases declares <;> simp [WellFormedInfo]

/-- So does such a word with an initializer that it can have. -/
theorem initializes_well_formed {word : Keyword} {value : Literal}
    (initializes : Derives.Initializes word value info) : WellFormedInfo info := by
  cases initializes <;> simp [WellFormedInfo]

theorem function_info_well_formed (params : UInt16) {word : Keyword} {returned : Kind}
    (names : Derives.ValueWord word returned) :
    WellFormedInfo { type := .function params returned } := by
  cases names <;> simp [WellFormedInfo]

private theorem value_declaration_writes (name : Located String) (kind : ValueKind)
    (typed : info.type = kind.type) (fits : WellFormedInfo info) :
    (Item.declaration name info).Writes
      ([.keyword kind.keyword, .identifier name.value] ++ info.initializer ++ [.semicolon]) := by
  obtain ⟨type, intVal, strVal⟩ := info
  subst typed
  unfold SymbolInfo.initializer
  dsimp only
  by_cases zero : intVal = 0
  · subst zero
    by_cases empty : strVal = ""
    · subst empty
      exact .plain name (.of_kind kind)
    · have admitted : kind.admits (Literal.string strVal).sort = true := by
        cases kind <;> first | rfl | exact absurd fits (by simp [WellFormedInfo, ValueKind.type, empty])
      have writes := Item.Writes.initialized name (.of_kind admitted)
      simpa [empty, Literal.terminals, ValueKind.infoWith] using writes
  · have admitted : kind.admits (Literal.integer intVal).sort = true ∧ strVal = "" := by
      cases kind <;> simp_all [WellFormedInfo, ValueKind.type, ValueKind.admits, Literal.sort]
    obtain ⟨admitted, rfl⟩ := admitted
    have writes := Item.Writes.initialized name (.of_kind admitted)
    simpa [zero, Literal.terminals, ValueKind.infoWith] using writes

private theorem value_kind_of_result {result : Kind} (value : result ≠ .function) :
    ∃ kind : ValueKind, kind.kind = result ∧ kind.keyword = result.keyword := by
  cases result with
  | function => exact absurd rfl value
  | int => exact ⟨.int, rfl, rfl⟩
  | str => exact ⟨.str, rfl, rfl⟩
  | intOrStr => exact ⟨.intOrStr, rfl, rfl⟩
  | undefined => exact ⟨.undefined, rfl, rfl⟩

/-- The canonical terminals of an item are written for it. -/
theorem item_writes (wellFormed : WellFormedItem i) : i.Writes i.terminals := by
  cases i with
  | declaration name info =>
    have fits := wellFormed.2 name info rfl
    obtain ⟨type, intVal, strVal⟩ := info
    cases type with
    | function params result =>
      obtain ⟨value, rfl, rfl⟩ := fits
      obtain ⟨kind, rfl, word⟩ := value_kind_of_result value
      have writes := Item.Writes.function name params (.of_kind kind)
      rwa [word] at writes
    | int => exact value_declaration_writes name .int rfl fits
    | str => exact value_declaration_writes name .str rfl fits
    | intOrStr => exact value_declaration_writes name .intOrStr rfl fits
    | undefined => exact value_declaration_writes name .undefined rfl fits
  | reference name => exact .reference name
  | call callee args => simpa [Item.terminals] using Item.Writes.call callee args

private theorem integer_spelled (value : Int) : ∀ t ∈ integerTerminals value, Form t.spelling t := by
  have digits := integer_form (UInt64.ofNat value.natAbs)
  unfold integerTerminals
  split
  · simpa using ⟨Form.minus, digits⟩
  · simpa using digits

theorem name_terminals_cons (name next : String) (names : List String) :
    nameTerminals (name :: next :: names) =
      .identifier name :: .comma :: nameTerminals (next :: names) := rfl

private theorem mem_name_terminals {name : String} {names : List String} (member : name ∈ names) :
    .identifier name ∈ nameTerminals names := by
  induction names with
  | nil => simp at member
  | cons first names ih =>
    cases names with
    | nil => simpa [nameTerminals] using member
    | cons next names =>
      rw [name_terminals_cons]
      rcases List.mem_cons.mp member with rfl | later
      · simp
      · simp [ih later]

private theorem names_spelled {names : List String} (valid : ∀ name ∈ names, IsName name) :
    ∀ t ∈ nameTerminals names, Form t.spelling t := by
  induction names with
  | nil => simp [nameTerminals]
  | cons name names ih =>
    have first := identifier_form (valid name (by simp))
    have rest := ih fun other member => valid other (by simp [member])
    cases names with
    | nil => simpa [nameTerminals] using first
    | cons next names => simpa [name_terminals_cons] using ⟨first, Form.comma, rest⟩

private theorem initializer_spelled (info : SymbolInfo) :
    ∀ t ∈ info.initializer, Form t.spelling t := by
  unfold SymbolInfo.initializer
  split
  · simpa using ⟨Form.equal, integer_spelled info.intVal.toInt⟩
  · split
    · simpa using ⟨Form.equal, string_form info.strVal⟩
    · simp

private theorem keyword_form (k : Keyword) : Form (Terminal.keyword k).spelling (.keyword k) :=
  .keyword (reserved_iff.mpr rfl)

/-- Each canonical terminal of an item is written by its spelling. -/
theorem item_spelled (wellFormed : WellFormedItem i) : ∀ t ∈ i.terminals, Form t.spelling t := by
  obtain ⟨names, -⟩ := wellFormed
  cases i with
  | declaration name info =>
    have named := identifier_form (names name (by simp [Item.names]))
    have initializer := initializer_spelled info
    unfold Item.terminals
    dsimp only
    split
    · rename_i params result _
      simpa using ⟨keyword_form .function, named, Form.lparen, integer_form params.toUInt64,
        Form.rparen, Form.arrow, keyword_form result.keyword, Form.semicolon⟩
    · simpa [or_imp, forall_and] using ⟨keyword_form _, named, initializer, Form.semicolon⟩
  | reference name =>
    have named := identifier_form (names name (by simp [Item.names]))
    simpa [Item.terminals] using ⟨keyword_form .reference, named, Form.semicolon⟩
  | call callee args =>
    have named := identifier_form (names callee (by simp [Item.names]))
    have valid : ∀ name ∈ args.map Located.value, IsName name := fun name member => by
      obtain ⟨arg, passed, rfl⟩ := List.mem_map.mp member
      exact names arg (by simp [Item.names, passed])
    have arguments := names_spelled valid
    simpa [Item.terminals, or_imp, forall_and] using
      ⟨keyword_form .call, named, Form.lparen, arguments, Form.rparen, Form.semicolon⟩

/-- Only items that can be written are written, whatever the lexemes look
like. -/
theorem well_formed_of_writes {terminals : List Terminal} (writes : i.Writes terminals)
    (forms : ∀ t ∈ terminals, ∃ written, Form written t) : WellFormedItem i := by
  have names : ∀ name, .identifier name ∈ terminals → IsName name := fun name member =>
    (forms _ member).elim fun _ form => name_of_form form
  cases writes with
  | plain name declares =>
    refine ⟨by simpa [Item.names] using names name.value (by simp), ?_⟩
    rintro _ _ ⟨rfl, rfl⟩
    exact declares_well_formed declares
  | initialized name initializes =>
    refine ⟨by simpa [Item.names] using names name.value (by simp), ?_⟩
    rintro _ _ ⟨rfl, rfl⟩
    exact initializes_well_formed initializes
  | function name params word =>
    refine ⟨by simpa [Item.names] using names name.value (by simp), ?_⟩
    rintro _ _ ⟨rfl, rfl⟩
    exact function_info_well_formed params word
  | reference name =>
    refine ⟨by simpa [Item.names] using names name.value (by simp), ?_⟩
    rintro _ _ ⟨⟩
  | call callee args =>
    constructor
    · intro name member
      rcases List.mem_cons.mp member with rfl | passed
      · exact names _ (by simp)
      · exact names _ (by simp [mem_name_terminals, List.mem_map_of_mem passed])
    · rintro _ _ ⟨⟩

end DeclListing.CanonicalText
