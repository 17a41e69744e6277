import DeclListing.Proofs.LexerTiling
import DeclListing.Proofs.NameConservation
import DeclListing.Proofs.RenderingRoundTrip

/-! What is read from a text can be written again. Its names are words of the text
that are not reserved, because they were lexed, and its declarations say no more
than their kinds admit, because they were derived. So the listing has a canonical
text; reading that gives the same statements, and statements are all that a
canonical text depends on. -/
namespace DeclListing.Reprinting
open Lexeme LexerTiling TokenGrammarExactness ListingGrammarExactness NameConservation
open CanonicalText RenderingRoundTrip

variable {text : String} {tokens segment : List Token} {t : Token} {i j : Item}
  {items again : Listing} {name : Located String} {info : SymbolInfo}

/-- A name that stands in a text: a word that is not reserved, read from the
stretch of its own token. -/
structure NamedIn (text : List Char) (name : Located String) : Prop where
  /-- It is a name. -/
  valid : IsName name.value
  /-- Its token is this name. -/
  token : name.token.terminal = .identifier name.value
  /-- The text has it where the token stands. -/
  written : Text.slice? text name.token.span.start name.token.span.stop = some name.value.toList

/-- A token of a text is written in its stretch. -/
theorem token_written (lexed : tokensOf text = .ok tokens) (listed : t ∈ tokens)
    (plain : t.terminal ≠ .eof) :
    ∃ written, Text.slice? text.toList t.span.start t.span.stop = some written ∧
      Form written t.terminal := by
  have answered : .ok t ∈ (Lexer.ofText text).drain.1 := by
    rw [tokens_answered lexed]
    exact List.mem_map_of_mem listed
  obtain ⟨written, cut, form⟩ := tiles_cut (drain_tiles (stands_at_start text)) (.ok t) answered
  exact ⟨written, cut, form t rfl plain⟩

/-- An identifier is written as it is. -/
theorem identifier_written {name : String} {written : List Char}
    (form : Form written (.identifier name)) : written = name.toList := by
  cases form with
  | identifier => rw [String.toList_ofList]

/-- The identifiers among the tokens of a text stand in it. -/
theorem identifier_in_text (lexed : tokensOf text = .ok tokens)
    (found : name ∈ identifiers tokens) : NamedIn text.toList name := by
  obtain ⟨t, listed, same⟩ := List.mem_filterMap.mp found
  obtain ⟨word, meant, rfl⟩ := Option.map_eq_some_iff.mp same
  have word := Terminal.identifier?_eq_some_iff.mp meant
  obtain ⟨written, cut, form⟩ := token_written lexed listed (by simp [word])
  rw [word] at form
  exact ⟨name_of_form form, word, cut.trans (congrArg some (identifier_written form))⟩

/-- The names of what is read stand in the text. -/
theorem names_in_text (lexed : tokensOf text = .ok tokens)
    (read : Listing.read text.toList tokens = .items items) (named : i ∈ items)
    (among : name ∈ i.names) : NamedIn text.toList name := by
  apply identifier_in_text lexed
  rw [text_names lexed read]
  exact List.mem_flatMap.mpr ⟨i, named, among⟩

theorem declaration_well_formed (derived : Derives.Item segment (.declaration name info)) :
    WellFormedInfo info := by
  cases derived with
  | plain _ declares => exact declares_well_formed declares
  | initialized _ initializes => exact initializes_well_formed initializes
  | function _ _ _ _ _ _ _ names => exact function_info_well_formed _ names

theorem derived_of_mem (derived : Derives.Listing segment items) (listed : i ∈ items) :
    ∃ part, Derives.Item part i := by
  induction derived with
  | nothing => cases listed
  | item first _ ih =>
    rcases List.mem_cons.mp listed with rfl | later
    · exact ⟨_, first⟩
    · exact ih later

/-- What is read can be written. -/
theorem read_well_formed (lexed : tokensOf text = .ok tokens)
    (read : Listing.read text.toList tokens = .items items) : WellFormed items := by
  intro i listed
  constructor
  · intro name among
    exact (names_in_text lexed read listed among).valid
  · rintro name info rfl
    obtain ⟨rest, whole⟩ := read_eq_items_iff.mp read
    obtain ⟨part, derived⟩ := derived_of_mem (listing_sound whole) listed
    exact declaration_well_formed derived

/-- The canonical terminals of an item depend on what it says only. -/
theorem terminals_of_statement (same : statement i = statement j) : i.terminals = j.terminals := by
  cases i <;> cases j <;> simp_all [statement, Item.terminals]

theorem text_of_statements (same : again.map statement = items.map statement) :
    again.text = items.text := by
  have terminals : again.flatMap Item.terminals = items.flatMap Item.terminals := by
    induction again generalizing items with
    | nil =>
      obtain rfl := List.map_eq_nil_iff.mp same.symm
      rfl
    | cons i again ih =>
      obtain ⟨j, others, rfl, first, more⟩ := List.map_eq_cons_iff.mp same.symm
      rw [List.flatMap_cons, List.flatMap_cons, ih more.symm, terminals_of_statement first]
  rw [Listing.text, Listing.text, terminals]

/-- A listing that can be written is read from its canonical text, up to the
places of its names, and has the same canonical text then. -/
theorem text_read_back (wellFormed : WellFormed items) :
    ∃ again, readText items.text = .ok again ∧ again.map statement = items.map statement ∧
      again.text = items.text := by
  obtain ⟨tokens, again, lexed, read, same⟩ := reads_back_of_apart (text_apart wellFormed)
  exact ⟨again, readText_eq_ok_iff.mpr ⟨tokens, lexed, read⟩, same, text_of_statements same⟩

/-- Every name that is read from a text is a name and stands in the text at its
token, and every declaration is one that can be written. The canonical text of
what was read is read as the same statements, and it is the canonical text of
those as well. -/
theorem reading_reprintable (read : readText text = .ok items) :
    (∀ i ∈ items, ∀ name ∈ i.names, NamedIn text.toList name) ∧
    (∀ name info, .declaration name info ∈ items → WellFormedInfo info) ∧
    ∃ again, readText items.text = .ok again ∧ again.map statement = items.map statement ∧
      again.text = items.text := by
  obtain ⟨tokens, lexed, read⟩ := readText_eq_ok_iff.mp read
  have wellFormed := read_well_formed lexed read
  refine ⟨fun i listed name among => names_in_text lexed read listed among, ?_,
    text_read_back wellFormed⟩
  intro name info listed
  exact (wellFormed _ listed).2 name info rfl

/-- A listing with a sign apart from its digits, leading zeros, an escape that the
canonical text does without, and a comment. -/
theorem spread_listing_reprinted :
    ∃ items again,
      readText "int x = -\n007; // c\nstr s=\"\\ta\\'\\\"\";fn f(-0)->int;call f( x,s );" =
        .ok items ∧
      items.text = "int x = - 7 ; str s = \"\ta'\\\"\" ; fn f ( 0 ) -> int ; call f ( x , s ) ;" ∧
      readText items.text = .ok again ∧ again.map statement = items.map statement ∧
      again.text = items.text := by
  have shape : (readText
      "int x = -\n007; // c\nstr s=\"\\ta\\'\\\"\";fn f(-0)->int;call f( x,s );").toOption.map
        Listing.text =
      some "int x = - 7 ; str s = \"\ta'\\\"\" ; fn f ( 0 ) -> int ; call f ( x , s ) ;" := by
    decide +kernel
  cases read : readText
      "int x = -\n007; // c\nstr s=\"\\ta\\'\\\"\";fn f(-0)->int;call f( x,s );" with
  | error e => simp [read, Except.toOption] at shape
  | ok items =>
    rw [read] at shape
    obtain ⟨-, -, again, readBack, same, stable⟩ := reading_reprintable read
    exact ⟨items, again, rfl, Option.some.inj shape, readBack, same, stable⟩

end DeclListing.Reprinting
