import DeclListing.Proofs.CanonicalText
import DeclListing.Proofs.ListingGrammarExactness
import DeclListing.Proofs.TokenGrammarExactness

/-! A text of a listing is read back as that listing, whatever blanks, comments,
leading zeros and escapes it was written with, as long as no comment stands
directly behind the digits of an integer; a text with such a comment is refused
at its first slash. Reading back is against the items without the places of
their names, because two texts of one listing have them in different places. -/
namespace DeclListing.RenderingRoundTrip
open Lexeme TokenGrammarExactness ListingGrammarExactness CanonicalText

variable {text gap after written rest : List Char} {previous : Option Terminal} {t p : Terminal}
  {terminals : List Terminal} {tokens : List Token} {items : Listing} {i : Item}

/-- What an item says, without the tokens it was read from. -/
inductive Statement where
  | declaration (name : String) (info : SymbolInfo)
  | reference (name : String)
  | call (callee : String) (args : List String)
  deriving DecidableEq, Repr

/-- The statement of an item. -/
def statement : Item → Statement
  | .declaration name info => .declaration name.value info
  | .reference name => .reference name.value
  | .call callee args => .call callee.value (args.map Located.value)

/-- A text is read, and its items say what these say. -/
def ReadsBack (text : String) (items : Listing) : Prop :=
  ∃ tokens read, tokensOf text = .ok tokens ∧ Listing.read text.toList tokens = .items read ∧
    read.map statement = items.map statement

/-- What stands behind an integer does not start with a slash. Between lexemes
a slash is always that of a comment. -/
def Apart (previous : Option Terminal) (after : List Char) : Prop :=
  ∀ value, previous = some (.integer value) → after.head? ≠ some '/'

/-- The texts of a sequence of terminals in which no comment stands directly
behind an integer. -/
inductive RendersApart : Option Terminal → List Terminal → List Char → Prop where
  | done {previous : Option Terminal} {last : List Char} :
      Apart previous last → Gap last [] → RendersApart previous [] last
  | lexeme {previous : Option Terminal} {t : Terminal} {terminals : List Terminal}
      {gap written rest : List Char} :
      Apart previous (gap ++ written ++ rest) →
      (∀ after, Gap gap after) → (∀ p ∈ previous, runTogether p t = true → gap ≠ []) →
      Form written t → RendersApart (some t) terminals rest →
      RendersApart previous (t :: terminals) (gap ++ written ++ rest)

/-- The texts of a listing in which no comment stands directly behind an
integer. -/
def ListingApart (items : Listing) (text : String) : Prop :=
  ∃ terminals, items.Writes terminals ∧ RendersApart none terminals text.toList

theorem renders_of_apart (apart : RendersApart previous terminals text) :
    Renders previous terminals text := by
  induction apart with
  | done _ trivia => exact .done trivia
  | lexeme _ trivia separated form _ ih => exact .lexeme trivia separated form ih

theorem apart_of_renders_apart (apart : RendersApart previous terminals text) :
    Apart previous text := by
  cases apart <;> assumption

theorem listing_renders {text : String} (apart : ListingApart items text) :
    items.Renders text := by
  obtain ⟨terminals, writes, apart⟩ := apart
  exact ⟨terminals, writes, renders_of_apart apart⟩

/-- No lexeme starts with an arrowhead. Only words and integers start with a
character of words, and only those and strings with one that cannot follow an
integer. -/
private theorem form_head (form : Form written t) :
    ∃ c cs, written = c :: cs ∧ c ≠ '>' ∧
      (t.isWordLike = false → isWordPart c = false ∧
        ((∀ value, t ≠ .string value) → endsNumber c = true)) := by
  cases form with
  | comma | lparen | rparen | semicolon | equal | arrow | minus =>
    exact ⟨_, _, rfl, by decide, fun _ => ⟨rfl, fun _ => rfl⟩⟩
  | string => exact ⟨_, _, rfl, by decide, fun _ => ⟨rfl, fun other => (other _ rfl).elim⟩⟩
  | keyword reserved =>
    obtain ⟨c, cs, spelled, start⟩ := word_cons (reserved_is_word reserved)
    exact ⟨c, cs, spelled, word_part_ne (by simp [isWordPart, start]) rfl,
      by simp [Terminal.isWordLike]⟩
  | identifier word _ =>
    obtain ⟨c, cs, spelled, start⟩ := word_cons word
    exact ⟨c, cs, spelled, word_part_ne (by simp [isWordPart, start]) rfl,
      by simp [Terminal.isWordLike]⟩
  | integer nonempty all _ =>
    obtain ⟨c, cs, spelled⟩ := List.exists_cons_of_ne_nil nonempty
    have part := isWordPart_iff.mpr (.inr (all c (by simp [spelled])))
    exact ⟨c, cs, spelled, word_part_ne part rfl,
      by simp [Terminal.isWordLike]⟩

private theorem gap_head (trivia : Gap gap after) (nonempty : gap ≠ []) :
    ∃ c cs, gap = c :: cs ∧ (Trivia.isBlank c = true ∨ c = '/') := by
  cases trivia with
  | nothing => exact absurd rfl nonempty
  | blank listed _ => exact ⟨_, _, rfl, .inl (isBlank_iff.mpr listed)⟩
  | comment => exact ⟨_, _, rfl, .inr rfl⟩

private theorem follow_nil (p : Terminal) : CanFollow p [] := by
  cases p <;> simp [CanFollow]

/-- Blanks and comments can follow any lexeme, apart from a comment that
touches an integer. -/
private theorem follow_trivia {c : Char} (trivia : Trivia.isBlank c = true ∨ c = '/')
    (apart : Apart (some p) (c :: rest)) : CanFollow p (c :: rest) := by
  have plain : c ≠ '>' ∧ isWordPart c = false ∧ (c ≠ '/' → endsNumber c = true) := by
    simp only [Trivia.isBlank, Bool.or_eq_true, decide_eq_true_eq] at trivia
    rcases trivia with (((rfl | rfl) | rfl) | rfl) | rfl
    all_goals decide
  cases p with
  | integer value =>
    have noSlash : c ≠ '/' := fun same => apart value rfl (by simp [same])
    exact follow_integer_iff.mpr (by simpa using plain.2.2 noSlash)
  | keyword | identifier => exact (follow_word_iff (by simp)).mpr (by simpa using plain.2.1)
  | minus => simpa [CanFollow] using plain.1
  | _ => exact trivial

/-- A lexeme can follow any other that it does not run together with. -/
private theorem follow_form {c : Char} (noHead : c ≠ '>')
    (mark : t.isWordLike = false → isWordPart c = false ∧
      ((∀ value, t ≠ .string value) → endsNumber c = true))
    (parted : runTogether p t = false) : CanFollow p (c :: rest) := by
  cases p with
  | minus => simpa [CanFollow] using noHead
  | keyword | identifier =>
    have other : t.isWordLike = false := by simpa [runTogether, Terminal.isWordLike] using parted
    exact (follow_word_iff (by simp)).mpr (by simpa using (mark other).1)
  | integer value =>
    have other : t.isWordLike = false ∧ ∀ value, t ≠ .string value := by
      cases t <;> simp_all [runTogether, Terminal.isWordLike]
    exact follow_integer_iff.mpr (by simpa using (mark other.1).2 other.2)
  | _ => exact trivial

/-- What is written behind a lexeme does not become part of it. -/
theorem renders_follow (renders : Renders (some p) terminals text) (apart : Apart (some p) text) :
    CanFollow p text := by
  cases renders with
  | done trivia =>
    by_cases empty : text = []
    · rw [empty]
      exact follow_nil p
    · obtain ⟨c, cs, rfl, first⟩ := gap_head trivia empty
      exact follow_trivia first apart
  | @lexeme _ t _ gap written rest trivia separated form _ =>
    by_cases empty : gap = []
    · subst empty
      obtain ⟨c, cs, rfl, noHead, mark⟩ := form_head form
      have parted : runTogether p t = false := by simpa using separated p rfl
      exact follow_form noHead mark parted
    · obtain ⟨c, cs, rfl, first⟩ := gap_head (trivia []) empty
      exact follow_trivia first apart

/-- A text without a comment behind an integer is made of the pieces that were
written. -/
theorem pieces_of_apart (apart : RendersApart previous terminals text) :
    ∃ pieces last, Decomposition text pieces last ∧ pieces.map Piece.terminal = terminals := by
  induction apart with
  | done _ trivia => exact ⟨[], _, .done trivia, rfl⟩
  | @lexeme _ t _ gap written rest _ trivia _ form more ih =>
    obtain ⟨pieces, last, parts, same⟩ := ih
    have follow := renders_follow (renders_of_apart more) (apart_of_renders_apart more)
    have more : Decomposition ((Piece.mk gap written t).text ++ rest) (⟨gap, written, t⟩ :: pieces)
        last := .piece (trivia _) form follow parts
    exact ⟨_, last, more, by simp [same]⟩

/-- A written text has no comment behind an integer, or starts with one behind
the integer before it, or is refused at the slash of one. -/
theorem apart_or_refused (renders : Renders previous terminals text) {l : Lexer}
    (unfinished : l.finished = false) (here : l.rest = text) :
    RendersApart previous terminals text ∨ ¬ Apart previous text ∨
      ∃ token, l.tokenize.1 = .error ⟨.invalidDigit '/', token⟩ := by
  induction renders generalizing l with
  | @done previous last trivia =>
    by_cases apart : Apart previous last
    · exact .inl (.done apart trivia)
    · exact .inr (.inl apart)
  | @lexeme previous t terminals gap written rest trivia separated form more ih =>
    by_cases apart : Apart previous (gap ++ written ++ rest)
    · by_cases behindApart : Apart (some t) rest
      · have follow := renders_follow more behindApart
        have step := tokenize_piece (p := ⟨gap, written, t⟩) unfinished here (trivia _) form follow
        rcases ih (l := behind l ⟨gap, written, t⟩ rest) unfinished rfl with
          whole | touching | ⟨token, refused⟩
        · exact .inl (.lexeme apart trivia separated form whole)
        · exact (touching behindApart).elim
        · exact .inr (.inr ⟨token, by rw [step, refused]; rfl⟩)
      · obtain ⟨value, rfl, slash⟩ : ∃ value, t = .integer value ∧ rest.head? = some '/' := by
          simpa [Apart] using behindApart
        obtain ⟨tail, rfl⟩ := List.head?_eq_some_iff.mp slash
        rw [List.append_assoc] at here
        obtain ⟨token, moved, read⟩ := next_refused here (trivia _) form rfl rfl
        exact .inr (.inr ⟨token, by rw [tokenize_error unfinished read]⟩)
    · exact .inr (.inl apart)

/-- The terminals of the tokens of pieces are those of the pieces, and the
end. -/
theorem placed_terminals (offset line : Nat) (pieces : List Piece) (last : List Char) :
    (placedTokens offset line pieces last).map Token.terminal =
      pieces.map Piece.terminal ++ [.eof] := by
  induction pieces generalizing offset line with
  | nil => rfl
  | cons p pieces ih => simp [placedTokens, ih]

private theorem piece_not_end {pieces : List Piece} {last : List Char}
    (parts : Decomposition text pieces last) : ∀ t ∈ pieces.map Piece.terminal, t ≠ .eof := by
  induction parts with
  | done => simp
  | piece _ form _ _ ih => simpa using ⟨form_not_end form, by simpa using ih⟩

/-- The tokens before the end have the terminals of the pieces. -/
theorem before_end_terminals {pieces : List Piece} {last : List Char}
    (parts : Decomposition text pieces last) :
    (beforeEnd (placedTokens 0 1 pieces last)).map Token.terminal = pieces.map Piece.terminal := by
  have plain : ∀ t ∈ pieces.map Piece.terminal, decide (t ≠ .eof) = true := fun t member =>
    decide_eq_true (piece_not_end parts t member)
  calc (beforeEnd (placedTokens 0 1 pieces last)).map Token.terminal
      = ((placedTokens 0 1 pieces last).map Token.terminal).takeWhile (· ≠ .eof) := by
        rw [List.takeWhile_map]
        rfl
    _ = (pieces.map Piece.terminal ++ [Terminal.eof]).takeWhile (· ≠ .eof) := by
        rw [placed_terminals]
    _ = pieces.map Piece.terminal := by
        rw [List.takeWhile_append_of_pos plain]
        simp

private theorem magnitude (value : Int64) :
    (UInt64.ofNat value.toInt.natAbs).toNat = value.toInt.natAbs := by
  have lower := value.minValue_le_toInt
  have upper := value.toInt_le
  have least : Int64.minValue.toInt = -9223372036854775808 := by decide
  have greatest : Int64.maxValue.toInt = 9223372036854775807 := by decide
  rw [UInt64.toNat_ofNat']
  omega

private theorem integer_of_terminals {value : Int64}
    (same : tokens.map Token.terminal = integerTerminals value.toInt) :
    Derives.Integer tokens value.toInt := by
  have size := magnitude value
  unfold integerTerminals at same
  split at same
  · rename_i negative
    simp only [List.cons_append, List.nil_append, List.map_eq_cons_iff, List.map_eq_nil_iff] at same
    obtain ⟨sign, _, rfl, minus, t, _, rfl, digits, rfl⟩ := same
    have derived := Derives.Integer.negated minus digits
    rwa [size, show -(value.toInt.natAbs : Int) = value.toInt by omega] at derived
  · rename_i nonnegative
    simp only [List.nil_append, List.map_eq_cons_iff, List.map_eq_nil_iff] at same
    obtain ⟨t, _, rfl, digits, rfl⟩ := same
    have derived := Derives.Integer.plain digits
    rwa [size, show (value.toInt.natAbs : Int) = value.toInt by omega] at derived

private theorem literal_of_terminals {value : Literal}
    (same : tokens.map Token.terminal = value.terminals) : Derives.Literal tokens value := by
  cases value with
  | integer value => exact .integer (integer_of_terminals same)
  | string value =>
    simp only [Literal.terminals, List.map_eq_cons_iff, List.map_eq_nil_iff] at same
    obtain ⟨t, _, rfl, quoted, rfl⟩ := same
    exact .string quoted

private theorem names_of_terminals {name : String} {names : List String}
    (same : tokens.map Token.terminal = nameTerminals (name :: names)) :
    ∃ found, Derives.Names tokens found ∧ found.map Located.value = name :: names := by
  induction names generalizing name tokens with
  | nil =>
    simp only [nameTerminals, List.map_cons, List.map_nil, List.intersperse_singleton,
      List.map_eq_cons_iff, List.map_eq_nil_iff] at same
    obtain ⟨t, _, rfl, named, rfl⟩ := same
    exact ⟨[⟨name, t⟩], .last (.identifier named), rfl⟩
  | cons next names ih =>
    simp only [name_terminals_cons, List.map_eq_cons_iff] at same
    obtain ⟨t, _, rfl, named, comma, more, rfl, separates, same⟩ := same
    obtain ⟨found, derived, values⟩ := ih same
    exact ⟨⟨name, t⟩ :: found, .more (.identifier named) separates derived, by simp [values]⟩

private theorem arguments_of_terminals {names : List String}
    (same : tokens.map Token.terminal = nameTerminals names) :
    ∃ found, Derives.Arguments tokens found ∧ found.map Located.value = names := by
  cases names with
  | nil =>
    obtain rfl : tokens = [] := List.map_eq_nil_iff.mp same
    exact ⟨[], .none, rfl⟩
  | cons name names =>
    obtain ⟨found, derived, values⟩ := names_of_terminals same
    exact ⟨found, .some derived, values⟩

/-- Tokens with the terminals written for an item derive one that says the
same. -/
theorem item_of_terminals (writes : i.Writes terminals)
    (same : tokens.map Token.terminal = terminals) :
    ∃ j, Derives.Item tokens j ∧ statement j = statement i := by
  cases writes with
  | plain name declares =>
    simp only [List.map_eq_cons_iff, List.map_eq_nil_iff] at same
    obtain ⟨word, _, rfl, opens, t, _, rfl, named, stop, _, rfl, stops, rfl⟩ := same
    exact ⟨_, .plain opens declares (.identifier named) stops, rfl⟩
  | initialized name initializes =>
    simp only [List.map_eq_cons_iff, List.map_eq_append_iff, List.map_eq_nil_iff] at same
    obtain ⟨word, _, rfl, opens, t, _, rfl, named, equal, _, rfl, assigns, taken, _, rfl, literal,
      stop, _, rfl, stops, rfl⟩ := same
    have derived := literal_of_terminals literal
    exact ⟨_, .initialized opens initializes (.identifier named) assigns derived stops, rfl⟩
  | function name params returned =>
    simp only [List.map_eq_cons_iff, List.map_eq_nil_iff] at same
    obtain ⟨word, _, rfl, opens, t, _, rfl, named, opening, _, rfl, encloses, arity, _, rfl, digits,
      closing, _, rfl, closes, arrow, _, rfl, points, result, _, rfl, ends, stop, _, rfl, stops,
      rfl⟩ := same
    have derived : Derives.Integer [arity] params.toNat := by
      have plain := Derives.Integer.plain digits
      rwa [UInt16.toNat_toUInt64] at plain
    have item := Derives.Item.function opens (.identifier named) encloses derived closes points ends
      returned stops
    exact ⟨_, item, rfl⟩
  | reference name =>
    simp only [List.map_eq_cons_iff, List.map_eq_nil_iff] at same
    obtain ⟨word, _, rfl, opens, t, _, rfl, named, stop, _, rfl, stops, rfl⟩ := same
    exact ⟨_, .reference opens (.identifier named) stops, rfl⟩
  | call callee args =>
    simp only [List.map_eq_cons_iff, List.map_eq_append_iff, List.map_eq_nil_iff] at same
    obtain ⟨word, _, rfl, opens, t, _, rfl, named, opening, _, rfl, encloses, taken, _, rfl, names,
      closing, _, rfl, closes, stop, _, rfl, stops, rfl⟩ := same
    obtain ⟨found, derived, values⟩ := arguments_of_terminals names
    have item := Derives.Item.call opens (.identifier named) encloses derived closes stops
    exact ⟨_, item, by simp [statement, values]⟩

/-- Tokens with the terminals written for a listing derive one that says the
same. -/
theorem listing_of_terminals (writes : items.Writes terminals)
    (same : tokens.map Token.terminal = terminals) :
    ∃ read, Derives.Listing tokens read ∧ read.map statement = items.map statement := by
  induction writes generalizing tokens with
  | nothing =>
    obtain rfl : tokens = [] := List.map_eq_nil_iff.mp same
    exact ⟨[], .nothing, rfl⟩
  | item writes _ ih =>
    obtain ⟨first, more, rfl, firstSame, moreSame⟩ := List.map_eq_append_iff.mp same
    obtain ⟨j, derived, meant⟩ := item_of_terminals writes firstSame
    obtain ⟨read, later, all⟩ := ih moreSame
    exact ⟨j :: read, .item derived later, by simp [meant, all]⟩

/-! ## Round trips -/

/-- A text of a listing without a comment behind an integer is read back. -/
theorem reads_back_of_apart {text : String} (apart : ListingApart items text) :
    ReadsBack text items := by
  obtain ⟨terminals, writes, apart⟩ := apart
  obtain ⟨pieces, last, parts, same⟩ := pieces_of_apart apart
  have scanned : tokensOf text = .ok (placedTokens 0 1 pieces last) :=
    tokenize_decomposition parts rfl rfl
  obtain ⟨read, derived, meant⟩ :=
    listing_of_terminals writes ((before_end_terminals parts).trans same)
  exact ⟨_, read, scanned, read_eq_items_iff.mpr (listing_complete derived), meant⟩

private theorem gap_space (after : List Char) : Gap [' '] after := .blank (by decide) .nothing

private theorem gap_comment (body : List Char) (plain : '\n' ∉ body) (after : List Char) :
    Gap ('/' :: '/' :: (body ++ ['\n'])) after :=
  .comment plain (by simp [EndsLine]) (.blank (by decide) .nothing)

private theorem spaced_apart (forms : ∀ t ∈ terminals, Form t.spelling t) :
    RendersApart previous terminals (terminals.flatMap fun t => ' ' :: t.spelling) := by
  induction terminals generalizing previous with
  | nil => exact .done (fun _ _ => by simp) .nothing
  | cons t terminals ih =>
    obtain ⟨form, forms⟩ := List.forall_mem_cons.mp forms
    exact .lexeme (fun _ _ => by simp) gap_space (fun _ _ _ => by simp) form (ih forms)

private theorem spaced_cons (t : Terminal) (terminals : List Terminal) :
    spaced (t :: terminals) = t.spelling ++ terminals.flatMap fun t => ' ' :: t.spelling := by
  induction terminals generalizing t with
  | nil => simp [spaced, List.intercalate]
  | cons next terminals ih =>
    simp [spaced, List.intercalate] at ih ⊢
    simp [ih]

private theorem items_written (wellFormed : WellFormed items) :
    items.Writes (items.flatMap Item.terminals) := by
  induction items with
  | nil => exact .nothing
  | cons i items ih =>
    obtain ⟨first, more⟩ := List.forall_mem_cons.mp wellFormed
    exact .item (item_writes first) (ih more)

/-- The canonical text of a listing that can be written is a text of it, and
has no comment at all. -/
theorem text_apart (wellFormed : WellFormed items) : ListingApart items items.text := by
  have forms : ∀ t ∈ items.flatMap Item.terminals, Form t.spelling t := by
    intro t member
    obtain ⟨i, listed, member⟩ := List.mem_flatMap.mp member
    exact item_spelled (wellFormed i listed) t member
  refine ⟨_, items_written wellFormed, ?_⟩
  rw [Listing.text, String.toList_ofList]
  generalize items.flatMap Item.terminals = terminals at forms ⊢
  cases terminals with
  | nil => exact .done nofun .nothing
  | cons t terminals =>
    obtain ⟨form, forms⟩ := List.forall_mem_cons.mp forms
    rw [spaced_cons]
    exact @RendersApart.lexeme none t terminals [] _ _ nofun (fun _ => .nothing) nofun form
      (spaced_apart forms)

/-- Every terminal of a text is written in some way. -/
private theorem forms_of_renders (renders : Renders previous terminals text) :
    ∀ t ∈ terminals, ∃ written, Form written t := by
  induction renders with
  | done => simp
  | lexeme _ _ form _ ih => exact List.forall_mem_cons.mpr ⟨⟨_, form⟩, ih⟩

/-- Only a listing whose names and declarations can be written has texts. -/
theorem well_formed_of_renders {text : String} (renders : items.Renders text) :
    WellFormed items := by
  obtain ⟨terminals, writes, renders⟩ := renders
  have forms := forms_of_renders renders
  clear renders
  induction writes with
  | nothing => simp [WellFormed]
  | item written _ ih =>
    obtain ⟨first, more⟩ := List.forall_mem_append.mp forms
    exact List.forall_mem_cons.mpr ⟨well_formed_of_writes written first, ih more⟩

private theorem five_renders {text : String} (form : Form written (.integer 5))
    (trivia : ∀ after, Gap gap after)
    (spelled : text.toList = "int x = ".toList ++ (written ++ (gap ++ [';']))) :
    Listing.Renders [.declaration ⟨"x", default⟩ { type := .int, intVal := 5 }] text := by
  have writes : Listing.Writes [.declaration ⟨"x", default⟩ { type := .int, intVal := 5 }]
      [.keyword .int, .identifier "x", .equal, .integer 5, .semicolon] :=
    .item (.initialized ⟨"x", default⟩ (.int 5)) .nothing
  have name : Form "x".toList (.identifier "x") :=
    .identifier ⟨⟨'x', rfl, by decide⟩, by simp [InWord, StartsWord]⟩ fun k => by
      cases k <;> decide
  have stop : Renders (some (.integer 5)) [.semicolon] (gap ++ [';'] ++ []) :=
    .lexeme trivia (by simp [runTogether, Terminal.isWordLike]) .semicolon (.done .nothing)
  have value : Renders (some .equal) [.integer 5, .semicolon] _ :=
    .lexeme gap_space (by simp) form stop
  have equal : Renders (some (.identifier "x")) [.equal, .integer 5, .semicolon] _ :=
    .lexeme gap_space (by simp) .equal value
  have named : Renders (some (.keyword .int)) (.identifier "x" :: _) _ :=
    .lexeme gap_space (by simp) name equal
  have whole : Renders none (.keyword .int :: _) ([] ++ "int".toList ++ _) :=
    .lexeme (fun _ => .nothing) (by simp) (.keyword .int) named
  refine ⟨_, writes, ?_⟩
  rw [spelled]
  simpa using whole

/-- The listings that have texts are the well-formed ones. A text is read back
exactly when no comment in it stands directly behind an integer, and one that
is not read back is refused because of the slash of such a comment. -/
theorem round_trip_exact (items : Listing) :
    (WellFormed items ↔ ∃ text, ListingApart items text) ∧
      ∀ text, items.Renders text →
        WellFormed items ∧ (ReadsBack text items ↔ ListingApart items text) ∧
          (¬ ListingApart items text →
            ∃ token, tokensOf text = .error ⟨.invalidDigit '/', token⟩) := by
  constructor
  · constructor
    · intro wellFormed
      exact ⟨items.text, text_apart wellFormed⟩
    · rintro ⟨text, apart⟩
      exact well_formed_of_renders (listing_renders apart)
  · intro text renders
    have refused : ¬ ListingApart items text →
        ∃ token, tokensOf text = .error ⟨.invalidDigit '/', token⟩ := by
      intro touching
      obtain ⟨terminals, writes, rendered⟩ := renders
      rcases apart_or_refused rendered (l := .ofText text) rfl rfl with apart | start | refused
      · exact (touching ⟨terminals, writes, apart⟩).elim
      · exact (start nofun).elim
      · exact refused
    refine ⟨well_formed_of_renders renders, ⟨?_, reads_back_of_apart⟩, refused⟩
    intro back
    by_contra touching
    obtain ⟨token, refused⟩ := refused touching
    obtain ⟨tokens, read, scanned, -⟩ := back
    rw [refused] at scanned
    cases scanned

/-- A comment behind a blank does not touch the digits. -/
theorem comment_behind_blank_reads_back :
    Listing.Renders [.declaration ⟨"x", default⟩ { type := .int, intVal := 5 }]
        "int x = 05 // five\n;" ∧
      ReadsBack "int x = 05 // five\n;"
        [.declaration ⟨"x", default⟩ { type := .int, intVal := 5 }] := by
  have digits : Form ['0', '5'] (.integer 5) := .integer (by decide) (by simp [IsDecimal]) rfl
  have comment (after : List Char) : Gap (' ' :: '/' :: '/' :: (" five".toList ++ ['\n'])) after :=
    .blank (by decide) (gap_comment _ (by decide) after)
  have renders := five_renders digits comment
    (by decide : "int x = 05 // five\n;".toList = _)
  obtain ⟨-, back, refused⟩ := (round_trip_exact _).2 _ renders
  refine ⟨renders, back.mpr ?_⟩
  by_contra touching
  obtain ⟨token, fault⟩ := refused touching
  have scanned : (tokensOf "int x = 05 // five\n;").toBool = true := by decide +kernel
  rw [fault] at scanned
  cases scanned

/-- A comment directly behind the digits is refused. -/
theorem comment_behind_digits_refused :
    Listing.Renders [.declaration ⟨"x", default⟩ { type := .int, intVal := 5 }]
        "int x = 5// five\n;" ∧
      ¬ ReadsBack "int x = 5// five\n;"
        [.declaration ⟨"x", default⟩ { type := .int, intVal := 5 }] := by
  have digits : Form ['5'] (.integer 5) := .integer (by decide) (by simp [IsDecimal]) rfl
  have renders := five_renders digits (gap_comment " five".toList (by decide))
    (by decide : "int x = 5// five\n;".toList = _)
  refine ⟨renders, ?_⟩
  rintro ⟨tokens, read, scanned, -⟩
  have refused : (tokensOf "int x = 5// five\n;").toBool = false := by decide +kernel
  rw [scanned] at refused
  cases refused

end DeclListing.RenderingRoundTrip
