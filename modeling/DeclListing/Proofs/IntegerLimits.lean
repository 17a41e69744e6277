import Mathlib.Algebra.Group.Int.Defs
import DeclListing.Proofs.JoinedTexts
import DeclListing.Check.Verdict

/-! The limits of integers. Digits have a value of any size; their magnitude must fit in
64 bits before a sign is known, the signed value in 64 bits with a sign, and a number of
parameters in 16 bits. Every numeral lies in one zone between these limits, and each zone
has its own answer, as the value of a declaration and as a number of parameters. -/
namespace DeclListing.IntegerLimits
open Reader Lexeme ListingGrammarExactness TokenGrammarExactness JoinedTexts

variable {before behind rest gap last : List Char} {front back : List Piece} {l : Lexer}
  {taken tail ends : List Token} {token : Token}

/-- The text of pieces. -/
def textOf (pieces : List Piece) : List Char :=
  pieces.flatMap Piece.text

/-- Pieces that are read as they are when a text stands behind them. -/
inductive Fits : List Piece → List Char → Prop where
  | nothing {rest : List Char} : Fits [] rest
  | piece {p : Piece} {pieces : List Piece} {rest : List Char} :
      Gap p.gap (p.written ++ (textOf pieces ++ rest)) → Form p.written p.terminal →
      CanFollow p.terminal (textOf pieces ++ rest) → Fits pieces rest → Fits (p :: pieces) rest

theorem Fits.append (first : Fits front (textOf back ++ rest)) (second : Fits back rest) :
    Fits (front ++ back) rest := by
  induction front with
  | nil => exact second
  | cons p front ih =>
    cases first with
    | piece trivia form follow more =>
      have split : textOf (front ++ back) ++ rest = textOf front ++ (textOf back ++ rest) := by
        simp [textOf]
      exact .piece (split ▸ trivia) form (split ▸ follow) (ih more)

/-- The tokens of pieces that stand behind `offset` bytes on line `line`. -/
def standing (offset line : Nat) : List Piece → List Token
  | [] => []
  | p :: pieces =>
    pieceToken offset line p ::
      standing (offset + Text.byteLength p.text) (line + Text.lineFeeds p.text) pieces

theorem standing_append (offset line : Nat) (front back : List Piece) :
    standing offset line (front ++ back) = standing offset line front ++
      standing (offset + Text.byteLength (textOf front)) (line + Text.lineFeeds (textOf front))
        back := by
  induction front generalizing offset line with
  | nil => rfl
  | cons p front ih =>
    simp [standing, ih, textOf, Nat.add_assoc]

/-- Pieces are read as their tokens, and then what stands behind them is read. -/
theorem tokenize_front (fits : Fits front rest) (unfinished : l.finished = false)
    (here : l.rest = textOf front ++ rest) :
    l.tokenize.1 = (skipped l (textOf front) rest).tokenize.1.map
      (standing l.offset l.line front ++ ·) := by
  induction fits generalizing l with
  | nothing =>
    obtain ⟨chars, offset, line, finished⟩ := l
    obtain rfl : chars = _ := here
    exact (congrFun Except.map_id _).symm
  | @piece p pieces rest trivia form follow _ ih =>
    have split : l.rest = p.text ++ (textOf pieces ++ rest) := by
      rw [here]
      simp [textOf]
    have place : skipped (behind l p (textOf pieces ++ rest)) (textOf pieces) rest =
        skipped l (textOf (p :: pieces)) rest := by
      simp [skipped, behind, textOf, Nat.add_assoc]
    rw [tokenize_piece unfinished split trivia form follow, ih (l := behind l p _) unfinished rfl,
      place]
    cases (skipped l (textOf (p :: pieces)) rest).tokenize.1 <;> rfl

/-- Blanks and whole comments, whatever stands behind them. -/
def Spacing (gap : List Char) : Prop :=
  ∀ after, Gap gap after

/-- Digits as they are written, with a sign and blanks and comments behind it, or
without one. -/
structure Numeral where
  /-- What stands between the sign and the digits, if there is a sign. -/
  sign : Option (List Char)
  /-- The digits. -/
  digits : List Char
  spaced : ∀ gap ∈ sign, Spacing gap
  nonempty : digits ≠ []
  decimal : ∀ c ∈ digits, c.isDigit = true

namespace Numeral

variable (n : Numeral)

/-- The value of the digits. -/
def magnitude : Nat :=
  decimalValue n.digits

/-- The value with the sign. -/
def value : Int :=
  match n.sign with
  | none => n.magnitude
  | some _ => -n.magnitude

/-- A numeral as it is written. -/
def text : List Char :=
  match n.sign with
  | none => n.digits
  | some gap => '-' :: (gap ++ n.digits)

/-- The pieces of a numeral of a magnitude that fits in 64 bits. -/
def pieces (before : List Char) (magnitude : UInt64) : List Piece :=
  match n.sign with
  | none => [⟨before, n.digits, .integer magnitude⟩]
  | some gap => [⟨before, ['-'], .minus⟩, ⟨gap, n.digits, .integer magnitude⟩]

end Numeral

variable {n : Numeral} {magnitude : UInt64}

theorem text_of_pieces : textOf (n.pieces before magnitude) = before ++ n.text := by
  unfold Numeral.pieces Numeral.text
  cases n.sign <;> simp [textOf, Piece.text]

theorem natAbs_value : n.value.natAbs = n.magnitude := by
  unfold Numeral.value
  cases n.sign <;> simp

/-- What can stand behind a minus sign: blanks, comments and digits. -/
private theorem sign_follow (spaced : Spacing gap) (rest : List Char) :
    CanFollow .minus (gap ++ (n.digits ++ rest)) := by
  obtain ⟨d, ds, spelled⟩ := List.exists_cons_of_ne_nil n.nonempty
  have digit : d.isDigit = true := n.decimal d (by simp [spelled])
  rw [spelled]
  cases spaced [] with
  | nothing =>
    rintro _ ⟨rfl⟩ rfl
    cases digit
  | blank listed _ =>
    rintro _ ⟨rfl⟩ rfl
    exact absurd listed (by decide)
  | comment =>
    rintro _ ⟨rfl⟩
    decide

/-- The pieces of a numeral, where its digits can end. -/
theorem numeral_fits (same : n.magnitude = magnitude.toNat) (spaced : Spacing before)
    (stop : ∀ c ∈ rest.head?, endsNumber c = true) : Fits (n.pieces before magnitude) rest := by
  have digits : Form n.digits (.integer magnitude) :=
    form_integer_iff.mpr ⟨n.nonempty, n.decimal, same⟩
  have ends : CanFollow (.integer magnitude) rest := follow_integer_iff.mpr stop
  unfold Numeral.pieces
  cases signed : n.sign with
  | none => exact .piece (spaced _) digits ends .nothing
  | some gap =>
    have between : Spacing gap := n.spaced gap signed
    have inner : Fits [⟨gap, n.digits, .integer magnitude⟩] rest :=
      .piece (between _) digits ends .nothing
    refine .piece (spaced _) .minus ?_ inner
    simpa [textOf, Piece.text] using sign_follow between rest

/-- The tokens of a numeral behind `offset` bytes, and the one that stands for them. -/
theorem numeral_tokens (before : List Char) (same : n.magnitude = magnitude.toNat)
    (offset line : Nat) :
    ∃ token, LiteralToken (standing offset line (n.pieces before magnitude)) token ∧
      token.span =
        ⟨offset + Text.byteLength before, offset + Text.byteLength (before ++ n.text)⟩ ∧
      Derives.Integer (standing offset line (n.pieces before magnitude)) n.value := by
  unfold Numeral.pieces Numeral.value Numeral.text
  rw [same]
  cases n.sign with
  | none => exact ⟨_, .integer rfl, rfl, .plain rfl⟩
  | some gap =>
    refine ⟨_, .signed rfl rfl, ?_, .negated rfl rfl⟩
    simp [pieceToken, Piece.text, Nat.add_assoc]

/-- Digits of 2⁶⁴ or more are refused by the lexer. -/
theorem numeral_overflow (large : 2 ^ 64 ≤ n.magnitude) (spaced : Spacing before)
    (stop : ∀ c ∈ rest.head?, endsNumber c = true) (unfinished : l.finished = false)
    (here : l.rest = before ++ (n.text ++ rest)) :
    ∃ token, l.tokenize.1 = .error ⟨.integerOverflow, token⟩ := by
  unfold Numeral.text at here
  cases signed : n.sign with
  | none =>
    rw [signed] at here
    obtain ⟨token, moved, refused⟩ :=
      next_overflow here (spaced _) n.nonempty n.decimal large stop
    exact ⟨token, by rw [tokenize_error unfinished refused]⟩
  | some gap =>
    rw [signed] at here
    have between : Spacing gap := n.spaced gap signed
    have split : l.rest = (Piece.mk before ['-'] .minus).text ++ (gap ++ (n.digits ++ rest)) := by
      rw [here]
      simp [Piece.text]
    obtain ⟨token, moved, refused⟩ := next_overflow
      (l := behind l ⟨before, ['-'], .minus⟩ (gap ++ (n.digits ++ rest))) rfl (between _)
      n.nonempty n.decimal large stop
    refine ⟨token, ?_⟩
    rw [tokenize_piece unfinished split (spaced _) .minus (sign_follow between rest),
      tokenize_error (l := behind l _ _) unfinished refused]
    rfl

/-- A text with a numeral behind `front` and blanks and comments. -/
def around (front before : List Char) (n : Numeral) (rest : List Char) : String :=
  String.ofList (front ++ (before ++ (n.text ++ rest)))

/-- The stretch of the numeral in such a text. -/
def stretch (front before : List Char) (n : Numeral) : Span where
  start := Text.byteLength (front ++ before)
  stop := Text.byteLength (front ++ (before ++ n.text))

/-- The tokens of a text with a numeral whose magnitude fits in 64 bits. -/
theorem around_tokens (leads : Fits front (before ++ (n.text ++ rest))) (spaced : Spacing before)
    (stop : ∀ c ∈ rest.head?, endsNumber c = true) (small : n.magnitude < 2 ^ 64)
    (parts : Decomposition rest back last) :
    ∃ taken token offset line, LiteralToken taken token ∧
      token.span = stretch (textOf front) before n ∧ Derives.Integer taken n.value ∧
      tokensOf (around (textOf front) before n rest) =
        .ok (standing 0 1 front ++ (taken ++ placedTokens offset line back last)) := by
  have same : n.magnitude = (UInt64.ofNat n.magnitude).toNat := by
    rw [UInt64.toNat_ofNat', Nat.mod_eq_of_lt small]
  obtain ⟨token, literal, placed, derived⟩ := numeral_tokens before same
    (0 + Text.byteLength (textOf front)) (1 + Text.lineFeeds (textOf front))
  let whole := front ++ n.pieces before (UInt64.ofNat n.magnitude)
  let l := Lexer.ofText (around (textOf front) before n rest)
  have numeral : textOf (n.pieces before (.ofNat n.magnitude)) = before ++ n.text := text_of_pieces
  have fits : Fits whole rest := by
    refine Fits.append ?_ (numeral_fits same spaced stop)
    rwa [numeral, List.append_assoc]
  have here : l.rest = textOf whole ++ rest := by
    rw [show textOf whole = textOf front ++ (before ++ n.text) from numeral ▸ List.flatMap_append ..]
    simp [l, Lexer.ofText, around]
  have tokens := tokenize_front fits (l := l) rfl here
  rw [tokenize_decomposition parts (l := skipped l (textOf whole) rest) rfl rfl] at tokens
  have split : standing 0 1 whole = standing 0 1 front ++ _ := standing_append 0 1 front _
  refine ⟨_, token, (skipped l (textOf whole) rest).offset, (skipped l (textOf whole) rest).line,
    literal, ?_, derived, ?_⟩
  · rw [placed]
    simp [stretch]
  · rw [← List.append_assoc, ← split]
    exact tokens

/-- A text with a numeral of 2⁶⁴ or more is refused by the lexer. -/
theorem around_overflow (leads : Fits front (before ++ (n.text ++ rest))) (spaced : Spacing before)
    (stop : ∀ c ∈ rest.head?, endsNumber c = true) (large : 2 ^ 64 ≤ n.magnitude) :
    ∃ token, tokensOf (around (textOf front) before n rest) =
      .error ⟨.integerOverflow, token⟩ := by
  let l := Lexer.ofText (around (textOf front) before n rest)
  have here : l.rest = textOf front ++ (before ++ (n.text ++ rest)) := by
    simp [l, Lexer.ofText, around]
  obtain ⟨token, refused⟩ := numeral_overflow
    (l := skipped l (textOf front) (before ++ (n.text ++ rest))) large spaced stop rfl rfl
  have read := tokenize_front leads (l := l) rfl here
  rw [refused] at read
  exact ⟨token, read⟩

/-! ## Integers in their places -/

/-- A value of 64 bits. -/
def Fits64 (value : Int) : Prop :=
  -2 ^ 63 ≤ value ∧ value ≤ 2 ^ 63 - 1

theorem integer_read {value : Int} (derived : Derives.Integer taken value)
    (literal : LiteralToken taken token) (tail : List Token) :
    integer (taken ++ tail) = fitted value token tail := by
  cases derived with
  | plain digits =>
    cases literal with
    | string quoted =>
      rw [digits] at quoted
      cases quoted
    | integer => exact integer_plain digits
  | negated minus digits =>
    cases literal with
    | signed => exact integer_negated minus digits

/-- An integer that does not fit in 64 bits is refused. -/
theorem integer_refused {value : Int} (derived : Derives.Integer taken value)
    (literal : LiteralToken taken token) (large : ¬ Fits64 value) (tail : List Token) :
    integer (taken ++ tail) = .error (.refused ⟨.integerOutOfRange, token⟩) tail :=
  (integer_read derived literal tail).trans (if_neg large)

theorem integer_fits {value : Int} (derived : Derives.Integer taken value)
    (literal : LiteralToken taken token) (small : Fits64 value) :
    ∃ v : Int64, v.toInt = value ∧ ∀ tail, integer (taken ++ tail) = .ok ⟨v, token⟩ tail := by
  refine ⟨Int64.ofInt value, value_in_range small, fun tail => ?_⟩
  exact (integer_read derived literal tail).trans (if_pos small)

variable {text : String} {tokens : List Token}
  {word t equal opening closing arrow result stop last : Token}

theorem text_accepted {items : Listing} (lexed : tokensOf text = .ok tokens)
    (read : listing tokens = .ok items tail) : readText text = .ok items :=
  readText_eq_ok_iff.mpr ⟨tokens, lexed, read_eq_items_iff.mpr ⟨tail, read⟩⟩

theorem text_refused {error : LiteralError} (lexed : tokensOf text = .ok tokens)
    (failed : listing tokens = .error (.refused ⟨error, token⟩) tail) :
    readText text = .error (.syntactic ⟨.literal error, token⟩) := by
  have rejected : Listing.read text.toList tokens = .rejected ⟨.literal error, token⟩ :=
    read_eq_rejected_iff.mpr ⟨.refused ⟨error, token⟩, tail, failed, rfl⟩
  simp only [readText, lexed, rejected]
  rfl

theorem text_overflows (lexed : tokensOf text = .error ⟨.integerOverflow, token⟩) :
    readText text = .error (.lexical ⟨.integerOverflow, token⟩) := by
  simp only [readText, lexed]

/-- One item and the end of the text are read as it. -/
theorem one_item_read {segment : List Token} {i : Item} (derived : Derives.Item segment i)
    (ended : last.terminal = .eof) : listing (segment ++ [last]) = .ok [i] [] := by
  have nothing : listing [last] = .ok [] [] := by
    rw [listing]
    exact if_pos ended
  rw [listing_item derived]
  exact map_eq_ok_iff.mpr ⟨[], nothing, rfl⟩

/-- The declaration of an integer with its value. -/
theorem value_accepted {name : String} {v : Int64} (opens : word.terminal = .keyword .int)
    (named : t.terminal = .identifier name) (assigns : equal.terminal = .equal)
    (derived : Derives.Integer taken v.toInt) (stops : stop.terminal = .semicolon)
    (ended : last.terminal = .eof) :
    listing (word :: t :: equal :: (taken ++ [stop, last])) =
      .ok [.declaration ⟨name, t⟩ { type := .int, intVal := v }] [] := by
  have item := Derives.Item.initialized opens (.int v) (.identifier named) assigns
    (.integer derived) stops
  have read := one_item_read item ended
  simpa using read

/-- The declaration of a function with its number of parameters. -/
theorem function_accepted {name : String} {params : UInt16}
    (opens : word.terminal = .keyword .function) (named : t.terminal = .identifier name)
    (encloses : opening.terminal = .lparen) (derived : Derives.Integer taken params.toNat)
    (closes : closing.terminal = .rparen) (points : arrow.terminal = .arrow)
    (ends : result.terminal = .keyword .int) (stops : stop.terminal = .semicolon)
    (ended : last.terminal = .eof) :
    listing (word :: t :: opening :: (taken ++ [closing, arrow, result, stop, last])) =
      .ok [.declaration ⟨name, t⟩ { type := .function params .int }] [] := by
  have item := Derives.Item.function opens (.identifier named) encloses derived closes points ends
    .int stops
  have read := one_item_read item ended
  simpa using read

/-- A declaration is refused where the integer that it gives is. -/
theorem value_refused {kind : ValueKind} {name : String} {e : Located LiteralError}
    (opens : word.terminal = .keyword kind.keyword) (named : t.terminal = .identifier name)
    (assigns : equal.terminal = .equal) (refused : integer tokens = .error (.refused e) tail) :
    listing (word :: t :: equal :: tokens) = .error (.refused e) tail := by
  refine listing_fails (by simp [opens]) ((item_dispatch.2.2.2 kind opens).trans ?_)
  refine bind_eq_error_iff.mpr
    (.inr ⟨⟨kind, word⟩, _, valueKind_eq_ok_iff.mpr ⟨rfl, opens⟩, ?_⟩)
  refine bind_eq_error_iff.mpr
    (.inr ⟨⟨name, t⟩, _, identifier_eq_ok_iff.mpr ⟨rfl, named⟩, bind_eq_error_iff.mpr (.inl ?_)⟩)
  obtain ⟨terminal, span, line⟩ := equal
  subst assigns
  exact bind_eq_error_iff.mpr (.inl (literal_refuses refused))

/-- A function is refused where its number of parameters is. -/
theorem function_refused {name : String} {e : Located LiteralError}
    (opens : word.terminal = .keyword .function) (named : t.terminal = .identifier name)
    (encloses : opening.terminal = .lparen)
    (refused : (integer >>= arity) tokens = .error (.refused e) tail) :
    listing (word :: t :: opening :: tokens) = .error (.refused e) tail := by
  refine listing_fails (by simp [opens]) ((item_dispatch.1 opens).trans ?_)
  refine bind_eq_error_iff.mpr
    (.inr ⟨⟨name, t⟩, _, identifier_eq_ok_iff.mpr ⟨rfl, named⟩, ?_⟩)
  refine bind_eq_error_iff.mpr
    (.inr ⟨⟨(), opening⟩, _, punctuation_eq_ok_iff.mpr ⟨rfl, encloses⟩, ?_⟩)
  rcases bind_eq_error_iff.mp refused with failed | ⟨n, middle, read, failed⟩
  · exact bind_eq_error_iff.mpr (.inl failed)
  · exact bind_eq_error_iff.mpr (.inr ⟨n, middle, read, bind_eq_error_iff.mpr (.inl failed)⟩)

/-- A negative number of parameters is refused. -/
theorem arity_negative {value : Int} (derived : Derives.Integer taken value)
    (literal : LiteralToken taken token) (small : Fits64 value) (negative : value < 0)
    (tail : List Token) :
    (integer >>= arity) (taken ++ tail) = .error (.refused ⟨.negativeArity, token⟩) tail := by
  obtain ⟨v, rfl, read⟩ := integer_fits derived literal small
  refine bind_eq_error_iff.mpr (.inr ⟨_, _, read tail, ?_⟩)
  rw [arity, if_pos negative]
  rfl

/-- More than 65535 parameters are refused. -/
theorem arity_too_large {value : Int} (derived : Derives.Integer taken value)
    (literal : LiteralToken taken token) (small : Fits64 value) (large : 65535 < value) :
    ∃ v : Int64, v.toInt = value ∧ ∀ tail,
      (integer >>= arity) (taken ++ tail) = .error (.refused ⟨.arityTooLarge v, token⟩) tail := by
  obtain ⟨v, rfl, read⟩ := integer_fits derived literal small
  refine ⟨v, rfl, fun tail => bind_eq_error_iff.mpr (.inr ⟨_, _, read tail, ?_⟩)⟩
  have positive : ¬ v.toInt < 0 := by omega
  rw [arity, if_neg positive, if_pos large]
  rfl

/-- The pieces of `int x =`. -/
def valueFront : List Piece :=
  [⟨[], "int".toList, .keyword .int⟩, ⟨[' '], ['x'], .identifier "x"⟩, ⟨[' '], ['='], .equal⟩]

/-- The pieces of `fn f(`. -/
def functionFront : List Piece :=
  [⟨[], "fn".toList, .keyword .function⟩, ⟨[' '], ['f'], .identifier "f"⟩, ⟨[], ['('], .lparen⟩]

/-- The pieces of `) -> int;` behind blanks and comments. -/
def functionBack (behind : List Char) : List Piece :=
  [⟨behind, [')'], .rparen⟩, ⟨[' '], ['-', '>'], .arrow⟩, ⟨[' '], "int".toList, .keyword .int⟩,
    ⟨[], [';'], .semicolon⟩]

theorem name_form {c : Char} (start : StartsWord c) (free : ∀ k, ¬ Reserved [c] k) :
    Form [c] (.identifier (String.ofList [c])) :=
  .identifier ⟨⟨c, rfl, start⟩, by simp [InWord, start]⟩ free

theorem value_front_fits (rest : List Char) : Fits valueFront rest := by
  have name : Form ['x'] (.identifier "x") := name_form (by decide) (by intro k; cases k <;> decide)
  have blank (after : List Char) : Gap [' '] after := .blank (by decide) .nothing
  refine .piece .nothing (.keyword .int) (by rintro _ ⟨⟩; decide) ?_
  refine .piece (blank _) name (by rintro _ ⟨⟩; decide) ?_
  exact .piece (blank _) .equal trivial .nothing

theorem function_front_fits (rest : List Char) : Fits functionFront rest := by
  have name : Form ['f'] (.identifier "f") := name_form (by decide) (by intro k; cases k <;> decide)
  refine .piece .nothing (.keyword .function) (by rintro _ ⟨⟩; decide) ?_
  refine .piece (.blank (by decide) .nothing) name (by rintro _ ⟨⟩; decide) ?_
  exact .piece .nothing .lparen trivial .nothing

theorem value_back_parts (spaced : Spacing behind) :
    Decomposition (behind ++ [';']) [⟨behind, [';'], .semicolon⟩] [] := by
  have parts := Decomposition.piece (p := ⟨behind, [';'], .semicolon⟩) (spaced _) .semicolon trivial
    (.done .nothing)
  simpa [Piece.text] using parts

theorem function_back_parts (spaced : Spacing behind) :
    Decomposition (behind ++ ") -> int;".toList) (functionBack behind) [] := by
  have blank (after : List Char) : Gap [' '] after := .blank (by decide) .nothing
  have stop := Decomposition.piece (p := ⟨[], [';'], .semicolon⟩) .nothing .semicolon trivial
    (.done .nothing)
  have result := Decomposition.piece (p := ⟨[' '], "int".toList, .keyword .int⟩) (blank _)
    (.keyword .int) (by rintro _ ⟨⟩; decide) stop
  have arrow := Decomposition.piece (p := ⟨[' '], ['-', '>'], .arrow⟩) (blank _) .arrow trivial result
  have parts := Decomposition.piece (p := ⟨behind, [')'], .rparen⟩) (spaced _) .rparen trivial arrow
  simpa [Piece.text, functionBack] using parts

/-- Digits end at a blank, and at a mark where nothing stands before it. -/
theorem digits_end (mark : Char) (apart : ∀ c ∈ behind.head?, Trivia.isBlank c = true)
    (ends : endsNumber mark = true) (rest : List Char) :
    ∀ c ∈ (behind ++ mark :: rest).head?, endsNumber c = true := by
  cases behind with
  | nil =>
    rintro _ ⟨rfl⟩
    exact ends
  | cons c behind =>
    rintro _ ⟨rfl⟩
    have blank := apart c rfl
    simp only [Trivia.isBlank, Bool.or_eq_true, decide_eq_true_eq] at blank
    rcases blank with ((rfl | rfl) | rfl) | rfl <;> rfl

/-! ## Zones -/

/-- What comes of a numeral as the value of a declaration, zone by zone. -/
inductive ValueAnswer (n : Numeral) (place : Span) : Except Rejection Listing → Prop where
  | accepted {v : Int64} {t : Token} : v.toInt = n.value →
      ValueAnswer n place (.ok [.declaration ⟨"x", t⟩ { type := .int, intVal := v }])
  | outOfRange {t : Token} : ¬ Fits64 n.value → n.magnitude < 2 ^ 64 → t.span = place →
      ValueAnswer n place (.error (.syntactic ⟨.literal .integerOutOfRange, t⟩))
  | overflow {t : Token} : 2 ^ 64 ≤ n.magnitude →
      ValueAnswer n place (.error (.lexical ⟨.integerOverflow, t⟩))

/-- What comes of a numeral as a number of parameters, zone by zone. -/
inductive ArityAnswer (n : Numeral) (place : Span) : Except Rejection Listing → Prop where
  | accepted {params : UInt16} {t : Token} : params.toNat = n.value →
      ArityAnswer n place (.ok [.declaration ⟨"f", t⟩ { type := .function params .int }])
  | negative {t : Token} : Fits64 n.value → n.value < 0 → t.span = place →
      ArityAnswer n place (.error (.syntactic ⟨.literal .negativeArity, t⟩))
  | tooLarge {v : Int64} {t : Token} : v.toInt = n.value → 65535 < n.value → t.span = place →
      ArityAnswer n place (.error (.syntactic ⟨.literal (.arityTooLarge v), t⟩))
  | outOfRange {t : Token} : ¬ Fits64 n.value → n.magnitude < 2 ^ 64 → t.span = place →
      ArityAnswer n place (.error (.syntactic ⟨.literal .integerOutOfRange, t⟩))
  | overflow {t : Token} : 2 ^ 64 ≤ n.magnitude →
      ArityAnswer n place (.error (.lexical ⟨.integerOverflow, t⟩))

theorem value_answered (n : Numeral) (spaced : Spacing before) (ended : Spacing behind)
    (apart : ∀ c ∈ behind.head?, Trivia.isBlank c = true) :
    ValueAnswer n (stretch "int x =".toList before n)
      (readText (around "int x =".toList before n (behind ++ [';']))) := by
  have front : textOf valueFront = "int x =".toList := rfl
  have stops := digits_end ';' apart rfl []
  rw [← front]
  rcases Nat.lt_or_ge n.magnitude (2 ^ 64) with small | large
  · obtain ⟨taken, token, offset, line, literal, placed, derived, lexed⟩ :=
      around_tokens (value_front_fits _) spaced stops small (value_back_parts ended)
    by_cases fits : Fits64 n.value
    · obtain ⟨v, value, -⟩ := integer_fits derived literal fits
      rw [← value] at derived
      rw [text_accepted lexed (value_accepted rfl rfl rfl derived rfl rfl)]
      exact .accepted value
    · have refused := integer_refused derived literal fits
      rw [text_refused lexed (@value_refused _ _ _ _ _ .int _ _ rfl rfl rfl (refused _))]
      exact .outOfRange fits small placed
  · obtain ⟨token, lexed⟩ := around_overflow (value_front_fits _) spaced stops large
    rw [text_overflows lexed]
    exact .overflow large

theorem arity_answered (n : Numeral) (spaced : Spacing before) (ended : Spacing behind)
    (apart : ∀ c ∈ behind.head?, Trivia.isBlank c = true) :
    ArityAnswer n (stretch "fn f(".toList before n)
      (readText (around "fn f(".toList before n (behind ++ ") -> int;".toList))) := by
  have front : textOf functionFront = "fn f(".toList := rfl
  have stops : ∀ c ∈ (behind ++ ") -> int;".toList).head?, endsNumber c = true :=
    digits_end ')' apart rfl _
  rw [← front]
  rcases Nat.lt_or_ge n.magnitude (2 ^ 64) with small | large
  · obtain ⟨taken, token, offset, line, literal, placed, derived, lexed⟩ :=
      around_tokens (function_front_fits _) spaced stops small (function_back_parts ended)
    by_cases fits : Fits64 n.value
    · rcases Int.lt_or_le n.value 0 with negative | nonnegative
      · have refused := arity_negative derived literal fits negative
        rw [text_refused lexed (function_refused rfl rfl rfl (refused _))]
        exact .negative fits negative placed
      · rcases Int.lt_or_le 65535 n.value with large | inRange
        · obtain ⟨v, value, refused⟩ := arity_too_large derived literal fits large
          rw [text_refused lexed (function_refused rfl rfl rfl (refused _))]
          exact .tooLarge value large placed
        · have same := params_in_range nonnegative inRange
          rw [← same] at derived
          rw [text_accepted lexed (function_accepted rfl rfl rfl derived rfl rfl rfl rfl rfl)]
          exact .accepted same
    · have refused := integer_refused derived literal fits
      rw [text_refused lexed (function_refused rfl rfl rfl (bind_eq_error_iff.mpr (.inl (refused _))))]
      exact .outOfRange fits small placed
  · obtain ⟨token, lexed⟩ := around_overflow (function_front_fits _) spaced stops large
    rw [text_overflows lexed]
    exact .overflow large

/-- A numeral as the value of a declaration: which answer it has depends on its value,
and what is refused behind the lexer is refused where the numeral stands. -/
structure ReadAsValue (n : Numeral) (place : Span) (outcome : Except Rejection Listing) : Prop where
  accepted : (∃ v : Int64, v.toInt = n.value ∧
      ∃ t, outcome = .ok [.declaration ⟨"x", t⟩ { type := .int, intVal := v }]) ↔ Fits64 n.value
  outOfRange : (∃ t, outcome = .error (.syntactic ⟨.literal .integerOutOfRange, t⟩)) ↔
    ¬ Fits64 n.value ∧ n.magnitude < 2 ^ 64
  overflow : (∃ t, outcome = .error (.lexical ⟨.integerOverflow, t⟩)) ↔ 2 ^ 64 ≤ n.magnitude
  placed : ∀ e, outcome = .error (.syntactic e) → e.token.span = place

/-- A numeral as a number of parameters, in the same way. -/
structure ReadAsArity (n : Numeral) (place : Span) (outcome : Except Rejection Listing) : Prop where
  accepted : (∃ params : UInt16, params.toNat = n.value ∧
      ∃ t, outcome = .ok [.declaration ⟨"f", t⟩ { type := .function params .int }]) ↔
    0 ≤ n.value ∧ n.value ≤ 65535
  negative : (∃ t, outcome = .error (.syntactic ⟨.literal .negativeArity, t⟩)) ↔
    -2 ^ 63 ≤ n.value ∧ n.value ≤ -1
  tooLarge : (∃ v : Int64, v.toInt = n.value ∧
      ∃ t, outcome = .error (.syntactic ⟨.literal (.arityTooLarge v), t⟩)) ↔
    65536 ≤ n.value ∧ n.value ≤ 2 ^ 63 - 1
  outOfRange : (∃ t, outcome = .error (.syntactic ⟨.literal .integerOutOfRange, t⟩)) ↔
    ¬ Fits64 n.value ∧ n.magnitude < 2 ^ 64
  overflow : (∃ t, outcome = .error (.lexical ⟨.integerOverflow, t⟩)) ↔ 2 ^ 64 ≤ n.magnitude
  placed : ∀ e, outcome = .error (.syntactic e) → e.token.span = place

variable {place : Span} {outcome : Except Rejection Listing}

/-- A value of 64 bits with its sign has a magnitude of 64 bits. -/
theorem magnitude_of_fits (fits : Fits64 n.value) : n.magnitude < 2 ^ 64 := by
  have size : n.value.natAbs = n.magnitude := natAbs_value
  obtain ⟨lower, upper⟩ := fits
  omega

theorem fits_of_value {v : Int64} (value : v.toInt = n.value) : Fits64 n.value := by
  rw [← value]
  exact ⟨v.minValue_le_toInt, v.toInt_le⟩

/-- A value of 64 bits is of none of the zones that are refused as integers. -/
private theorem not_refused (fits : Fits64 n.value) :
    ¬ (¬ Fits64 n.value ∧ n.magnitude < 2 ^ 64) ∧ ¬ 2 ^ 64 ≤ n.magnitude :=
  ⟨fun refused => refused.1 fits, Nat.not_le.mpr (magnitude_of_fits fits)⟩

/-- The zones of a value exclude each other. -/
theorem ValueAnswer.exact (answer : ValueAnswer n place outcome) : ReadAsValue n place outcome := by
  cases answer with
  | @accepted v t value =>
    have fits := fits_of_value value
    exact {
      accepted := iff_of_true ⟨v, value, t, rfl⟩ fits
      outOfRange := iff_of_false (by rintro ⟨_, ⟨⟩⟩) (not_refused fits).1
      overflow := iff_of_false (by rintro ⟨_, ⟨⟩⟩) (not_refused fits).2
      placed := by rintro e ⟨⟩ }
  | @outOfRange t large small placed =>
    exact {
      accepted := iff_of_false (by rintro ⟨_, _, _, ⟨⟩⟩) large
      outOfRange := iff_of_true ⟨t, rfl⟩ ⟨large, small⟩
      overflow := iff_of_false (by rintro ⟨_, ⟨⟩⟩) (Nat.not_le.mpr small)
      placed := by rintro e ⟨⟩; exact placed }
  | @overflow t huge =>
    exact {
      accepted := iff_of_false (by rintro ⟨_, _, _, ⟨⟩⟩) fun fits => (not_refused fits).2 huge
      outOfRange := iff_of_false (by rintro ⟨_, ⟨⟩⟩) fun refused => Nat.not_le.mpr refused.2 huge
      overflow := iff_of_true ⟨t, rfl⟩ huge
      placed := by rintro e ⟨⟩ }

/-- The zones of a number of parameters exclude each other. -/
theorem ArityAnswer.exact (answer : ArityAnswer n place outcome) : ReadAsArity n place outcome := by
  cases answer with
  | @accepted params t value =>
    have bound := params.toNat_lt
    have fits : Fits64 n.value := by
      rw [← value]
      constructor <;> omega
    exact {
      accepted := iff_of_true ⟨params, value, t, rfl⟩ (by omega)
      negative := iff_of_false (by rintro ⟨_, ⟨⟩⟩) (by omega)
      tooLarge := iff_of_false (by rintro ⟨_, _, _, ⟨⟩⟩) (by omega)
      outOfRange := iff_of_false (by rintro ⟨_, ⟨⟩⟩) (not_refused fits).1
      overflow := iff_of_false (by rintro ⟨_, ⟨⟩⟩) (not_refused fits).2
      placed := by rintro e ⟨⟩ }
  | @negative t fits below placed =>
    exact {
      accepted := iff_of_false (by rintro ⟨_, _, _, ⟨⟩⟩) (by omega)
      negative := iff_of_true ⟨t, rfl⟩ ⟨fits.1, by omega⟩
      tooLarge := iff_of_false (by rintro ⟨_, _, _, ⟨⟩⟩) (by omega)
      outOfRange := iff_of_false (by rintro ⟨_, ⟨⟩⟩) (not_refused fits).1
      overflow := iff_of_false (by rintro ⟨_, ⟨⟩⟩) (not_refused fits).2
      placed := by rintro e ⟨⟩; exact placed }
  | @tooLarge v t value above placed =>
    have fits := fits_of_value value
    exact {
      accepted := iff_of_false (by rintro ⟨_, _, _, ⟨⟩⟩) (by omega)
      negative := iff_of_false (by rintro ⟨_, ⟨⟩⟩) (by omega)
      tooLarge := iff_of_true ⟨v, value, t, rfl⟩ ⟨by omega, fits.2⟩
      outOfRange := iff_of_false (by rintro ⟨_, ⟨⟩⟩) (not_refused fits).1
      overflow := iff_of_false (by rintro ⟨_, ⟨⟩⟩) (not_refused fits).2
      placed := by rintro e ⟨⟩; exact placed }
  | @outOfRange t large small placed =>
    unfold Fits64 at large
    exact {
      accepted := iff_of_false (by rintro ⟨_, _, _, ⟨⟩⟩) (by omega)
      negative := iff_of_false (by rintro ⟨_, ⟨⟩⟩) (by omega)
      tooLarge := iff_of_false (by rintro ⟨_, _, _, ⟨⟩⟩) (by omega)
      outOfRange := iff_of_true ⟨t, rfl⟩ ⟨large, small⟩
      overflow := iff_of_false (by rintro ⟨_, ⟨⟩⟩) (Nat.not_le.mpr small)
      placed := by rintro e ⟨⟩; exact placed }
  | @overflow t huge =>
    have large : ¬ (-2 ^ 63 ≤ n.value ∧ n.value ≤ 2 ^ 63 - 1) :=
      fun fits => (not_refused fits).2 huge
    exact {
      accepted := iff_of_false (by rintro ⟨_, _, _, ⟨⟩⟩) (by omega)
      negative := iff_of_false (by rintro ⟨_, ⟨⟩⟩) (by omega)
      tooLarge := iff_of_false (by rintro ⟨_, _, _, ⟨⟩⟩) (by omega)
      outOfRange := iff_of_false (by rintro ⟨_, ⟨⟩⟩) fun refused => Nat.not_le.mpr refused.2 huge
      overflow := iff_of_true ⟨t, rfl⟩ huge
      placed := by rintro e ⟨⟩ }

/-- Digits of any length, with a sign or without one, are read exactly or refused for
the limit that they pass, both as the value of a declaration and as a number of
parameters. -/
theorem integer_limits_exact (n : Numeral) (spaced : Spacing before) (ended : Spacing behind)
    (apart : ∀ c ∈ behind.head?, Trivia.isBlank c = true) :
    ReadAsValue n (stretch "int x =".toList before n)
        (readText (around "int x =".toList before n (behind ++ [';']))) ∧
      ReadAsArity n (stretch "fn f(".toList before n)
        (readText (around "fn f(".toList before n (behind ++ ") -> int;".toList))) :=
  ⟨(value_answered n spaced ended apart).exact, (arity_answered n spaced ended apart).exact⟩

/-- The numeral `-009223372036854775808`, with a line break behind the sign. -/
def least : Numeral where
  sign := some ['\n']
  digits := "009223372036854775808".toList
  spaced := by
    rintro gap ⟨⟩ after
    exact .blank (by decide) .nothing
  nonempty := by simp
  decimal := List.all_eq_true.mp rfl

/-- The least integer is a value, and no number of parameters. -/
theorem least_integer_read :
    (∃ t, readText "int x = -\n009223372036854775808;" =
        .ok [.declaration ⟨"x", t⟩ { type := .int, intVal := Int64.minValue }]) ∧
      ∃ t, t.span = ⟨6, 29⟩ ∧ readText "fn f( -\n009223372036854775808) -> int;" =
        .error (.syntactic ⟨.literal .negativeArity, t⟩) := by
  have blank : Spacing [' '] := fun _ => .blank (by decide) .nothing
  obtain ⟨value, arity⟩ := integer_limits_exact least blank (fun _ => .nothing) (by simp)
  have size : least.value = -9223372036854775808 := by decide +kernel
  constructor
  · obtain ⟨v, same, t, read⟩ := value.accepted.mpr (by rw [size]; constructor <;> omega)
    obtain rfl : v = Int64.minValue := Int64.toInt_inj.mp (same.trans size)
    exact ⟨t, read⟩
  · obtain ⟨t, refused⟩ := arity.negative.mpr (by omega)
    exact ⟨t, arity.placed _ refused, refused⟩

end DeclListing.IntegerLimits
