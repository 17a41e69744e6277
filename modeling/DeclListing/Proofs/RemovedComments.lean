import DeclListing.Proofs.InsertedComments

/-! Texts without their comments. A comment goes from two slashes that stand between
tokens up to the end of the line, whose line feed stays. Without the comments of a text the
same tokens are read, closed up by the bytes that were taken out before them: what stood
directly before a comment now stands before a line feed or at the end of the text, and can
do so whatever it is. So the same is read and the same is said by the check. -/
namespace DeclListing.RemovedComments
open Lexeme TokenGrammarExactness JoinedTexts InsertedComments

variable {text : String} {cs gap after rest last written body tail : List Char}
  {terminal : Terminal} {pieces : List Piece} {tokens : List Token} {t : Token} {p : Piece}
  {covered : Nat → Bool} {position offset line : Nat} {marks front back : List (Char × Bool)}

/-- Whether a position is inside one of the tokens. -/
def insideToken (tokens : List Token) (position : Nat) : Bool :=
  tokens.any fun t => t.span.start ≤ position && position < t.span.stop

/-- The characters of a text from `position` on, each with whether it is part of a comment.
A comment starts with two slashes where `covered` says that nothing else stands, and goes on
up to the end of the line. -/
def commentMarks (covered : Nat → Bool) : Bool → Nat → List Char → List (Char × Bool)
  | _, _, [] => []
  | inside, position, c :: cs =>
    let starts := c = '/' && cs.head? = some '/' && !covered position
    let commented := c ≠ '\n' && (inside || starts)
    (c, commented) :: commentMarks covered commented (position + c.utf8Size) cs

/-- The characters, marked or not. -/
def chars (marks : List (Char × Bool)) : List Char :=
  marks.map Prod.fst

/-- The characters that are no part of a comment. -/
def kept (marks : List (Char × Bool)) : List Char :=
  (marks.filter fun m => !m.2).map Prod.fst

/-- The bytes of comments before a position. -/
def commentBytes : List (Char × Bool) → Nat → Nat
  | [], _ => 0
  | (c, commented) :: marks, position =>
    if position = 0 then 0
    else (if commented then c.utf8Size else 0) + commentBytes marks (position - c.utf8Size)

/-- The characters of a text that has these tokens, with its comments marked. -/
def textMarks (text : String) (tokens : List Token) : List (Char × Bool) :=
  commentMarks (insideToken tokens) false 0 text.toList

/-- A text that has these tokens, without its comments. -/
def uncommented (text : String) (tokens : List Token) : String :=
  String.ofList (kept (textMarks text tokens))

/-- Characters that separate lexemes and mean nothing. -/
def Blanks (cs : List Char) : Prop :=
  ∀ c ∈ cs, c ∈ blanks

/-- A text that has nothing but blanks between its lexemes. -/
def CommentFree (cs : List Char) : Prop :=
  ∃ pieces last, Decomposition cs pieces last ∧ (∀ p ∈ pieces, Blanks p.gap) ∧ Blanks last

/-- How tokens move when the marked characters are taken out. -/
def closedUp (marks : List (Char × Bool)) : Relocation where
  place position := position - commentBytes marks position
  line number := number

@[simp]
theorem chars_append (front back : List (Char × Bool)) :
    chars (front ++ back) = chars front ++ chars back :=
  List.map_append

@[simp]
theorem kept_append (front back : List (Char × Bool)) :
    kept (front ++ back) = kept front ++ kept back := by
  simp [kept]

@[simp]
theorem kept_cons (c : Char) (commented : Bool) (marks : List (Char × Bool)) :
    kept ((c, commented) :: marks) = if commented then kept marks else c :: kept marks := by
  cases commented <;> rfl

/-- Characters of a lexeme, none of which is part of a comment. -/
def plain (written : List Char) : List (Char × Bool) :=
  written.map (·, false)

/-- Characters of a comment. -/
def struck (body : List Char) : List (Char × Bool) :=
  body.map (·, true)

@[simp]
theorem chars_plain (written : List Char) : chars (plain written) = written := by
  simp [chars, plain, Function.comp_def]

@[simp]
theorem kept_plain (written : List Char) : kept (plain written) = written := by
  simp [kept, plain, List.filter_map, Function.comp_def]

@[simp]
theorem kept_struck (body : List Char) : kept (struck body) = [] := by
  simp [kept, struck, List.filter_map, Function.comp_def]

/-- What is kept before a position and what is taken out make up what was there. -/
theorem kept_add_comment_bytes (front back : List (Char × Bool)) :
    Text.byteLength (kept front) + commentBytes (front ++ back) (Text.byteLength (chars front)) =
      Text.byteLength (chars front) := by
  induction front with
  | nil => cases back <;> rfl
  | cons m front ih =>
    obtain ⟨c, commented⟩ := m
    have wide := c.utf8Size_pos
    have behind : Text.byteLength (chars ((c, commented) :: front)) =
        c.utf8Size + Text.byteLength (chars front) := rfl
    rw [behind, List.cons_append, commentBytes, if_neg (by omega), Nat.add_sub_cancel_left]
    cases commented with
    | true =>
      simp only [kept_cons, if_true]
      omega
    | false =>
      simp only [kept_cons, Bool.false_eq_true, if_false, Text.byteLength_cons]
      omega

/-- Where the characters behind some others move to. -/
theorem place_behind (front back : List (Char × Bool)) :
    (closedUp (front ++ back)).place (Text.byteLength (chars front)) =
      Text.byteLength (kept front) :=
  Nat.sub_eq_of_eq_add (kept_add_comment_bytes front back).symm

theorem chars_marks (inside : Bool) (position : Nat) (cs : List Char) :
    chars (commentMarks covered inside position cs) = cs := by
  induction cs generalizing inside position with
  | nil => rfl
  | cons c cs ih => exact congrArg (c :: ·) (ih ..)

/-- No line feed is part of a comment. -/
theorem line_feeds_kept (inside : Bool) (position : Nat) (cs : List Char) :
    Text.lineFeeds (kept (commentMarks covered inside position cs)) = Text.lineFeeds cs := by
  induction cs generalizing inside position with
  | nil => rfl
  | cons c cs ih =>
    simp only [commentMarks, kept_cons]
    split
    · rename_i taken
      have other : c ≠ '\n' := by
        simp only [Bool.and_eq_true, decide_eq_true_eq] at taken
        exact taken.1
      rw [ih, Text.lineFeeds, Text.lineFeeds, List.count_cons_of_ne other]
    · simp only [Text.lineFeeds, List.count_cons]
      exact congrArg (· + _) (ih ..)

/-- Nothing else stands at the positions of these characters. -/
def Bare (covered : Nat → Bool) (position : Nat) (cs : List Char) : Prop :=
  ∀ n, n < Text.byteLength cs → covered (position + n) = false

/-- A comment is over where its line ends. -/
theorem marks_at_line_end (ends : EndsLine cs) :
    commentMarks covered true position cs = commentMarks covered false position cs := by
  cases cs with
  | nil => rfl
  | cons c cs =>
    obtain rfl : c = '\n' := ends c rfl
    rfl

/-- A comment that has started goes up to the end of its line. -/
theorem marks_inside (oneLine : '\n' ∉ body) (ends : EndsLine tail) :
    commentMarks covered true position (body ++ tail) =
      struck body ++ commentMarks covered false (position + Text.byteLength body) tail := by
  induction body generalizing position with
  | nil => exact marks_at_line_end ends
  | cons c body ih =>
    obtain ⟨other, oneLine⟩ := not_or.mp (mt List.mem_cons.mpr oneLine)
    have inner := @ih (position + c.utf8Size) oneLine
    rw [Nat.add_assoc] at inner
    simp [commentMarks, struck, Ne.symm other, inner]

/-- The marks of a comment. -/
theorem marks_comment (oneLine : '\n' ∉ body) (ends : EndsLine tail)
    (bare : covered position = false) :
    commentMarks covered false position ('/' :: '/' :: (body ++ tail)) =
      struck ('/' :: '/' :: body) ++
        commentMarks covered false (position + Text.byteLength ('/' :: '/' :: body)) tail := by
  have inner := @marks_inside ('/' :: body) tail covered (position + '/'.utf8Size)
    (by simpa using oneLine) ends
  rw [Nat.add_assoc] at inner
  have first : commentMarks covered false position ('/' :: '/' :: (body ++ tail)) =
      ('/', true) :: commentMarks covered true (position + '/'.utf8Size)
        (('/' :: body) ++ tail) := by
    rw [commentMarks]
    simp [bare]
  rw [first, inner]
  rfl

theorem marks_blank {c : Char} (blank : c ∈ blanks) (cs : List Char) :
    commentMarks covered false position (c :: cs) =
      (c, false) :: commentMarks covered false (position + c.utf8Size) cs := by
  have noSlash : c ≠ '/' := by
    rintro rfl
    exact absurd blank (by decide)
  rw [commentMarks]
  simp [noSlash]

theorem Bare.behind (before : List Char) (bare : Bare covered position (before ++ cs)) :
    Bare covered (position + Text.byteLength before) cs := by
  intro n inside
  rw [Nat.add_assoc]
  exact bare _ (by rw [Text.byteLength_append]; omega)

theorem Bare.start {c : Char} (bare : Bare covered position (c :: cs)) :
    covered position = false := by
  have wide := c.utf8Size_pos
  exact bare 0 (by rw [Text.byteLength_cons]; omega)

theorem gap_ends (ends : EndsLine (gap ++ after)) : EndsLine gap := by
  cases gap with
  | nil => simp [EndsLine]
  | cons c gap => exact ends

/-- The marks of a gap do not depend on what follows. -/
theorem marks_gap (trivia : Gap gap after) (bare : Bare covered position gap) :
    commentMarks covered false position (gap ++ after) =
      commentMarks covered false position gap ++
        commentMarks covered false (position + Text.byteLength gap) after := by
  induction trivia generalizing position with
  | nothing => rfl
  | @blank c gap after blank _ ih =>
    have later := ih (.behind [c] bare)
    rw [List.cons_append, marks_blank blank, marks_blank blank, Text.byteLength_cons,
      ← Nat.add_assoc]
    exact congrArg ((c, false) :: ·) later
  | @comment body gap after oneLine ends _ ih =>
    have later := ih (.behind ('/' :: '/' :: body) bare)
    have whole : '/' :: '/' :: (body ++ gap) ++ after = '/' :: '/' :: (body ++ (gap ++ after)) := by
      simp
    have length : Text.byteLength ('/' :: '/' :: (body ++ gap)) =
        Text.byteLength ('/' :: '/' :: body) + Text.byteLength gap := by
      simp [Nat.add_assoc]
    rw [whole, marks_comment oneLine ends bare.start,
      marks_comment oneLine (gap_ends ends) bare.start, later, length, Nat.add_assoc,
      List.append_assoc]

/-- Without its comments, a gap is made of blanks. -/
theorem kept_blank (trivia : Gap gap after) (bare : Bare covered position gap) :
    Blanks (kept (commentMarks covered false position gap)) := by
  induction trivia generalizing position with
  | nothing => exact List.forall_mem_nil _
  | @blank c gap after blank _ ih =>
    rw [marks_blank blank]
    exact List.forall_mem_cons.mpr ⟨blank, ih (.behind [c] bare)⟩
  | @comment body gap after oneLine ends _ ih =>
    rw [marks_comment oneLine (gap_ends ends) bare.start, kept_append, kept_struck]
    exact ih (.behind ('/' :: '/' :: body) bare)

/-- Blanks are a gap in front of anything. -/
theorem gap_of_blanks (blanks : Blanks cs) (after : List Char) : Gap cs after := by
  induction cs with
  | nil => exact .nothing
  | cons c cs ih =>
    obtain ⟨blank, others⟩ := List.forall_mem_cons.mp blanks
    exact .blank blank (ih others)

/-- The end of a line can follow every lexeme. -/
theorem follow_line_end (ends : EndsLine cs) : CanFollow terminal cs := by
  cases cs with
  | nil => cases terminal <;> simp [CanFollow]
  | cons c cs =>
    obtain rfl : c = '\n' := ends c rfl
    have nothing : CanFollow terminal [] := by cases terminal <;> simp [CanFollow]
    exact follow_line nothing cs

/-- What can follow a lexeme can follow it without its comments. -/
theorem follow_kept (trivia : Gap gap after) (bare : Bare covered position gap)
    (follow : CanFollow terminal (gap ++ after)) :
    CanFollow terminal (kept (commentMarks covered false position gap) ++ after) := by
  cases trivia with
  | nothing => exact follow
  | @blank c gap _ blank _ =>
    rw [marks_blank blank]
    have first : CanFollow terminal ([c] ++ (gap ++ after)) := follow
    exact follow_before first (by simp) _
  | @comment body gap _ oneLine ends _ =>
    rw [marks_comment oneLine (gap_ends ends) bare.start, kept_append, kept_struck]
    apply follow_line_end
    cases gap with
    | nil => exact ends
    | cons c gap =>
      obtain rfl : c = '\n' := ends c rfl
      rw [marks_blank (by decide)]
      simp [EndsLine]

/-- Something else stands at the positions of these characters. -/
def Held (covered : Nat → Bool) (position : Nat) (cs : List Char) : Prop :=
  ∀ n, n < Text.byteLength cs → covered (position + n) = true

/-- No character of a lexeme is part of a comment. -/
theorem marks_lexeme (held : Held covered position written) (rest : List Char) :
    commentMarks covered false position (written ++ rest) =
      plain written ++ commentMarks covered false (position + Text.byteLength written) rest := by
  induction written generalizing position with
  | nil => rfl
  | cons c written ih =>
    have wide := c.utf8Size_pos
    have here : covered position = true := held 0 (by rw [Text.byteLength_cons]; omega)
    have later := @ih (position + c.utf8Size) fun n inside => by
      rw [Nat.add_assoc]
      exact held _ (by rw [Text.byteLength_cons]; omega)
    rw [Nat.add_assoc] at later
    simp [commentMarks, plain, here, later]

/-! ## Pieces -/

theorem placed_start_le (pieces : List Piece) {offset line : Nat} :
    ∀ u ∈ placedTokens offset line pieces last, offset ≤ u.span.start := by
  induction pieces generalizing offset line with
  | nil => simp [placed_end, Lexer.endToken]
  | cons p pieces ih =>
    rw [placed_cons]
    refine List.forall_mem_cons.mpr ⟨Nat.le_add_right .., fun u listed => ?_⟩
    exact Nat.le_trans (Nat.le_add_right ..) (ih u listed)

theorem outside_tokens (before : position < offset) :
    insideToken (placedTokens offset line pieces last) position = false := by
  refine List.any_eq_false.mpr fun u listed => ?_
  have start := placed_start_le pieces u listed
  simp only [Bool.and_eq_true, decide_eq_true_eq]
  omega

/-- From a position on, these are the positions inside these tokens. -/
def Covers (covered : Nat → Bool) (offset : Nat) (tokens : List Token) : Prop :=
  ∀ n, covered (offset + n) = insideToken tokens (offset + n)

/-- The tokens of a text stand where their lexemes are, and in no gap. -/
theorem piece_covered
    (covers : Covers covered offset (placedTokens offset line (p :: pieces) last)) :
    Bare covered offset p.gap ∧ Held covered (offset + Text.byteLength p.gap) p.written ∧
      Covers covered (offset + Text.byteLength p.text)
        (placedTokens (offset + Text.byteLength p.text) (line + Text.lineFeeds p.text)
          pieces last) := by
  have wide : Text.byteLength p.text = Text.byteLength p.gap + Text.byteLength p.written := by
    rw [Piece.text, Text.byteLength_append]
  have here (n : Nat) : covered (offset + n) =
      (decide (Text.byteLength p.gap ≤ n ∧ n < Text.byteLength p.text) ||
        insideToken (placedTokens (offset + Text.byteLength p.text)
          (line + Text.lineFeeds p.text) pieces last) (offset + n)) := by
    rw [covers n]
    simp [insideToken, placed_cons, pieceToken]
  refine ⟨fun n inside => ?_, fun n inside => ?_, fun n => ?_⟩
  · rw [here, outside_tokens (by omega), Bool.or_false, decide_eq_false_iff_not]
    omega
  · rw [Nat.add_assoc, here, decide_eq_true (by omega), Bool.true_or]
  · rw [Nat.add_assoc, here, decide_eq_false (by omega), Bool.false_or]

/-- The marks of a piece and of what follows. -/
theorem marks_piece (trivia : Gap p.gap (p.written ++ rest)) (bare : Bare covered offset p.gap)
    (held : Held covered (offset + Text.byteLength p.gap) p.written) :
    commentMarks covered false offset (p.text ++ rest) =
      commentMarks covered false offset p.gap ++ (plain p.written ++
        commentMarks covered false (offset + Text.byteLength p.text) rest) := by
  rw [Piece.text, List.append_assoc, marks_gap trivia bare, marks_lexeme held, Nat.add_assoc,
    Text.byteLength_append]

/-- The characters of a token, and what is marked before and behind them. -/
structure Intact (marks front : List (Char × Bool)) (written : List Char)
    (back : List (Char × Bool)) (t : Token) : Prop where
  /-- No character of the token is part of a comment. -/
  split : marks = front ++ (plain written ++ back)
  /-- They are those that the token stands for. -/
  span : t.span = ⟨Text.byteLength (chars front), Text.byteLength (chars front ++ written)⟩

/-- A token is closed up with its characters. -/
theorem token_closed (intact : Intact marks front written back t) :
    (closedUp marks).token t = { t with
      span := ⟨Text.byteLength (kept front), Text.byteLength (kept front ++ written)⟩ } := by
  have start := place_behind front (plain written ++ back)
  have stop := place_behind (front ++ plain written) back
  rw [chars_append, chars_plain, kept_append, kept_plain, List.append_assoc] at stop
  rw [intact.split, Relocation.token, intact.span, start, stop]
  rfl

/-- As many bytes of comments are before the end of a token as before its start. -/
theorem comment_bytes_of_intact (intact : Intact marks front written back t) :
    commentBytes marks t.span.stop = commentBytes marks t.span.start := by
  have start := kept_add_comment_bytes front (plain written ++ back)
  have stop := kept_add_comment_bytes (front ++ plain written) back
  rw [chars_append, chars_plain, kept_append, kept_plain, List.append_assoc] at stop
  rw [intact.split, intact.span]
  simp only [Text.byteLength_append] at stop ⊢
  omega

/-- A token shows the same stretch of the text when the comments are taken out. -/
theorem stretch_of_intact (intact : Intact marks front written back t) :
    Text.slice? (kept marks) ((closedUp marks).place t.span.start)
        ((closedUp marks).place t.span.stop) =
      Text.slice? (chars marks) t.span.start t.span.stop := by
  have moved := congrArg Token.span (token_closed intact)
  obtain ⟨start, stop⟩ := Span.mk.inj moved
  rw [start, stop, intact.span, intact.split]
  simp only [kept_append, kept_plain, chars_append, chars_plain, Text.byteLength_append,
    ← List.append_assoc, Text.slice?_append]

/-- The text of a piece without its comments. -/
def closedPiece (covered : Nat → Bool) (offset : Nat) (p : Piece) : Piece :=
  { p with gap := kept (commentMarks covered false offset p.gap) }

theorem closed_piece_lines (offset : Nat) (p : Piece) :
    Text.lineFeeds (closedPiece covered offset p).text = Text.lineFeeds p.text := by
  simp [closedPiece, Piece.text, line_feeds_kept]

/-- No character of a piece's token is part of a comment. -/
theorem piece_intact (length : Text.byteLength (chars front) = offset)
    (back : List (Char × Bool)) :
    Intact (front ++ (commentMarks covered false offset p.gap ++ (plain p.written ++ back)))
      (front ++ commentMarks covered false offset p.gap) p.written back
      (pieceToken offset line p) := by
  constructor
  · exact (List.append_assoc ..).symm
  · simp [pieceToken, Piece.text, chars_marks, length]

/-- The token of a piece is closed up to that of the piece without its comments. -/
theorem piece_closed (length : Text.byteLength (chars front) = offset) :
    (closedUp (front ++ (commentMarks covered false offset p.gap ++
        (plain p.written ++ back)))).token (pieceToken offset line p) =
      pieceToken (Text.byteLength (kept front)) line (closedPiece covered offset p) := by
  rw [token_closed (piece_intact length back), pieceToken, pieceToken, closed_piece_lines]
  simp [closedPiece, Piece.text]

theorem last_bare (covers : Covers covered offset (placedTokens offset line [] last)) :
    Bare covered offset last := by
  intro n _
  rw [covers n]
  simp [insideToken, placed_end, Lexer.endToken]

/-- What can follow a lexeme still can without its comments. -/
theorem follow_uncommented (parts : Decomposition cs pieces last)
    (covers : Covers covered offset (placedTokens offset line pieces last))
    (follow : CanFollow terminal cs) :
    CanFollow terminal (kept (commentMarks covered false offset cs)) := by
  cases parts with
  | done trivia =>
    rw [← List.append_nil cs] at follow
    simpa using follow_kept trivia (last_bare covers) follow
  | piece trivia form _ _ =>
    obtain ⟨bare, held, -⟩ := piece_covered covers
    rw [Piece.text, List.append_assoc] at follow
    have own := follow_kept trivia bare follow
    rw [← List.append_assoc] at own
    rw [marks_piece trivia bare held, kept_append, kept_append, kept_plain, ← List.append_assoc]
    exact follow_before own (by simp [form_nonempty form]) _

/-- A text without its comments is made of the same lexemes. Its tokens are closed up, and
none loses a character. -/
theorem pieces_uncommented (parts : Decomposition cs pieces last)
    (covers : Covers covered offset (placedTokens offset line pieces last)) :
    ∃ closed tail, Decomposition (kept (commentMarks covered false offset cs)) closed tail ∧
      (∀ q ∈ closed, Blanks q.gap) ∧ Blanks tail ∧
      ∀ before, Text.byteLength (chars before) = offset →
        placedTokens (Text.byteLength (kept before)) line closed tail =
            (placedTokens offset line pieces last).map
              (closedUp (before ++ commentMarks covered false offset cs)).token ∧
          ∀ t ∈ placedTokens offset line pieces last, ∃ front written back,
            Intact (before ++ commentMarks covered false offset cs) front written back t := by
  induction parts generalizing offset line with
  | @done last trivia =>
    have blanks := kept_blank trivia (last_bare covers)
    refine ⟨[], _, .done (gap_of_blanks blanks []), List.forall_mem_nil _, blanks,
      fun before length => ?_⟩
    have intact : Intact (before ++ commentMarks covered false offset last)
        (before ++ commentMarks covered false offset last) [] []
        (Lexer.endToken (offset + Text.byteLength last) (line + Text.lineFeeds last)) := by
      constructor
      · simp [plain]
      · simp [Lexer.endToken, chars_marks, length]
    rw [placed_end, placed_end]
    refine ⟨?_, List.forall_mem_singleton.mpr ⟨_, _, _, intact⟩⟩
    simp only [List.map_cons, List.map_nil, token_closed intact]
    simp [Lexer.endToken, line_feeds_kept]
  | @piece p rest pieces last trivia form follow parts ih =>
    obtain ⟨bare, held, later⟩ := piece_covered covers
    obtain ⟨closed, tail, remade, gaps, ends, moved⟩ := ih later
    have blanks := kept_blank trivia bare
    rw [marks_piece trivia bare held]
    refine ⟨closedPiece covered offset p :: closed, tail, ?_,
      List.forall_mem_cons.mpr ⟨blanks, gaps⟩, ends, fun before length => ?_⟩
    · rw [kept_append, kept_append, kept_plain, ← List.append_assoc]
      exact .piece (p := closedPiece covered offset p) (gap_of_blanks blanks _) form
        (follow_uncommented parts later follow) remade
    · -- What follows stands behind the marks of this piece.
      let marked := commentMarks covered false offset p.gap ++ plain p.written
      have reached : Text.byteLength (chars (before ++ marked)) =
          offset + Text.byteLength p.text := by
        simp [marked, chars_marks, length, Piece.text]
      have place : Text.byteLength (kept (before ++ marked)) =
          Text.byteLength (kept before) + Text.byteLength (closedPiece covered offset p).text := by
        simp [marked, closedPiece, Piece.text]
      obtain ⟨rest_moved, rest_intact⟩ := moved _ reached
      rw [place] at rest_moved
      simp only [marked, List.append_assoc] at rest_moved rest_intact
      rw [placed_cons, placed_cons]
      refine ⟨?_, List.forall_mem_cons.mpr ⟨⟨_, _, _, piece_intact length _⟩, rest_intact⟩⟩
      rw [List.map_cons, closed_piece_lines, rest_moved, piece_closed length]

theorem uncommented_chars (text : String) (tokens : List Token) :
    (uncommented text tokens).toList = kept (textMarks text tokens) := by
  rw [uncommented, String.toList_ofList]

/-- The tokens of a text without its comments, and what is marked around each of them. -/
theorem tokens_uncommented (lexed : tokensOf text = .ok tokens) :
    CommentFree (uncommented text tokens).toList ∧
      tokensOf (uncommented text tokens) =
        .ok (tokens.map (closedUp (textMarks text tokens)).token) ∧
      ∀ t ∈ tokens, ∃ front written back,
        Intact (textMarks text tokens) front written back t := by
  obtain ⟨pieces, last, parts, rfl⟩ := decomposition_of_tokenize (l := .ofText text) rfl lexed
  have covers : Covers (insideToken (placedTokens 0 1 pieces last)) 0
    (placedTokens 0 1 pieces last) := fun _ => rfl
  obtain ⟨closed, tail, remade, gaps, ends, moved⟩ := pieces_uncommented parts covers
  obtain ⟨placed, intact⟩ := moved [] rfl
  have here : (Lexer.ofText (uncommented text (placedTokens 0 1 pieces last))).rest =
      kept (textMarks text (placedTokens 0 1 pieces last)) := by
    simp only [Lexer.ofText, uncommented_chars]
  have free : CommentFree (uncommented text (placedTokens 0 1 pieces last)).toList :=
    uncommented_chars text _ ▸ ⟨closed, tail, remade, gaps, ends⟩
  exact ⟨free, (tokenize_decomposition remade rfl here).trans (congrArg Except.ok placed), intact⟩

/-- Taking the comments out of a text leaves nothing but blanks between its tokens, and it
changes only where things stand. The same tokens are read on the same lines, each closed up
by the bytes of comments before it, which are none within it; the same items are read, or the
same fault is come to; and the same is said by the check. -/
theorem comments_removed_exact (lexed : tokensOf text = .ok tokens) :
    CommentFree (uncommented text tokens).toList ∧
      tokensOf (uncommented text tokens) =
        .ok (tokens.map (closedUp (textMarks text tokens)).token) ∧
      (∀ t ∈ tokens, commentBytes (textMarks text tokens) t.span.stop =
        commentBytes (textMarks text tokens) t.span.start) ∧
      readText (uncommented text tokens) =
        ((readText text).mapError (closedUp (textMarks text tokens)).rejection).map
          (List.map (closedUp (textMarks text tokens)).item) ∧
      checkText (uncommented text tokens) =
        (closedUp (textMarks text tokens)).verdict (checkText text) := by
  obtain ⟨free, also, intact⟩ := tokens_uncommented lexed
  have shows : ∀ e rest, Reader.listing tokens = .error e rest →
      (closedUp (textMarks text tokens)).Shows text.toList (uncommented text tokens).toList e := by
    intro e rest failed
    refine fault_shown lexed failed fun t listed => ?_
    obtain ⟨front, written, back, whole⟩ := intact t listed
    have stretch := stretch_of_intact whole
    rw [show chars (textMarks text tokens) = text.toList from chars_marks ..] at stretch
    rw [uncommented_chars, stretch]
  refine ⟨free, also, fun t listed => ?_, Relocation.readText_moved lexed also shows,
    Relocation.checkText_moved lexed also shows⟩
  obtain ⟨front, written, back, whole⟩ := intact t listed
  exact comment_bytes_of_intact whole

/-- Two slashes in a string stay, and a comment directly behind it goes. -/
theorem comment_behind_string_removed :
    ∃ tokens, tokensOf "str s = \"//\"// a\n;" = .ok tokens ∧
      uncommented "str s = \"//\"// a\n;" tokens = "str s = \"//\"\n;" ∧
      tokensOf "str s = \"//\"\n;" = .ok (tokens.map
        (closedUp (textMarks "str s = \"//\"// a\n;" tokens)).token) ∧
      checkText "str s = \"//\"\n;" =
        (closedUp (textMarks "str s = \"//\"// a\n;" tokens)).verdict
          (checkText "str s = \"//\"// a\n;") := by
  have lexed : tokensOf "str s = \"//\"// a\n;" = .ok [⟨.keyword .str, ⟨0, 3⟩, 1⟩,
      ⟨.identifier "s", ⟨4, 5⟩, 1⟩, ⟨.equal, ⟨6, 7⟩, 1⟩, ⟨.string "//", ⟨8, 12⟩, 1⟩,
      ⟨.semicolon, ⟨17, 18⟩, 2⟩, ⟨.eof, ⟨18, 18⟩, 2⟩] := by decide +kernel
  obtain ⟨-, also, -, -, said⟩ := comments_removed_exact lexed
  exact ⟨_, lexed, by decide +kernel, also, said⟩

end DeclListing.RemovedComments
