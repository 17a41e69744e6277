import DeclListing.Proofs.Relocation
import DeclListing.Proofs.ReportPlaces

/-! Two texts with a line feed between them. Where the first is a listing, the line
feed ends its last comment and its last lexeme, so its tokens are those that it has
alone; and its last item is complete, so the second text is read as it is alone, only
further back. What the check says of the first is then said of both, before all
that it says of the second. -/
namespace DeclListing.JoinedTexts
open Lexeme TokenGrammarExactness ListingGrammarExactness NameConservation CheckDiagnostics
open FaultPlaces ReportPlaces

variable {text gap after last rest : List Char} {t : Terminal} {pieces : List Piece}
  {l k : Lexer} {tokens : List Token} {items : Listing}

/-- A gap in front of something is a gap whatever follows that. -/
theorem gap_before (trivia : Gap gap (after ++ rest)) (nonempty : after ≠ [])
    (more : List Char) : Gap gap (after ++ more) := by
  generalize whole : after ++ rest = behind at trivia
  induction trivia with
  | nothing => exact .nothing
  | blank listed _ ih => exact .blank listed (ih whole)
  | @comment body gap behind plain line _ ih =>
    have head (tail : List Char) : (gap ++ (after ++ tail)).head? = (gap ++ after).head? := by
      rw [← List.append_assoc, List.head?_append_of_ne_nil _ (by simp [nonempty])]
    refine .comment plain ?_ (ih whole)
    rw [EndsLine, head, ← head rest, whole]
    exact line

/-- Blanks and comments up to the end of a text are a gap with a line feed behind
them. -/
theorem gap_line (trivia : Gap last after) (ends : after = []) (more : List Char) :
    Gap (last ++ ['\n']) more := by
  induction trivia with
  | nothing => exact .blank (by decide) .nothing
  | blank listed _ ih => exact .blank listed (ih ends)
  | @comment body gap after plain line _ ih =>
    subst ends
    have inner : EndsLine ((gap ++ ['\n']) ++ more) := by
      cases gap with
      | nil => simp [EndsLine]
      | cons c gap => exact line
    simpa using Gap.comment plain inner (ih rfl)

/-- What can follow a lexeme can do so with another line behind it. At the end of
a text, the line feed itself can follow every lexeme. -/
theorem follow_line (follow : CanFollow t rest) (more : List Char) :
    CanFollow t (rest ++ '\n' :: more) := by
  cases rest with
  | nil =>
    cases t with
    | minus | keyword | identifier | integer => rintro _ ⟨⟩; decide
    | _ => trivial
  | cons c rest => cases t <;> exact follow

/-- The place behind some text, with `rest` to come. -/
def skipped (l : Lexer) (taken rest : List Char) : Lexer where
  rest := rest
  offset := l.offset + Text.byteLength taken
  line := l.line + Text.lineFeeds taken
  finished := l.finished

/-- A gap is skipped on the way to the next token. -/
theorem next_skipped (here : l.rest = gap ++ rest) (trivia : Gap gap rest) :
    l.next = (skipped l gap rest).next := by
  simp only [Lexer.next, here, split_behind_gap trivia, skipped, Text.byteLength_append,
    Text.lineFeeds_append, Nat.add_assoc]

/-- Reading depends on the next token and the place behind it. -/
theorem tokenize_of_next (unfinished : l.finished = false) (also : k.finished = false)
    (same : l.next = k.next) : l.tokenize = k.tokenize := by
  rcases read : k.next with ⟨e | t, moved⟩
  · rw [tokenize_error unfinished (same.trans read), tokenize_error also read]
  · rw [tokenize_token unfinished (same.trans read), tokenize_token also read]

/-- The pieces of a text are read as they are when a line feed and more text is
behind it, and then the text behind the line feed is read. -/
theorem tokenize_line (parts : Decomposition text pieces last) {more : List Char}
    (unfinished : l.finished = false) (here : l.rest = text ++ '\n' :: more) :
    l.tokenize.1 = (skipped l (text ++ ['\n']) more).tokenize.1.map
      ((placedTokens l.offset l.line pieces last).dropLast ++ ·) := by
  induction parts generalizing l with
  | @done last trivia =>
    -- The line feed ends a last comment and belongs to the gap before the next token.
    have split : l.rest = (last ++ ['\n']) ++ more := by simp [here]
    rw [tokenize_of_next unfinished (k := skipped l (last ++ ['\n']) more) unfinished
      (next_skipped split (gap_line trivia rfl more))]
    exact (congrFun Except.map_id _).symm
  | @piece p rest pieces last trivia form follow parts ih =>
    have split : l.rest = p.text ++ (rest ++ '\n' :: more) := by rw [here, List.append_assoc]
    have longer := gap_before trivia (form_nonempty form) (rest ++ '\n' :: more)
    -- Behind this piece the first text goes on from where the piece ends.
    have place : skipped (behind l p (rest ++ '\n' :: more)) (rest ++ ['\n']) more =
        skipped l (p.text ++ rest ++ ['\n']) more := by
      simp [skipped, behind, Nat.add_assoc]
    have front : (placedTokens l.offset l.line (p :: pieces) last).dropLast =
        pieceToken l.offset l.line p ::
          (placedTokens (l.offset + Text.byteLength p.text) (l.line + Text.lineFeeds p.text)
            pieces last).dropLast := by
      rw [placed_cons]
      cases pieces <;> rfl
    rw [tokenize_piece unfinished split longer form (follow_line follow more),
      ih (l := behind l p _) unfinished rfl, place, front]
    cases (skipped l (p.text ++ rest ++ ['\n']) more).tokenize.1 <;> rfl

/-- Tokens of a text that starts some bytes and lines further back. -/
def shift (bytes lines : Nat) : Relocation where
  place position := bytes + position
  line number := lines + number

/-- A lexer that stands in such a text. -/
def shifted (bytes lines : Nat) (l : Lexer) : Lexer where
  rest := l.rest
  offset := bytes + l.offset
  line := lines + l.line
  finished := l.finished

private theorem placed_shifted (bytes lines : Nat) (s : Scan Terminal) (offset line : Nat)
    (finished : Bool) :
    Lexer.placed s (bytes + offset) (lines + line) finished =
      (((Lexer.placed s offset line finished).1.mapError (shift bytes lines).located).map
          (shift bytes lines).token,
        shifted bytes lines (Lexer.placed s offset line finished).2) := by
  unfold Lexer.placed
  cases s.outcome <;>
    simp [shifted, shift, Relocation.located, Relocation.token, Except.mapError, Except.map,
      Nat.add_assoc]

theorem next_shifted (bytes lines : Nat) (l : Lexer) :
    (shifted bytes lines l).next =
      ((l.next.1.mapError (shift bytes lines).located).map (shift bytes lines).token,
        shifted bytes lines l.next.2) := by
  simp only [Lexer.next, shifted, Nat.add_assoc]
  cases (Trivia.split l.rest).2 with
  | nil => rfl
  | cons c cs => exact placed_shifted bytes lines _ _ _ _

/-- A text further back is read as its tokens or its fault, further back. -/
theorem tokenize_shifted (bytes lines : Nat) (l : Lexer) :
    (shifted bytes lines l).tokenize.1 =
      (l.tokenize.1.mapError (shift bytes lines).located).map
        (List.map (shift bytes lines).token) := by
  fun_induction Lexer.tokenize l with
  | case1 l finished =>
    rw [tokenize_finished (l := shifted bytes lines l) finished]
    rfl
  | case2 l unfinished e after read =>
    have step := next_shifted bytes lines l
    rw [read] at step
    rw [tokenize_error (l := shifted bytes lines l) (Bool.eq_false_iff.mpr unfinished) step]
    rfl
  | case3 l unfinished t after read tokens last later ih =>
    have step := next_shifted bytes lines l
    rw [read] at step
    rw [later] at ih
    rw [tokenize_token (l := shifted bytes lines l) (Bool.eq_false_iff.mpr unfinished) step, ih]
    cases tokens <;> rfl

private theorem line_feed_width : '\n'.utf8Size = 1 := rfl

/-- How the tokens of a text move when it is put behind another one and a line
feed. -/
def behindLine (front : String) : Relocation :=
  shift (Text.byteLength front.toList + 1) (Text.lineFeeds front.toList + 1)

/-- The tokens of two texts with a line feed between them: those of the first
without its end, and those of the second, further back. -/
theorem tokens_joined {front : String} (lexed : tokensOf front = .ok tokens) (back : String) :
    tokensOf (front ++ "\n" ++ back) =
      ((tokensOf back).mapError (behindLine front).located).map
        fun more => tokens.dropLast ++ more.map (behindLine front).token := by
  obtain ⟨pieces, last, parts, rfl⟩ := decomposition_of_tokenize (l := .ofText front) rfl lexed
  rw [show (Lexer.ofText front).rest = front.toList from rfl] at parts
  have joined : (Lexer.ofText (front ++ "\n" ++ back)).rest =
      front.toList ++ '\n' :: back.toList := by
    simp [Lexer.ofText]
  have place : skipped (.ofText (front ++ "\n" ++ back)) (front.toList ++ ['\n']) back.toList =
      shifted (Text.byteLength front.toList + 1) (Text.lineFeeds front.toList + 1)
        (.ofText back) := by
    simp [skipped, shifted, Lexer.ofText, Text.lineFeeds, line_feed_width, Nat.add_comm]
  rw [tokensOf, tokensOf, tokenize_line parts rfl joined, place, tokenize_shifted]
  cases (Lexer.ofText back).tokenize.1 <;> rfl

/-- A fault in the tokens of a text is shown alike where another text has the stretch of
every token where the token is moved to. -/
theorem fault_shown {m : Relocation} {other : List Char} {e : Fault} {left : List Token}
    {back : String} (lexed : tokensOf back = .ok tokens)
    (read : Reader.listing tokens = .error e left)
    (alike : ∀ t ∈ tokens, Text.slice? other (m.place t.span.start) (m.place t.span.stop) =
      Text.slice? back.toList t.span.start t.span.stop) : m.Shows back.toList other e := by
  cases listing_fault read with
  | found => exact alike _ (by simp)
  | refused | signed => exact trivial
  | missing plain => exact absurd plain (tokens_not_plain lexed)

private theorem outcome_behind (text : List Char) (items : Listing) (tokens : List Token) :
    (Reading.ofRead text (((items ++ ·) <$> Reader.listing : Reader Listing) tokens)).outcome =
      (Reading.ofRead text (Reader.listing tokens)).outcome.map (items ++ ·) := by
  simp only [Functor.map, EStateM.map]
  cases Reader.listing tokens with
  | ok more rest => rfl
  | error e rest =>
    simp only [Reading.ofRead]
    cases e.inText? text <;> rfl

/-- What is read from two texts with a line feed between them: the items of the
first and those of the second, further back, or the rejection of the second. -/
theorem text_joined {front : String} (lexed : tokensOf front = .ok tokens)
    (read : Listing.read front.toList tokens = .items items) (back : String) :
    readText (front ++ "\n" ++ back) =
      ((readText back).mapError (behindLine front).rejection).map
        fun more => items ++ more.map (behindLine front).item := by
  obtain ⟨stop, line, split⟩ := tokens_before_end lexed
  obtain ⟨left, whole⟩ := read_eq_items_iff.mp read
  have derived : Derives.Listing tokens.dropLast items := by
    rw [split, List.dropLast_concat]
    exact listing_sound whole
  unfold readText
  rw [tokens_joined lexed]
  cases lexedBack : tokensOf back with
  | error e => rfl
  | ok more =>
    have place : (front ++ "\n" ++ back).toList = (front.toList ++ ['\n']) ++ back.toList := by simp
    have wide : Text.byteLength front.toList + 1 = Text.byteLength (front.toList ++ ['\n']) := by
      simp [line_feed_width]
    have moved := @Relocation.outcome_moved (behindLine front) back.toList
      (front ++ "\n" ++ back).toList (Reader.listing more) fun e rest failed => by
        rw [place, behindLine, wide]
        exact fault_shown lexedBack failed fun _ _ => Text.slice?_add _ back.toList _ _
    simp only [Except.mapError, Except.map, Listing.read]
    rw [listing_segment derived, outcome_behind, Relocation.listing_moved, moved]
    cases (Reading.ofRead back.toList (Reader.listing more)).outcome <;> rfl

/-- Whatever follows in a listing, the diagnostics of the items before come
first. -/
theorem diagnostics_prefix (items more : Listing) :
    items.check.diagnostics <+: (Listing.check (items ++ more)).diagnostics := by
  have later := (run_exact more (run_exact items tracks_nothing).2).1
  simp only [Listing.check, Report.ofChecker, Checker.run, List.foldl_append] at later ⊢
  exact ⟨_, later.symm⟩

/-- A listing and any text behind a line feed are read as the listing and what that
text is read as alone, with its tokens as many bytes and lines further back as the
listing and the line feed have. So what is said of the listing is said first. -/
theorem joined_texts_exact {front : String} (lexed : tokensOf front = .ok tokens)
    (read : Listing.read front.toList tokens = .items items) (back : String) :
    tokensOf (front ++ "\n" ++ back) =
        ((tokensOf back).mapError (behindLine front).located).map
          (fun more => tokens.dropLast ++ more.map (behindLine front).token) ∧
      readText (front ++ "\n" ++ back) =
        ((readText back).mapError (behindLine front).rejection).map
          (fun more => items ++ more.map (behindLine front).item) ∧
      ∀ first second, (checkText front).outcome = .ok first →
        (checkText back).outcome = .ok second →
          ∃ whole, (checkText (front ++ "\n" ++ back)).outcome = .ok whole ∧
            first.diagnostics <+: whole.diagnostics := by
  have joined := text_joined lexed read back
  refine ⟨tokens_joined lexed back, joined, fun first second checked checkedBack => ?_⟩
  obtain ⟨_, again, rfl⟩ := checkText_eq_ok_iff.mp checked
  cases again.symm.trans (readText_eq_ok_iff.mpr ⟨tokens, lexed, read⟩)
  obtain ⟨more, readBack, rfl⟩ := checkText_eq_ok_iff.mp checkedBack
  rw [readBack] at joined
  exact ⟨_, checkText_eq_ok_iff.mpr ⟨_, joined, rfl⟩, diagnostics_prefix items _⟩

/-- A string over two lines and a comment at the seam, with a listing behind them
and with a text that is none. -/
theorem comment_at_seam_joined :
    ∃ tokens items, tokensOf "str s = \"a\nb\"; // c" = .ok tokens ∧
      Listing.read "str s = \"a\nb\"; // c".toList tokens = .items items ∧
      readText ("str s = \"a\nb\"; // c" ++ "\n" ++ "use x;") =
        .ok (items ++ [.reference ⟨"x", ⟨.identifier "x", ⟨24, 25⟩, 3⟩⟩]) ∧
      readText ("str s = \"a\nb\"; // c" ++ "\n" ++ "int y = -;") =
        .error (.syntactic ⟨.expected .integer "-", ⟨.minus, ⟨28, 29⟩, 3⟩⟩) := by
  have shape : (readText "str s = \"a\nb\"; // c").toBool = true := by decide +kernel
  cases front : readText "str s = \"a\nb\"; // c" with
  | error e => simp [front, Except.toBool] at shape
  | ok items =>
    obtain ⟨tokens, lexed, read⟩ := readText_eq_ok_iff.mp front
    obtain ⟨-, listed, -⟩ := joined_texts_exact lexed read "use x;"
    obtain ⟨-, refused, -⟩ := joined_texts_exact lexed read "int y = -;"
    have more : readText "use x;" =
        .ok [.reference ⟨"x", ⟨.identifier "x", ⟨4, 5⟩, 1⟩⟩] := by decide +kernel
    have fault : readText "int y = -;" =
        .error (.syntactic ⟨.expected .integer "-", ⟨.minus, ⟨8, 9⟩, 1⟩⟩) := by decide +kernel
    refine ⟨tokens, items, lexed, read, ?_, ?_⟩
    · rw [listed, more]
      rfl
    · rw [refused, fault]
      rfl

end DeclListing.JoinedTexts
