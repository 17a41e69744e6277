import DeclListing.Proofs.JoinedTexts
import DeclListing.Proofs.MovedChecks

/-! Comments behind tokens. A comment up to the end of its line, put directly behind a
token, makes no difference but to the places of what follows: the same is read and
the same is said by the check. Only integers are otherwise: their digits do not end
at a slash, and the text is refused. -/
namespace DeclListing.InsertedComments
open Lexeme TokenGrammarExactness ReportPlaces JoinedTexts

variable {text : String} {chars after rest last body : List Char} {terminal : Terminal}
  {pieces : List Piece} {l : Lexer} {t : Token} {front back : List Token}

/-- A comment and the line feed that ends it. -/
def commentLine (body : List Char) : List Char :=
  '/' :: '/' :: (body ++ ['\n'])

/-- A text in two parts with a comment line between them. -/
def commented (before body after : List Char) : String :=
  String.ofList (before ++ (commentLine body ++ after))

theorem comment_line_gap (plain : '\n' ∉ body) (rest : List Char) : Gap (commentLine body) rest :=
  .comment plain (by simp [EndsLine]) (.blank (by decide) .nothing)

theorem comment_line_feeds (plain : '\n' ∉ body) : Text.lineFeeds (commentLine body) = 1 := by
  simp [commentLine, Text.lineFeeds, List.count_eq_zero.mpr plain]

/-- A comment can follow every lexeme but an integer. -/
theorem follow_comment (other : ∀ v, terminal ≠ .integer v) (rest : List Char) :
    CanFollow terminal (commentLine body ++ rest) := by
  cases terminal with
  | integer v => exact absurd rfl (other v)
  | minus | keyword | identifier => rintro _ ⟨⟩; decide
  | _ => trivial

/-- What can follow a lexeme depends on its first character. -/
theorem follow_before (follow : CanFollow terminal (after ++ rest)) (nonempty : after ≠ [])
    (more : List Char) : CanFollow terminal (after ++ more) := by
  cases after with
  | nil => exact absurd rfl nonempty
  | cons c cs => cases terminal <;> exact follow

/-- How tokens move behind a comment line. -/
def behindComment (body : List Char) : Relocation :=
  shift (Text.byteLength (commentLine body)) 1

/-- What stands behind a comment line is read as it is, further back. -/
theorem tokenize_behind_comment (plain : '\n' ∉ body) (unfinished : l.finished = false) :
    { l with rest := commentLine body ++ l.rest }.tokenize.1 =
      (l.tokenize.1.mapError (behindComment body).located).map
        (List.map (behindComment body).token) := by
  let k : Lexer := { l with rest := commentLine body ++ l.rest }
  have place : skipped k (commentLine body) l.rest =
      shifted (Text.byteLength (commentLine body)) 1 l := by
    simp [k, skipped, shifted, comment_line_feeds plain, Nat.add_comm]
  have skips : k.next = (skipped k (commentLine body) l.rest).next :=
    next_skipped rfl (comment_line_gap plain l.rest)
  rw [place] at skips
  have read := tokenize_of_next (l := k) (k := shifted _ 1 l) unfinished unfinished skips
  rw [show { l with rest := commentLine body ++ l.rest } = k from rfl, read, tokenize_shifted]
  rfl

/-- A text with a comment line behind its first piece. -/
theorem tokenize_comment_behind {p : Piece} (parts : Decomposition rest pieces last)
    (trivia : Gap p.gap (p.written ++ rest)) (form : Form p.written p.terminal)
    (plain : '\n' ∉ body) (unfinished : l.finished = false)
    (here : l.rest = p.text ++ (commentLine body ++ rest)) :
    ((∀ v, p.terminal ≠ .integer v) → l.tokenize.1 = .ok (pieceToken l.offset l.line p ::
      (placedTokens (behind l p rest).offset (behind l p rest).line pieces last).map
        (behindComment body).token)) ∧
    ((∃ v, p.terminal = .integer v) →
      ∃ token, l.tokenize.1 = .error ⟨.invalidDigit '/', token⟩) := by
  have inner := gap_before trivia (form_nonempty form) (commentLine body ++ rest)
  constructor
  · intro other
    rw [tokenize_piece unfinished here inner form (follow_comment other rest)]
    have behind_comment := @tokenize_behind_comment _ (behind l p rest) plain unfinished
    rw [tokenize_decomposition parts (l := behind l p rest) unfinished rfl] at behind_comment
    exact congrArg (Except.map _) behind_comment
  · rintro ⟨v, digits⟩
    rw [digits] at form
    obtain ⟨token, moved, refused⟩ := @next_refused _ _ _ l '/' v
      (by simpa [Piece.text, commentLine] using here) inner form rfl rfl
    exact ⟨token, by rw [tokenize_error unfinished refused]⟩

/-- A text with a comment line behind the piece of one of its tokens. -/
theorem tokenize_commented (parts : Decomposition chars pieces last) (plain : '\n' ∉ body)
    (unfinished : l.finished = false) (inner : t.terminal ≠ .eof)
    (placed : placedTokens l.offset l.line pieces last = front ++ t :: back) :
    ∃ before after, chars = before ++ after ∧ before ≠ [] ∧
      l.offset + Text.byteLength before = t.span.stop ∧
      ∀ k : Lexer, k = { l with rest := before ++ (commentLine body ++ after) } →
        ((∀ v, t.terminal ≠ .integer v) →
          k.tokenize.1 = .ok (front ++ t :: back.map (behindComment body).token)) ∧
        ((∃ v, t.terminal = .integer v) →
          ∃ token, k.tokenize.1 = .error ⟨.invalidDigit '/', token⟩) := by
  induction parts generalizing l front with
  | done =>
    have listed : t ∈ front ++ t :: back := by simp
    rw [← placed, placed_end] at listed
    obtain rfl := List.mem_singleton.mp listed
    exact absurd rfl inner
  | @piece p rest pieces last trivia form follow parts ih =>
    rw [placed_cons] at placed
    cases front with
    | nil =>
      obtain ⟨rfl, rfl⟩ := List.cons.inj placed
      have nonempty : p.text ≠ [] := by simp [Piece.text, form_nonempty form]
      refine ⟨p.text, rest, rfl, nonempty, rfl, ?_⟩
      rintro k rfl
      exact tokenize_comment_behind parts trivia form plain unfinished rfl
    | cons first front =>
      obtain ⟨rfl, later⟩ := List.cons.inj placed
      obtain ⟨before, after, rfl, nonempty, stop, commented⟩ :=
        ih (l := behind l p rest) unfinished later
      refine ⟨p.text ++ before, after, by simp, by simp [nonempty], ?_, ?_⟩
      · rw [← stop]
        simp [behind, Nat.add_assoc]
      · rintro k rfl
        obtain ⟨others, digits⟩ := commented _ rfl
        -- The comment stands further back, so the piece is followed by what followed it before.
        have step := tokenize_piece (p := p)
          (l := { l with rest := p.text ++ before ++ (commentLine body ++ after) }) unfinished
          (List.append_assoc ..) (gap_before trivia (form_nonempty form) _) form
          (follow_before follow nonempty _)
        refine ⟨fun other => ?_, fun integer => ?_⟩
        · rw [step]
          exact congrArg (Except.map _) (others other)
        · obtain ⟨token, refused⟩ := digits integer
          exact ⟨token, step.trans (congrArg (Except.map _) refused)⟩

theorem placed_line_le (pieces : List Piece) {offset line : Nat} :
    ∀ u ∈ placedTokens offset line pieces last, line ≤ u.line := by
  induction pieces generalizing offset line with
  | nil => simp [placed_end, Lexer.endToken]
  | cons p pieces ih =>
    rw [placed_cons]
    refine List.forall_mem_cons.mpr ⟨Nat.le_add_right .., fun u listed => ?_⟩
    exact Nat.le_trans (Nat.le_add_right ..) (ih u listed)

theorem placed_lines_ordered (pieces : List Piece) {offset line : Nat} :
    (placedTokens offset line pieces last).Pairwise fun a b => a.line ≤ b.line := by
  induction pieces generalizing offset line with
  | nil => exact List.pairwise_singleton ..
  | cons p pieces ih =>
    rw [placed_cons]
    exact List.pairwise_cons.mpr ⟨placed_line_le pieces, ih⟩

/-- The tokens up to `t` stop no later than it and on no later line, and those behind it
start no earlier and on no earlier line. -/
structure Around (front : List Token) (t : Token) (back : List Token) : Prop where
  upTo : ∀ u ∈ front ++ [t],
    u.span.start ≤ u.span.stop ∧ u.span.stop ≤ t.span.stop ∧ u.line ≤ t.line
  behind : ∀ u ∈ back,
    u.span.start ≤ u.span.stop ∧ t.span.stop ≤ u.span.start ∧ t.line ≤ u.line

/-- The tokens of a text stand around each of them. -/
theorem tokens_around (lexed : tokensOf text = .ok (front ++ t :: back)) : Around front t back := by
  obtain ⟨placed, ordered⟩ := tokens_reportable lexed
  obtain ⟨pieces, last, -, same⟩ := decomposition_of_tokenize (l := .ofText text) rfl lexed
  have lines : (front ++ t :: back).Pairwise fun a b => a.line ≤ b.line :=
    same ▸ placed_lines_ordered pieces
  obtain ⟨-, behind, before⟩ := List.pairwise_append.mp ordered
  obtain ⟨-, lines_behind, lines_before⟩ := List.pairwise_append.mp lines
  have here := (placed t (by simp)).ordered
  constructor
  · intro u listed
    rcases List.mem_append.mp listed with earlier | same
    · have own := (placed u (by simp [earlier])).ordered
      have next := before u earlier t (by simp)
      exact ⟨own, by omega, lines_before u earlier t (by simp)⟩
    · obtain rfl := List.mem_singleton.mp same
      exact ⟨here, Nat.le_refl _, Nat.le_refl _⟩
  · intro u later
    have own := (placed u (by simp [later])).ordered
    have below := List.rel_of_pairwise_cons lines_behind later
    exact ⟨own, List.rel_of_pairwise_cons behind later, below⟩

/-- How tokens move when the comment line behind a token is taken out. -/
def withoutComment (t : Token) (body : List Char) : Relocation where
  place position :=
    if position ≤ t.span.stop then position else position - Text.byteLength (commentLine body)
  line number := if number ≤ t.line then number else number - 1

theorem comment_line_wide (body : List Char) : 0 < Text.byteLength (commentLine body) := by
  have slash : 0 < '/'.utf8Size := Char.utf8Size_pos _
  rw [commentLine, Text.byteLength_cons]
  omega

/-- Up to the token, positions stay where they are. -/
theorem place_kept {position : Nat} (before : position ≤ t.span.stop) :
    (withoutComment t body).place position = position :=
  if_pos before

/-- Behind the token, the comment line is undone. -/
theorem place_restored {position : Nat} (behind : t.span.stop ≤ position) :
    (withoutComment t body).place ((behindComment body).place position) = position := by
  have wide := comment_line_wide body
  have later : ¬ Text.byteLength (commentLine body) + position ≤ t.span.stop := by omega
  exact (if_neg later).trans (Nat.add_sub_cancel_left ..)

/-- Taking out the comment line undoes the moves of the tokens. -/
theorem without_comment_tokens (around : Around front t back) :
    (front ++ t :: back.map (behindComment body).token).map (withoutComment t body).token =
      front ++ t :: back := by
  have kept : ∀ u ∈ front ++ [t], (withoutComment t body).token u = u := by
    intro u listed
    obtain ⟨own, stop, line⟩ := around.upTo u listed
    have same : (withoutComment t body).line u.line = u.line := if_pos line
    rw [Relocation.token, place_kept stop, place_kept (Nat.le_trans own stop), same]
  have restored : ∀ u ∈ back, (withoutComment t body).token ((behindComment body).token u) = u := by
    intro u listed
    obtain ⟨own, start, line⟩ := around.behind u listed
    have later : ¬ 1 + u.line ≤ t.line := by omega
    have same : (withoutComment t body).line ((behindComment body).line u.line) = u.line :=
      (if_neg later).trans (Nat.add_sub_cancel_left ..)
    have stop := Nat.le_trans start own
    simp only [Relocation.token, place_restored start, place_restored stop, same]
  have split (tail : List Token) : front ++ t :: tail = (front ++ [t]) ++ tail := by simp
  have undone : back.map ((withoutComment t body).token ∘ (behindComment body).token) = back :=
    (List.map_congr_left restored).trans (List.map_id' back)
  rw [split, split back, List.map_append, List.map_congr_left kept, List.map_id', List.map_map,
    undone]

/-- A token behind which a comment line was put in shows the same stretch as without
it, and so do the tokens around it. -/
theorem stretch_shown {before : List Char} (around : Around front t back)
    (stop : Text.byteLength before = t.span.stop) :
    ∀ u ∈ front ++ t :: back.map (behindComment body).token,
      Text.slice? (before ++ after) ((withoutComment t body).place u.span.start)
          ((withoutComment t body).place u.span.stop) =
        Text.slice? (before ++ (commentLine body ++ after)) u.span.start u.span.stop := by
  intro u listed
  have split : u ∈ front ++ [t] ∨ ∃ v ∈ back, (behindComment body).token v = u := by
    simpa [or_assoc] using listed
  rcases split with earlier | ⟨v, later, rfl⟩
  · obtain ⟨own, ends, -⟩ := around.upTo u earlier
    rw [place_kept ends, place_kept (Nat.le_trans own ends), Text.slice?_append_left (stop ▸ ends),
      Text.slice?_append_left (stop ▸ ends)]
  · obtain ⟨own, starts, -⟩ := around.behind v later
    simp only [Relocation.token, place_restored starts, place_restored (Nat.le_trans starts own)]
    obtain ⟨start, from_start⟩ := Nat.exists_eq_add_of_le (stop ▸ starts)
    obtain ⟨length, from_stop⟩ := Nat.exists_eq_add_of_le (stop ▸ Nat.le_trans starts own)
    have moved (n : Nat) : (behindComment body).place (Text.byteLength before + n) =
        Text.byteLength (before ++ commentLine body) + n := by
      rw [Text.byteLength_append, Nat.add_assoc]
      exact Nat.add_left_comm ..
    rw [from_start, from_stop, moved, moved, Text.slice?_add, ← List.append_assoc, Text.slice?_add]

/-- A comment up to the end of its line can be put behind every token but an integer,
and behind no integer. Behind another token, the tokens are the same, those that follow
as many bytes further back as the comment line has and a line lower; the same items are
read, and the same is said by the check, with the places of what follows moved alike.
Behind an integer the slash is refused as a digit. -/
theorem comment_behind_token_exact (lexed : tokensOf text = .ok (front ++ t :: back))
    (inner : t.terminal ≠ .eof) (plain : '\n' ∉ body) :
    ∃ before after, text.toList = before ++ after ∧ Text.byteLength before = t.span.stop ∧
      ((∀ v, t.terminal ≠ .integer v) →
        tokensOf (commented before body after) =
            .ok (front ++ t :: back.map (behindComment body).token) ∧
          readText text = ((readText (commented before body after)).mapError
            (withoutComment t body).rejection).map (List.map (withoutComment t body).item) ∧
          checkText text = (withoutComment t body).verdict
            (checkText (commented before body after))) ∧
      ((∃ v, t.terminal = .integer v) → ∃ token,
        tokensOf (commented before body after) = .error ⟨.invalidDigit '/', token⟩) := by
  obtain ⟨pieces, last, parts, placed⟩ := decomposition_of_tokenize (l := .ofText text) rfl lexed
  obtain ⟨before, after, split, -, stop, read⟩ :=
    tokenize_commented parts plain (l := .ofText text) rfl inner placed.symm
  rw [show (Lexer.ofText text).rest = text.toList from rfl] at split
  obtain ⟨others, digits⟩ := read (.ofText (commented before body after))
    (by simp [Lexer.ofText, commented])
  have ends : Text.byteLength before = t.span.stop := by rw [← stop]; exact (Nat.zero_add _).symm
  refine ⟨before, after, split, ends, fun other => ?_, digits⟩
  have also : tokensOf (commented before body after) =
      .ok (front ++ t :: back.map (behindComment body).token) := others other
  have around := tokens_around lexed
  have moved : tokensOf text = .ok ((front ++ t :: back.map (behindComment body).token).map
      (withoutComment t body).token) := by rw [lexed, without_comment_tokens around]
  have shows : ∀ e rest,
      Reader.listing (front ++ t :: back.map (behindComment body).token) = .error e rest →
        (withoutComment t body).Shows (commented before body after).toList text.toList e := by
    intro e rest failed
    refine fault_shown also failed ?_
    simp only [split, commented, String.toList_ofList]
    exact stretch_shown around ends
  exact ⟨also, Relocation.readText_moved also moved shows,
    Relocation.checkText_moved also moved shows⟩

/-- A comment between a name and the semicolon behind it. -/
theorem comment_behind_name_read :
    tokensOf "use x// note\n;" =
        .ok [⟨.keyword .reference, ⟨0, 3⟩, 1⟩, ⟨.identifier "x", ⟨4, 5⟩, 1⟩,
          ⟨.semicolon, ⟨13, 14⟩, 2⟩, ⟨.eof, ⟨14, 14⟩, 2⟩] ∧
      checkText "use x;" = (withoutComment ⟨.identifier "x", ⟨4, 5⟩, 1⟩ " note".toList).verdict
        (checkText "use x// note\n;") := by
  have lexed : tokensOf "use x;" = .ok ([⟨.keyword .reference, ⟨0, 3⟩, 1⟩] ++
      ⟨.identifier "x", ⟨4, 5⟩, 1⟩ :: [⟨.semicolon, ⟨5, 6⟩, 1⟩, ⟨.eof, ⟨6, 6⟩, 1⟩]) := by
    decide +kernel
  obtain ⟨before, after, split, stop, others, -⟩ :=
    @comment_behind_token_exact _ " note".toList _ _ _ lexed (by simp) (by simp)
  have cut : Text.takeBytes? "use x;".toList 5 = some before :=
    Text.takeBytes?_eq_some_iff.mpr ⟨after, split, stop⟩
  obtain rfl : "use x".toList = before := Option.some.inj cut
  have rest : "use x".toList ++ ";".toList = "use x".toList ++ after := split
  obtain rfl := List.append_cancel_left rest
  obtain ⟨read, -, said⟩ := others (by simp)
  exact ⟨read, said⟩

/-- Not every token can have a comment behind it. -/
theorem comment_behind_integer_refused :
    ¬ ∀ (text : String) (front back : List Token) (t : Token) (before body after : List Char),
      tokensOf text = .ok (front ++ t :: back) → t.terminal ≠ .eof → '\n' ∉ body →
        text.toList = before ++ after → Text.byteLength before = t.span.stop →
          ∃ tokens, tokensOf (commented before body after) = .ok tokens := by
  intro claimed
  have lexed : tokensOf "int x = 5;" =
      .ok ([⟨.keyword .int, ⟨0, 3⟩, 1⟩, ⟨.identifier "x", ⟨4, 5⟩, 1⟩, ⟨.equal, ⟨6, 7⟩, 1⟩] ++
        ⟨.integer 5, ⟨8, 9⟩, 1⟩ :: [⟨.semicolon, ⟨9, 10⟩, 1⟩, ⟨.eof, ⟨10, 10⟩, 1⟩]) := by
    decide +kernel
  obtain ⟨tokens, read⟩ := claimed _ _ _ _ "int x = 5".toList " five".toList ";".toList lexed
    (by simp) (by simp) rfl rfl
  have refused : (tokensOf "int x = 5// five\n;").toBool = false := by decide +kernel
  rw [show tokensOf "int x = 5// five\n;" = .ok tokens from read] at refused
  cases refused

end DeclListing.InsertedComments
