import DeclListing.Token.Grammar

/-! Reading a text token by token succeeds exactly on the texts of the lexical
grammar, and the tokens are those of the only way in which the text is made of
gaps and lexemes. The scanner is held against the grammar lexeme by lexeme: it
takes a whole gap, it takes a whole lexeme, and what it takes is one. -/
namespace DeclListing.TokenGrammarExactness
open Lexeme

variable {text gap after written rest last : List Char} {t : Terminal} {p : Piece}
  {pieces : List Piece}

private theorem split_comment {body tail : List Char} (plain : '\n' ∉ body) (line : EndsLine tail) :
    Trivia.splitFrom true (body ++ tail) =
      (body ++ (Trivia.splitFrom false tail).1, (Trivia.splitFrom false tail).2) := by
  induction body with
  | nil =>
    cases tail with
    | nil => rfl
    | cons c cs =>
      have feed : c = '\n' := line c (by simp)
      subst feed
      simp [Trivia.splitFrom, Trivia.isBlank]
  | cons c body ih =>
    simp only [List.mem_cons, not_or] at plain
    simp [Trivia.splitFrom, Ne.symm plain.1, ih plain.2]

/-- Splitting takes a whole gap, and what is split off behind it. -/
theorem split_behind_gap (trivia : Gap gap after) :
    Trivia.split (gap ++ after) = (gap ++ (Trivia.split after).1, (Trivia.split after).2) := by
  induction trivia with
  | nothing => rfl
  | blank listed _ ih =>
    simp only [Trivia.split] at ih
    simp [Trivia.split, Trivia.splitFrom, isBlank_iff.mpr listed, ih]
  | @comment body gap after plain line _ ih =>
    simp only [Trivia.split] at ih
    have inside := split_comment plain line
    rw [ih] at inside
    simp [Trivia.split, Trivia.splitFrom, Trivia.isBlank, inside]

/-- Splitting takes no more than a gap where what follows starts with no trivia. -/
theorem split_gap (trivia : Gap gap after) (stops : Trivia.split after = ([], after)) :
    Trivia.split (gap ++ after) = (gap, after) := by
  rw [split_behind_gap trivia, stops, List.append_nil]

theorem digit_of_ends {c : Char} (ends : endsNumber c = true) : c.isDigit = false := by
  simp only [endsNumber, Bool.or_eq_true, decide_eq_true_eq] at ends
  repeat' (rcases ends with ends | rfl)
  all_goals decide

theorem digit_of_start {c : Char} (start : isWordStart c = true) : c.isDigit = false := by
  simp only [isWordStart, Bool.or_eq_true, decide_eq_true_eq] at start
  rcases start with rfl | letter
  · decide
  · have above : 'A'.toNat ≤ c.toNat := by
      rcases Bool.or_eq_true_iff.mp letter with upper | lower
      · exact UInt32.le_iff_toNat_le.mp (of_decide_eq_true upper).1
      · have least := of_decide_eq_true (Bool.and_eq_true_iff.mp lower).1
        exact Nat.le_trans (by decide) (UInt32.le_iff_toNat_le.mp least)
    apply Bool.eq_false_iff.mpr
    intro digit
    have below := (Char.isDigit_iff_toNat.mp digit).2
    exact absurd (Nat.le_trans above below) (by decide)

theorem word_part_ne {c d : Char} (part : isWordPart c = true) (other : isWordPart d = false) :
    c ≠ d := by
  rintro rfl
  simp [part] at other

/-- No word and no integer starts with a mark. -/
theorem word_part_no_mark {c : Char} (part : isWordPart c = true) :
    punctuation? c = none ∧ c ≠ '-' ∧ c ≠ '"' := by
  have differs (d : Char) (other : isWordPart d = false) : c ≠ d := word_part_ne part other
  simp [punctuation?, differs ',' rfl, differs '(' rfl, differs ')' rfl, differs ';' rfl,
    differs '=' rfl, differs '-' rfl, differs '"' rfl]

/-- No word and no integer starts as a gap does. -/
theorem word_part_no_trivia {c : Char} (part : isWordPart c = true) :
    Trivia.isBlank c = false ∧ c ≠ '/' := by
  have differs (d : Char) (other : isWordPart d = false) : c ≠ d := word_part_ne part other
  simp [Trivia.isBlank, differs ' ' rfl, differs '\t' rfl, differs '\r' rfl, differs '\n' rfl,
    differs '/' rfl]

/-- A reserved word is a word. -/
theorem reserved_is_word {k : Keyword} (reserved : Reserved written k) : IsWord written := by
  cases reserved <;> exact isWord_iff.mpr ⟨⟨_, rfl, rfl⟩, List.all_eq_true.mp rfl⟩

theorem word_cons (word : IsWord written) :
    ∃ c cs, written = c :: cs ∧ isWordStart c = true := by
  obtain ⟨⟨c, head, start⟩, -⟩ := isWord_iff.mp word
  cases written with
  | nil => simp at head
  | cons d ds =>
    simp only [List.head?_cons, Option.mem_some] at head
    exact ⟨d, ds, rfl, head ▸ start⟩

/-- A run of characters of one kind goes up to the first of another kind. -/
theorem take_run {p : Char → Bool} {run rest : List Char} (all : ∀ c ∈ run, p c = true)
    (stop : ∀ c ∈ rest.head?, p c = false) :
    (run ++ rest).takeWhile p = run ∧ (run ++ rest).dropWhile p = rest := by
  have none : rest.takeWhile p = [] ∧ rest.dropWhile p = rest := by
    cases rest with
    | nil => exact ⟨rfl, rfl⟩
    | cons c cs => simp [stop c (by simp)]
  rw [List.takeWhile_append_of_pos all, List.dropWhile_append_of_pos all, none.1, none.2]
  exact ⟨List.append_nil run, rfl⟩

private theorem scan_word (word : IsWord written) (stop : ∀ c ∈ rest.head?, isWordPart c = false) :
    scanWord (written ++ rest) =
      { outcome := .ok (terminalOfWord (String.ofList written)), taken := written, rest } := by
  obtain ⟨taken, left⟩ := take_run (isWord_iff.mp word).2 stop
  rw [scanWord, taken, left]

private theorem scan_digits {digits : List Char} {value : UInt64}
    (all : ∀ c ∈ digits, c.isDigit = true) (denotes : decimalValue digits = value.toNat)
    (stop : ∀ c ∈ rest.head?, endsNumber c = true) :
    scanInteger (digits ++ rest) = { outcome := .ok (.integer value), taken := digits, rest } := by
  have fits : integerOfDigits digits = .ok (.integer value) := by
    rw [integerOfDigits, denotes, if_pos value.toNat_lt, UInt64.ofNat_toNat]
  obtain ⟨taken, left⟩ := take_run all fun c head => digit_of_ends (stop c head)
  cases rest with
  | nil => rw [scanInteger, taken, left, fits]
  | cons c cs => rw [scanInteger, taken, left]; simp [stop c (by simp), fits]

private theorem scan_string {value : List Char} (body : StringBody written value) :
    scanStringBody (written ++ '"' :: rest) =
      { outcome := .ok value, taken := written ++ ['"'], rest } := by
  induction body with
  | nothing => rw [List.nil_append, scanStringBody]; rfl
  | plain notQuote notSlash _ ih =>
    rw [List.cons_append, scanStringBody, ih]
    · rfl
    all_goals simp_all
  | escape escape _ ih =>
    rw [List.cons_append, List.cons_append, scanStringBody, escape_iff.mp escape, ih]
    rfl

private theorem scan_of_word {c : Char} {cs : List Char} (start : isWordStart c = true) :
    scan c cs = scanWord (c :: cs) := by
  obtain ⟨noMark, notMinus, notQuote⟩ := word_part_no_mark (c := c) (by simp [isWordPart, start])
  simp [scan, noMark, notMinus, notQuote, digit_of_start start, start]

theorem scan_of_digit {c : Char} {cs : List Char} (digit : c.isDigit = true) :
    scan c cs = scanInteger (c :: cs) := by
  obtain ⟨noMark, notMinus, notQuote⟩ := word_part_no_mark (c := c) (by simp [isWordPart, digit])
  simp [scan, noMark, notMinus, notQuote, digit]

private theorem scan_minus (stop : ∀ c ∈ rest.head?, c ≠ '>') :
    scan '-' rest = { outcome := .ok .minus, taken := ['-'], rest } := by
  cases rest with
  | nil => rfl
  | cons c cs =>
    have other := stop c (by simp)
    simp only [scan, punctuation?]
    split
    · rename_i same
      simp at same
    · simp only [↓reduceIte]
      split
      · rename_i same
        cases same
        exact absurd rfl other
      · rfl

/-- The scanner takes a whole lexeme where what follows does not become part of
it, and answers the terminal that was written. -/
theorem scan_form (form : Form written t) (follow : CanFollow t rest) :
    ∃ c cs, written = c :: cs ∧
      scan c (cs ++ rest) = { outcome := .ok t, taken := written, rest } := by
  cases form with
  | comma | lparen | rparen | semicolon | equal | arrow => exact ⟨_, _, rfl, rfl⟩
  | minus => exact ⟨'-', [], rfl, scan_minus follow⟩
  | @keyword _ k reserved =>
    obtain ⟨c, cs, spelled, start⟩ := word_cons (reserved_is_word reserved)
    have known : terminalOfWord (String.ofList written) = .keyword k := by
      simp [terminalOfWord, reserved_iff.mp reserved]
    refine ⟨c, cs, spelled, ?_⟩
    rw [scan_of_word start, ← List.cons_append, ← spelled,
      scan_word (reserved_is_word reserved) ((follow_word_iff (by simp)).mp follow), known]
  | identifier word notReserved =>
    obtain ⟨c, cs, spelled, start⟩ := word_cons word
    have free : Keyword.ofSpelling? (String.ofList written) = none := by
      apply Option.eq_none_iff_forall_not_mem.mpr
      intro k found
      have same := Keyword.ofSpelling?_eq_some_iff.mp found
      exact notReserved k (reserved_iff.mpr (by rw [← same, String.toList_ofList]))
    refine ⟨c, cs, spelled, ?_⟩
    rw [scan_of_word start, ← List.cons_append, ← spelled,
      scan_word word ((follow_word_iff (by simp)).mp follow), terminalOfWord, free]
  | integer nonempty decimals value =>
    obtain ⟨-, all, denotes⟩ := form_integer_iff.mp (.integer nonempty decimals value)
    obtain ⟨c, cs, spelled⟩ := List.exists_cons_of_ne_nil nonempty
    refine ⟨c, cs, spelled, ?_⟩
    rw [scan_of_digit (all c (by simp [spelled])), ← List.cons_append, ← spelled,
      scan_digits all denotes (follow_integer_iff.mp follow)]
  | @string inside value body =>
    refine ⟨'"', inside ++ ['"'], rfl, ?_⟩
    have unquoted : (inside ++ ['"']) ++ rest = inside ++ '"' :: rest := by simp
    rw [unquoted]
    simp [scan, punctuation?, scan_string body, Scan.extend, Except.map]

private theorem form_cons (form : Form written t) :
    ∃ c cs, written = c :: cs ∧ Trivia.isBlank c = false ∧ c ≠ '/' := by
  cases form with
  | comma | lparen | rparen | semicolon | equal | arrow | minus | string =>
    exact ⟨_, _, rfl, rfl, by decide⟩
  | keyword reserved =>
    obtain ⟨c, cs, spelled, start⟩ := word_cons (reserved_is_word reserved)
    exact ⟨c, cs, spelled, word_part_no_trivia (by simp [isWordPart, start])⟩
  | identifier word _ =>
    obtain ⟨c, cs, spelled, start⟩ := word_cons word
    exact ⟨c, cs, spelled, word_part_no_trivia (by simp [isWordPart, start])⟩
  | integer nonempty decimals _ =>
    obtain ⟨c, cs, spelled⟩ := List.exists_cons_of_ne_nil nonempty
    exact ⟨c, cs, spelled,
      word_part_no_trivia (isWordPart_iff.mpr (.inr (decimals c (by simp [spelled]))))⟩

/-- Every lexeme has a character. -/
theorem form_nonempty (form : Form written t) : written ≠ [] := by
  obtain ⟨c, cs, rfl, -⟩ := form_cons form
  simp

/-- No gap starts where a lexeme does. -/
theorem split_form (form : Form written t) (rest : List Char) :
    Trivia.split (written ++ rest) = ([], written ++ rest) := by
  obtain ⟨c, cs, rfl, notBlank, notSlash⟩ := form_cons form
  simp [Trivia.split, Trivia.splitFrom, notBlank, notSlash]

/-! ## One token -/

/-- The token of a piece that stands behind `offset` bytes on line `line`. -/
def pieceToken (offset line : Nat) (p : Piece) : Token where
  terminal := p.terminal
  span := ⟨offset + Text.byteLength p.gap, offset + Text.byteLength p.text⟩
  line := line + Text.lineFeeds p.text

theorem placed_cons (offset line : Nat) (p : Piece) (pieces : List Piece) (last : List Char) :
    placedTokens offset line (p :: pieces) last =
      pieceToken offset line p ::
        placedTokens (offset + Text.byteLength p.text) (line + Text.lineFeeds p.text) pieces
          last := by
  simp only [placedTokens, byteCount_eq, pieceToken]
  rfl

theorem placed_end (offset line : Nat) (last : List Char) :
    placedTokens offset line [] last =
      [Lexer.endToken (offset + Text.byteLength last) (line + Text.lineFeeds last)] := by
  simp only [placedTokens, byteCount_eq]
  rfl

/-- The place behind a piece, with `rest` to come. -/
def behind (l : Lexer) (p : Piece) (rest : List Char) : Lexer where
  rest := rest
  offset := l.offset + Text.byteLength p.text
  line := l.line + Text.lineFeeds p.text
  finished := l.finished

variable {l moved : Lexer} {tokens : List Token}

/-- A piece is read as one token. -/
theorem next_piece (here : l.rest = p.text ++ rest) (trivia : Gap p.gap (p.written ++ rest))
    (form : Form p.written p.terminal) (follow : CanFollow p.terminal rest) :
    l.next = (.ok (pieceToken l.offset l.line p), behind l p rest) := by
  obtain ⟨c, cs, spelled, scanned⟩ := scan_form form follow
  have parted : Trivia.split l.rest = (p.gap, c :: (cs ++ rest)) := by
    rw [here, Piece.text, List.append_assoc, split_gap trivia (split_form form rest), spelled,
      List.cons_append]
  have stop : l.offset + Text.byteLength p.gap + Text.byteLength p.written =
      l.offset + Text.byteLength p.text := by
    rw [Piece.text, Text.byteLength_append, Nat.add_assoc]
  have lines : l.line + Text.lineFeeds p.gap + Text.lineFeeds p.written =
      l.line + Text.lineFeeds p.text := by
    rw [Piece.text, Text.lineFeeds_append, Nat.add_assoc]
  simp only [Lexer.next, parted, scanned, Lexer.placed, Scan.lines, stop, lines]
  rfl

/-- Digits are refused together with the character behind them where that
character cannot follow them. -/
theorem next_refused {c : Char} {value : UInt64} (here : l.rest = gap ++ (written ++ c :: rest))
    (trivia : Gap gap (written ++ c :: rest)) (form : Form written (.integer value))
    (other : c.isDigit = false) (stuck : endsNumber c = false) :
    ∃ token moved, l.next = (.error ⟨.invalidDigit c, token⟩, moved) := by
  have parted : Trivia.split l.rest = (gap, written ++ c :: rest) := by
    rw [here, split_gap trivia (split_form form _)]
  obtain ⟨nonempty, all, -⟩ := form_integer_iff.mp form
  obtain ⟨d, ds, spelled⟩ := List.exists_cons_of_ne_nil nonempty
  have stop : ∀ e ∈ (c :: rest).head?, e.isDigit = false := by simpa using other
  obtain ⟨taken, left⟩ := take_run all stop
  have scanned : scan d (ds ++ c :: rest) =
      { outcome := .error (.invalidDigit c), taken := written ++ [c], rest } := by
    rw [scan_of_digit (all d (by simp [spelled])), ← List.cons_append, ← spelled, scanInteger,
      taken, left]
    simp [stuck]
  rw [spelled, List.cons_append] at parted
  simp only [Lexer.next, parted, Lexer.placed, scanned]
  exact ⟨_, _, rfl⟩

/-- Digits of 2⁶⁴ or more are refused where an integer could end. -/
theorem next_overflow {digits : List Char} (here : l.rest = gap ++ (digits ++ rest))
    (trivia : Gap gap (digits ++ rest)) (nonempty : digits ≠ [])
    (all : ∀ c ∈ digits, c.isDigit = true) (large : UInt64.size ≤ decimalValue digits)
    (stop : ∀ c ∈ rest.head?, endsNumber c = true) :
    ∃ token moved, l.next = (.error ⟨.integerOverflow, token⟩, moved) := by
  obtain ⟨d, ds, spelled⟩ := List.exists_cons_of_ne_nil nonempty
  have digit : d.isDigit = true := all d (by simp [spelled])
  obtain ⟨notBlank, notSlash⟩ := word_part_no_trivia (c := d) (by simp [isWordPart, digit])
  have whole : Trivia.split (digits ++ rest) = ([], digits ++ rest) := by
    simp [spelled, Trivia.split, Trivia.splitFrom, notBlank, notSlash]
  have parted : Trivia.split l.rest = (gap, digits ++ rest) := by rw [here, split_gap trivia whole]
  have refused : integerOfDigits digits = .error .integerOverflow :=
    if_neg (Nat.not_lt.mpr large)
  have scanned : scan d (ds ++ rest) = { outcome := .error .integerOverflow, taken := digits, rest } := by
    obtain ⟨taken, left⟩ := take_run all fun c head => digit_of_ends (stop c head)
    rw [scan_of_digit digit, ← List.cons_append, ← spelled, scanInteger, taken, left]
    cases rest with
    | nil => simp [refused]
    | cons c cs => simp [stop c (by simp), refused]
  rw [spelled, List.cons_append] at parted
  simp only [Lexer.next, parted, Lexer.placed, scanned]
  exact ⟨_, _, rfl⟩

/-- The place behind all that is left, where the end has been answered. -/
def atEnd (l : Lexer) : Lexer where
  rest := []
  offset := l.offset + Text.byteLength l.rest
  line := l.line + Text.lineFeeds l.rest
  finished := true

/-- Blanks and comments up to the end of a text are read as its end. -/
theorem next_end (trivia : Gap l.rest []) :
    l.next = (.ok (Lexer.endToken (atEnd l).offset (atEnd l).line), atEnd l) := by
  have parted : Trivia.split l.rest = (l.rest, []) := by
    simpa only [List.append_nil] using split_gap trivia rfl
  simp only [Lexer.next, parted]
  rfl

/-- What one step comes to: the end of the text, a piece of it, or a fault. -/
theorem next_cases (l : Lexer) :
    (Gap l.rest [] ∧
      l.next = (.ok (Lexer.endToken (atEnd l).offset (atEnd l).line), atEnd l)) ∨
    (∃ p rest, l.rest = p.text ++ rest ∧ Gap p.gap (p.written ++ rest) ∧
      Form p.written p.terminal ∧ CanFollow p.terminal rest ∧
      l.next = (.ok (pieceToken l.offset l.line p), behind l p rest)) ∨
    ∃ e moved, l.next = (.error e, moved) := by
  have whole := Trivia.split_append l.rest
  have trivia := gap_split l.rest
  generalize parted : Trivia.split l.rest = parts at whole trivia
  obtain ⟨gap, remainder⟩ := parts
  cases remainder with
  | nil =>
    have all : gap = l.rest := by simpa using whole
    subst all
    exact .inl ⟨trivia, next_end trivia⟩
  | cons c cs =>
    cases scanned : (scan c cs).outcome with
    | ok t =>
      obtain ⟨form, follow⟩ := form_of_scan scanned
      have lossless := taken_append_rest c cs
      have here : l.rest = (Piece.mk gap (scan c cs).taken t).text ++ (scan c cs).rest := by
        rw [← whole, ← lossless, Piece.text, List.append_assoc]
      have trivia : Gap gap ((scan c cs).taken ++ (scan c cs).rest) := lossless.symm ▸ trivia
      exact .inr (.inl ⟨⟨gap, _, t⟩, _, here, trivia, form, follow,
        next_piece here trivia form follow⟩)
    | error e =>
      have faulty : ∃ fault, l.next.1 = .error fault := by
        simp only [Lexer.next, parted, Lexer.placed, scanned]
        exact ⟨_, rfl⟩
      obtain ⟨fault, faulty⟩ := faulty
      exact .inr (.inr ⟨fault, l.next.2, Prod.ext faulty rfl⟩)

/-! ## All tokens -/

theorem tokenize_error {e : Located LexError} (unfinished : l.finished = false)
    (read : l.next = (.error e, moved)) : l.tokenize = (.error e, moved) := by
  rw [Lexer.tokenize]
  simp only [unfinished, Bool.false_eq_true, ↓reduceDIte]
  split
  · rename_i again
    rw [read] at again
    cases again
    rfl
  · rename_i again
    rw [read] at again
    cases again

theorem tokenize_token {t : Token} (unfinished : l.finished = false)
    (read : l.next = (.ok t, moved)) :
    l.tokenize = (moved.tokenize.1.map (t :: ·), moved.tokenize.2) := by
  rw [Lexer.tokenize]
  simp only [unfinished, Bool.false_eq_true, ↓reduceDIte]
  split
  · rename_i again
    rw [read] at again
    cases again
  · rename_i again
    rw [read] at again
    cases again
    rfl

theorem tokenize_finished (finished : l.finished = true) : l.tokenize = (.ok [], l) := by
  rw [Lexer.tokenize]
  simp [finished]

/-- Every piece at the front of a text becomes one token. -/
theorem tokenize_piece (unfinished : l.finished = false) (here : l.rest = p.text ++ rest)
    (trivia : Gap p.gap (p.written ++ rest)) (form : Form p.written p.terminal)
    (follow : CanFollow p.terminal rest) :
    l.tokenize.1 =
      (behind l p rest).tokenize.1.map (pieceToken l.offset l.line p :: ·) := by
  rw [tokenize_token unfinished (next_piece here trivia form follow)]

/-- The pieces of a text are read as their tokens. -/
theorem tokenize_decomposition (parts : Decomposition text pieces last)
    (unfinished : l.finished = false) (here : l.rest = text) :
    l.tokenize.1 = .ok (placedTokens l.offset l.line pieces last) := by
  induction parts generalizing l with
  | done trivia =>
    subst here
    rw [tokenize_token unfinished (next_end trivia), tokenize_finished rfl, placed_end]
    rfl
  | piece trivia form follow _ ih =>
    rw [tokenize_piece unfinished here trivia form follow,
      ih (l := behind l _ _) unfinished rfl, placed_cons]
    rfl

/-- Only a text that is made of pieces is read without a fault, and then the
tokens are theirs. -/
theorem decomposition_of_tokenize (unfinished : l.finished = false)
    (read : l.tokenize.1 = .ok tokens) :
    ∃ pieces last, Decomposition l.rest pieces last ∧
      tokens = placedTokens l.offset l.line pieces last := by
  induction length : l.rest.length using Nat.strongRecOn generalizing l tokens with
  | ind size ih =>
    rcases next_cases l with ⟨trivia, step⟩ | ⟨p, rest, here, trivia, form, follow, step⟩ |
        ⟨e, moved, step⟩
    · rw [tokenize_token unfinished step, tokenize_finished rfl] at read
      cases read
      exact ⟨[], l.rest, .done trivia, (placed_end ..).symm⟩
    · rw [tokenize_token unfinished step] at read
      cases later : (behind l p rest).tokenize.1 with
      | error e => simp [later, Except.map] at read
      | ok more =>
        simp only [later, Except.map, Except.ok.injEq] at read
        obtain ⟨c, cs, spelled, -⟩ := form_cons form
        have shorter : rest.length < size := by
          rw [← length, here, Piece.text, spelled]
          simp
          omega
        obtain ⟨pieces, last, parts, placed⟩ :=
          ih _ shorter (l := behind l p rest) unfinished later rfl
        refine ⟨p :: pieces, last, here ▸ .piece trivia form follow parts, ?_⟩
        rw [← read, placed, placed_cons]
        rfl
    · rw [tokenize_error unfinished step] at read
      cases read

private theorem front_unique {p q : Piece} {rest rest' : List Char}
    (same : p.text ++ rest = q.text ++ rest')
    (trivia : Gap p.gap (p.written ++ rest)) (form : Form p.written p.terminal)
    (follow : CanFollow p.terminal rest)
    (trivia' : Gap q.gap (q.written ++ rest')) (form' : Form q.written q.terminal)
    (follow' : CanFollow q.terminal rest') : p = q ∧ rest = rest' := by
  have parted := split_gap trivia (split_form form rest)
  rw [← List.append_assoc, ← Piece.text, same, Piece.text, List.append_assoc,
    split_gap trivia' (split_form form' rest')] at parted
  obtain ⟨gaps, remainders⟩ := Prod.mk.inj parted
  obtain ⟨c, cs, spelled, scanned⟩ := scan_form form follow
  obtain ⟨d, ds, spelled', scanned'⟩ := scan_form form' follow'
  rw [spelled, spelled', List.cons_append, List.cons_append] at remainders
  obtain ⟨rfl, tails⟩ := List.cons.inj remainders
  rw [tails, scanned] at scanned'
  obtain ⟨terminals, writings, rests⟩ := Scan.mk.inj scanned'
  refine ⟨?_, rests⟩
  cases p
  cases q
  simp_all

private theorem trivia_not_piece (trivia : Gap (p.text ++ rest) [])
    (trivia' : Gap p.gap (p.written ++ rest)) (form : Form p.written p.terminal) : False := by
  have parted := split_gap trivia' (split_form form rest)
  have all := split_gap trivia rfl
  rw [List.append_nil, Piece.text, List.append_assoc, parted] at all
  obtain ⟨c, cs, spelled, -⟩ := form_cons form
  rw [spelled] at all
  cases (Prod.mk.inj all).2

/-- A text is made of pieces in one way. -/
theorem decomposition_unique {pieces' : List Piece} {last' : List Char}
    (parts : Decomposition text pieces last) (parts' : Decomposition text pieces' last') :
    pieces = pieces' ∧ last = last' := by
  induction parts generalizing pieces' last' with
  | done trivia =>
    cases parts' with
    | done => exact ⟨rfl, rfl⟩
    | piece trivia' form => exact (trivia_not_piece trivia trivia' form).elim
  | @piece p rest pieces last trivia form follow parts ih =>
    generalize whole : p.text ++ rest = text at parts'
    cases parts' with
    | done trivia' => exact (trivia_not_piece (whole ▸ trivia') trivia form).elim
    | piece trivia' form' follow' parts' =>
      obtain ⟨rfl, rfl⟩ := front_unique whole trivia form follow trivia' form' follow'
      obtain ⟨rfl, rfl⟩ := ih parts'
      exact ⟨rfl, rfl⟩

theorem form_not_end (form : Form written t) : t ≠ .eof := by
  rintro rfl
  cases form

private theorem placed_ended (parts : Decomposition text pieces last) (offset line : Nat) :
    ∃ front stop lastLine, placedTokens offset line pieces last =
        front ++ [Lexer.endToken stop lastLine] ∧ ∀ t ∈ front, t.terminal ≠ .eof := by
  induction parts generalizing offset line with
  | done => exact ⟨[], _, _, placed_end .., by simp⟩
  | @piece p rest pieces last _ form _ _ ih =>
    obtain ⟨front, stop, lastLine, split, plain⟩ :=
      ih (offset + Text.byteLength p.text) (line + Text.lineFeeds p.text)
    refine ⟨pieceToken offset line p :: front, stop, lastLine, ?_,
      List.forall_mem_cons.mpr ⟨form_not_end form, plain⟩⟩
    rw [List.cons_append, ← split, placed_cons]

/-- The tokens of a text end with its end, which is none of those before. -/
theorem tokens_ended {text : String} (read : tokensOf text = .ok tokens) :
    ∃ front stop line, tokens = front ++ [Lexer.endToken stop line] ∧
      ∀ t ∈ front, t.terminal ≠ .eof := by
  obtain ⟨pieces, last, parts, rfl⟩ := decomposition_of_tokenize (l := .ofText text) rfl read
  exact placed_ended parts 0 1

/-- Reading a text comes to tokens exactly when the text is made of pieces, and
to exactly their tokens; and there is only one way to make it of pieces. -/
theorem tokenize_exact (text : String) :
    (∀ tokens, tokensOf text = .ok tokens ↔
      ∃ pieces last, Decomposition text.toList pieces last ∧
        tokens = placedTokens 0 1 pieces last) ∧
    ∀ pieces last pieces' last', Decomposition text.toList pieces last →
      Decomposition text.toList pieces' last' → pieces = pieces' ∧ last = last' := by
  constructor
  · intro tokens
    constructor
    · intro read
      exact decomposition_of_tokenize (l := .ofText text) rfl read
    · rintro ⟨pieces, last, parts, rfl⟩
      exact tokenize_decomposition parts rfl rfl
  · intro pieces last pieces' last' parts parts'
    exact decomposition_unique parts parts'

/-- Digits with leading zeros, the greatest integer, words that start with a reserved one,
an arrow and a sign, a comment with a character of two bytes, and a string with every
escape that ends a line further down. A letter cannot follow digits. -/
theorem lexemes_read :
    let text := "int int_ = 0120;// é\nfn f2(-\t18446744073709551615)->str;\r\n" ++
      "\"\\n\\t\\r\\\\\\\"\\'\n é\"use"
    let tokens : List Token := [
      ⟨.keyword .int, ⟨0, 3⟩, 1⟩, ⟨.identifier "int_", ⟨4, 8⟩, 1⟩, ⟨.equal, ⟨9, 10⟩, 1⟩,
      ⟨.integer 120, ⟨11, 15⟩, 1⟩, ⟨.semicolon, ⟨15, 16⟩, 1⟩,
      ⟨.keyword .function, ⟨22, 24⟩, 2⟩, ⟨.identifier "f2", ⟨25, 27⟩, 2⟩, ⟨.lparen, ⟨27, 28⟩, 2⟩,
      ⟨.minus, ⟨28, 29⟩, 2⟩, ⟨.integer 18446744073709551615, ⟨30, 50⟩, 2⟩, ⟨.rparen, ⟨50, 51⟩, 2⟩,
      ⟨.arrow, ⟨51, 53⟩, 2⟩, ⟨.keyword .str, ⟨53, 56⟩, 2⟩, ⟨.semicolon, ⟨56, 57⟩, 2⟩,
      ⟨.string "\n\t\r\\\"'\n é", ⟨59, 77⟩, 4⟩, ⟨.keyword .reference, ⟨77, 80⟩, 4⟩,
      ⟨.eof, ⟨80, 80⟩, 4⟩]
    tokensOf text = .ok tokens ∧
      (∃ pieces last, Decomposition text.toList pieces last ∧
        tokens = placedTokens 0 1 pieces last) ∧
      ¬ ∃ pieces last, Decomposition "5a".toList pieces last := by
  intro text tokens
  have found : (tokensOf text).toOption = some tokens := by decide +kernel
  have read : tokensOf text = .ok tokens := by
    cases lexed : tokensOf text with
    | error e => simp [lexed, Except.toOption] at found
    | ok others =>
      rw [lexed] at found
      exact congrArg _ (Option.some.inj found)
  refine ⟨read, ((tokenize_exact text).1 tokens).mp read, ?_⟩
  rintro ⟨pieces, last, parts⟩
  have accepted := ((tokenize_exact "5a").1 _).mpr ⟨pieces, last, parts, rfl⟩
  have refused : (tokensOf "5a").toBool = false := by decide +kernel
  rw [accepted] at refused
  cases refused

end DeclListing.TokenGrammarExactness
