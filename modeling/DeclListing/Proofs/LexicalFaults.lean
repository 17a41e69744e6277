import DeclListing.Proofs.InsertedComments

/-! Faults of the lexer and what may still come. A string that the end of a text cuts
off can be closed by more text. What is taken by any other fault is refused again, whatever
comes behind it: more digits are too large as well, and no quote mends an escape. Only a
slash depends on what follows, because one more slash makes it a comment. -/
namespace DeclListing.LexicalFaults
open Lexeme TokenGrammarExactness JoinedTexts InsertedComments

variable {text : String} {cs front after rest written value digits tail : List Char} {c : Char}
  {e : LexError} {l : Lexer} {fault : Located LexError}

/-- The characters that some lexeme starts with. -/
def startsLexeme (c : Char) : Bool :=
  (punctuation? c).isSome || c = '-' || c = '"' || isWordPart c

/-- What ends a string before its closing quote. -/
inductive BrokenTail : List Char → LexError → Prop where
  | ended : BrokenTail [] .unexpectedEnd
  | cutEscape : BrokenTail ['\\'] .unexpectedEnd
  | escape {c : Char} : unescape? c = none → BrokenTail ['\\', c] (.invalidEscape c)

/-- How a fault can be written. -/
inductive Misspelled : List Char → LexError → Prop where
  | string {written value tail : List Char} {e : LexError} :
      StringBody written value → BrokenTail tail e → Misspelled ('"' :: (written ++ tail)) e
  | digit {digits : List Char} {c : Char} :
      digits ≠ [] → (∀ d ∈ digits, d.isDigit = true) → c.isDigit = false →
      endsNumber c = false → Misspelled (digits ++ [c]) (.invalidDigit c)
  | overflow {digits : List Char} :
      digits ≠ [] → (∀ d ∈ digits, d.isDigit = true) → UInt64.size ≤ decimalValue digits →
      Misspelled digits .integerOverflow
  | character {c : Char} :
      Trivia.isBlank c = false → startsLexeme c = false → Misspelled [c] (.unexpectedChar c)

/-! ## What the scanner refuses -/

private theorem extend_error {α β : Type} {s : Scan α} {before : List Char} {f : α → β} :
    (s.extend before f).outcome = .error e ↔ s.outcome = .error e := by
  rw [Scan.outcome_extend]
  cases s.outcome <;> simp [Except.map]

private theorem body_plain (notQuote : c ≠ '"') (notSlash : c ≠ '\\') (cs : List Char) :
    scanStringBody (c :: cs) = (scanStringBody cs).extend [c] (c :: ·) := by
  rw [scanStringBody] <;> simp_all

/-- A string is refused at its end or at an escape. -/
theorem body_misspelled (failed : (scanStringBody cs).outcome = .error e) :
    (e = .unexpectedEnd → (scanStringBody cs).rest = []) ∧
      ∃ written value tail, StringBody written value ∧ BrokenTail tail e ∧
        (scanStringBody cs).taken = written ++ tail := by
  fun_induction scanStringBody cs with
  | case1 =>
    cases failed
    exact ⟨fun _ => rfl, [], [], [], .nothing, .ended, rfl⟩
  | case2 => cases failed
  | case3 =>
    cases failed
    exact ⟨fun _ => rfl, [], [], _, .nothing, .cutEscape, rfl⟩
  | case4 d rest meant escape ih =>
    obtain ⟨ends, written, value, tail, body, broken, taken⟩ := ih (extend_error.mp failed)
    exact ⟨ends, '\\' :: d :: written, meant :: value, tail,
      .escape (escape_iff.mpr escape) body, broken, by simp [taken]⟩
  | case5 d rest escape =>
    cases failed
    exact ⟨by simp, [], [], _, .nothing, .escape escape, rfl⟩
  | case6 d rest quote last escape ih =>
    have notSlash : d ≠ '\\' := by
      rintro rfl
      cases rest with
      | nil => exact last rfl rfl
      | cons d ds => exact escape d ds rfl rfl
    obtain ⟨ends, written, value, tail, body, broken, taken⟩ := ih (extend_error.mp failed)
    exact ⟨ends, d :: written, d :: value, tail, .plain quote notSlash body, broken,
      by simp [taken]⟩

/-- Digits are refused with a character that cannot follow them, or as too large. -/
theorem integer_misspelled (digit : c.isDigit = true)
    (failed : (scanInteger (c :: cs)).outcome = .error e) :
    Misspelled (scanInteger (c :: cs)).taken e ∧ e ≠ .unexpectedEnd := by
  have nonempty : (c :: cs).takeWhile Char.isDigit ≠ [] := by simp [digit]
  have all : ∀ d ∈ (c :: cs).takeWhile Char.isDigit, d.isDigit = true :=
    List.all_eq_true.mp List.all_takeWhile
  have large (refused : integerOfDigits ((c :: cs).takeWhile Char.isDigit) = .error e) :
      Misspelled ((c :: cs).takeWhile Char.isDigit) e ∧ e ≠ .unexpectedEnd := by
    unfold integerOfDigits at refused
    split at refused
    · cases refused
    · rename_i above
      cases refused
      exact ⟨.overflow nonempty all (Nat.not_lt.mp above), by simp⟩
  unfold scanInteger at failed ⊢
  split at failed
  · exact large failed
  · rename_i d rest left
    have other : d.isDigit = false := by
      have head := List.head?_dropWhile_not Char.isDigit (c :: cs)
      simpa [left] using head
    cases ends : endsNumber d with
    | true =>
      simp only [ends, if_true] at failed ⊢
      exact large failed
    | false =>
      simp only [ends, Bool.false_eq_true, if_false] at failed ⊢
      cases failed
      exact ⟨.digit nonempty all other ends, by simp⟩

/-- What the scanner refuses is a way to write the fault it answers, and it goes on to
the end of the text where it misses more. -/
theorem scan_misspelled (notBlank : Trivia.isBlank c = false)
    (failed : (scan c cs).outcome = .error e) :
    Misspelled (scan c cs).taken e ∧ (e = .unexpectedEnd → (scan c cs).rest = []) := by
  unfold scan at failed ⊢
  cases mark : punctuation? c with
  | some t => simp [mark] at failed
  | none =>
    simp only [mark] at failed ⊢
    by_cases minus : c = '-'
    · simp only [if_pos minus] at failed
      split at failed <;> cases failed
    by_cases quote : c = '"'
    · simp only [if_neg minus, if_pos quote] at failed ⊢
      obtain ⟨ends, written, value, tail, body, broken, taken⟩ :=
        body_misspelled (extend_error.mp failed)
      rw [Scan.taken_extend, taken, quote, List.singleton_append]
      exact ⟨.string body broken, ends⟩
    by_cases digit : c.isDigit = true
    · simp only [if_neg minus, if_neg quote, if_pos digit] at failed ⊢
      obtain ⟨misspelled, other⟩ := integer_misspelled digit failed
      exact ⟨misspelled, fun ended => absurd ended other⟩
    by_cases start : isWordStart c = true
    · simp only [if_neg minus, if_neg quote, if_neg digit, if_pos start] at failed
      cases failed
    · simp only [if_neg minus, if_neg quote, if_neg digit, if_neg start] at failed ⊢
      cases failed
      have other : startsLexeme c = false := by
        simp [startsLexeme, isWordPart, mark, minus, quote, digit, start]
      exact ⟨.character notBlank other, by simp⟩

/-- A fault inside a string stays one behind more of the string. -/
theorem body_error (body : StringBody written value)
    (failed : (scanStringBody rest).outcome = .error e) :
    (scanStringBody (written ++ rest)).outcome = .error e := by
  induction body with
  | nothing => exact failed
  | plain notQuote notSlash _ ih =>
    rw [List.cons_append, body_plain notQuote notSlash]
    exact extend_error.mpr ih
  | escape escape _ ih =>
    simp only [List.cons_append, scanStringBody, escape_iff.mp escape]
    exact extend_error.mpr ih

/-- More digits make a number no smaller. -/
theorem decimal_value_le (digits more : List Char) :
    decimalValue digits ≤ decimalValue (digits ++ more) := by
  rw [decimalValue, decimalValue, List.foldl_append]
  generalize digits.foldl _ 0 = start
  induction more generalizing start with
  | nil => exact Nat.le_refl _
  | cons d more ih => exact Nat.le_trans (by omega) (ih (10 * start + digitValue d))

/-- Digits that are too large are refused, whatever comes behind them. -/
theorem overflow_refused (all : ∀ d ∈ digits, d.isDigit = true)
    (large : UInt64.size ≤ decimalValue digits) (more : List Char) :
    ∃ f, (scanInteger (digits ++ more)).outcome = .error f := by
  have refused : integerOfDigits ((digits ++ more).takeWhile Char.isDigit) =
      .error .integerOverflow := by
    rw [List.takeWhile_append_of_pos all]
    exact if_neg (Nat.not_lt.mpr (Nat.le_trans large (decimal_value_le ..)))
  unfold scanInteger
  split
  · exact ⟨_, refused⟩
  · split
    · exact ⟨_, refused⟩
    · exact ⟨_, rfl⟩

/-- The character behind digits is refused again, whatever comes behind it. -/
theorem digit_refused (all : ∀ d ∈ digits, d.isDigit = true) (other : c.isDigit = false)
    (stuck : endsNumber c = false) (more : List Char) :
    (scanInteger (digits ++ c :: more)).outcome = .error (.invalidDigit c) := by
  have stop : ∀ d ∈ (c :: more).head?, d.isDigit = false := by simpa using other
  obtain ⟨taken, left⟩ := take_run all stop
  rw [scanInteger, taken, left]
  simp [stuck]

theorem scan_other (other : startsLexeme c = false) (cs : List Char) :
    (scan c cs).outcome = .error (.unexpectedChar c) := by
  simp only [startsLexeme, isWordPart, Bool.or_eq_false_iff, Option.isSome_eq_false_iff,
    Option.isNone_iff_eq_none, decide_eq_false_iff_not] at other
  simp [scan, other]

/-- What starts with digits is scanned as an integer. -/
theorem digits_refused (nonempty : digits ≠ []) (all : ∀ d ∈ digits, d.isDigit = true)
    (refused : ∀ more, ∃ f, (scanInteger (digits ++ (tail ++ more))).outcome = .error f) :
    ∃ c cs, digits ++ tail = c :: cs ∧ Trivia.isBlank c = false ∧ c ≠ '/' ∧
      ∀ more, ∃ f, (scan c (cs ++ more)).outcome = .error f := by
  obtain ⟨d, ds, rfl⟩ := List.exists_cons_of_ne_nil nonempty
  have digit : d.isDigit = true := all d (by simp)
  obtain ⟨notBlank, notSlash⟩ := word_part_no_trivia (c := d) (by simp [isWordPart, digit])
  refine ⟨d, ds ++ tail, rfl, notBlank, notSlash, fun more => ?_⟩
  rw [scan_of_digit digit, List.append_assoc]
  exact refused more

/-- What was refused before the end of a text is refused again, whatever comes behind it.
Only a slash can be taken for the start of a gap there. -/
theorem misspelled_refused (misspelled : Misspelled written e) (inner : e ≠ .unexpectedEnd) :
    ∃ c cs, written = c :: cs ∧ Trivia.isBlank c = false ∧
      (c = '/' → cs = [] ∧ e = .unexpectedChar '/') ∧
      ∀ more, ∃ f, (scan c (cs ++ more)).outcome = .error f := by
  cases misspelled with
  | @string written value tail _ body broken =>
    have failed (more : List Char) : (scanStringBody (tail ++ more)).outcome = .error e := by
      cases broken with
      | ended | cutEscape => exact absurd rfl inner
      | escape escape => simp [scanStringBody, escape]
    refine ⟨'"', written ++ tail, rfl, rfl, by simp, fun more => ⟨e, ?_⟩⟩
    rw [List.append_assoc]
    exact extend_error.mpr (body_error body (failed more))
  | @digit digits d nonempty all other stuck =>
    obtain ⟨c, cs, same, notBlank, notSlash, refused⟩ :=
      @digits_refused _ [d] nonempty all fun more => ⟨_, digit_refused all other stuck more⟩
    exact ⟨c, cs, same, notBlank, fun slash => absurd slash notSlash, refused⟩
  | overflow nonempty all large =>
    obtain ⟨c, cs, same, notBlank, notSlash, refused⟩ :=
      @digits_refused _ [] nonempty all fun more => overflow_refused all large more
    rw [List.append_nil] at same
    exact ⟨c, cs, same, notBlank, fun slash => absurd slash notSlash, refused⟩
  | @character c notBlank other =>
    exact ⟨c, [], rfl, notBlank, by rintro rfl; exact ⟨rfl, rfl⟩,
      fun more => ⟨_, scan_other other _⟩⟩

/-- What the end of a text cuts off can be gone on with to a string. -/
theorem cut_off_completed (misspelled : Misspelled written .unexpectedEnd) :
    ∃ more value, Form (written ++ more) (.string value) := by
  cases misspelled with
  | @string written value tail _ body broken =>
    cases broken with
    | ended =>
      refine ⟨['"'], String.ofList value, ?_⟩
      simpa using Form.string body
    | cutEscape =>
      have longer : StringBody (written ++ ['\\', 'n']) (value ++ ['\n']) := by
        induction body with
        | nothing => exact .escape .lineFeed .nothing
        | plain notQuote notSlash _ ih => exact .plain notQuote notSlash ih
        | escape escape _ ih => exact .escape escape ih
      refine ⟨['n', '"'], String.ofList (value ++ ['\n']), ?_⟩
      simpa using Form.string longer

/-- Pieces and a gap, in front of the text `after`. -/
inductive LeadsTo : List Char → List Char → Prop where
  | gap {gap after : List Char} : Gap gap after → LeadsTo gap after
  | piece {p : Piece} {front after : List Char} :
      Gap p.gap (p.written ++ (front ++ after)) → Form p.written p.terminal →
      CanFollow p.terminal (front ++ after) → LeadsTo front after →
      LeadsTo (p.text ++ front) after

/-- What leads to a text leads to every text with the same first character. -/
theorem LeadsTo.before (leads : LeadsTo front (after ++ rest)) (nonempty : after ≠ [])
    (more : List Char) : LeadsTo front (after ++ more) := by
  generalize whole : after ++ rest = behind at leads
  induction leads with
  | gap trivia => exact .gap (gap_before (whole ▸ trivia) nonempty more)
  | @piece p front behind trivia form follow _ ih =>
    subst whole
    rw [← List.append_assoc] at follow
    refine .piece (gap_before trivia (form_nonempty form) _) form ?_ (ih rfl)
    rw [← List.append_assoc]
    exact follow_before follow (by simp [nonempty]) more

/-- The tokens of a text are read exactly when those behind some pieces and a gap are. -/
theorem reads_iff_behind (leads : LeadsTo front after) (unfinished : l.finished = false)
    (here : l.rest = front ++ after) :
    (∃ tokens, l.tokenize.1 = .ok tokens) ↔
      ∃ tokens, (skipped l front after).tokenize.1 = .ok tokens := by
  induction leads generalizing l with
  | gap trivia =>
    rw [tokenize_of_next (k := skipped l _ _) unfinished unfinished (next_skipped here trivia)]
  | @piece p front after trivia form follow leads ih =>
    have place : skipped (behind l p (front ++ after)) front after =
        skipped l (p.text ++ front) after := by
      simp [skipped, behind, Nat.add_assoc]
    have step := tokenize_piece unfinished (here.trans (List.append_assoc ..)) trivia form follow
    rw [step, ← place, ← ih (l := behind l p (front ++ after)) unfinished rfl]
    cases (behind l p (front ++ after)).tokenize.1 <;> simp [Except.map]

/-- A fault and what stands before it. -/
structure RefusedAt (l : Lexer) (fault : Located LexError) (front written rest : List Char) :
    Prop where
  /-- The text from here on: what stands before, what is taken by the fault, and more. -/
  split : l.rest = front ++ (written ++ rest)
  /-- What stands before is read. -/
  leads : LeadsTo front (written ++ rest)
  /-- What is taken is a way to write the fault. -/
  misspelled : Misspelled written fault.value
  /-- The fault stops behind what is taken. -/
  stop : fault.token.span.stop = l.offset + Text.byteLength (front ++ written)
  /-- Only the end of the text cuts anything off. -/
  ended : fault.value = .unexpectedEnd → rest = []

theorem misspelled_nonempty (misspelled : Misspelled written e) : written ≠ [] := by
  cases misspelled with
  | overflow nonempty => exact nonempty
  | _ => simp

theorem slash_alone (misspelled : Misspelled written (.unexpectedChar '/')) : written = ['/'] := by
  cases misspelled with
  | string _ broken => cases broken
  | character => rfl

/-- What stands before a fault can stand before what is taken by it and other text. -/
theorem RefusedAt.leads_to (at_fault : RefusedAt l fault front written rest) (more : List Char) :
    LeadsTo front (written ++ more) :=
  at_fault.leads.before (misspelled_nonempty at_fault.misspelled) more

/-- A step comes to a fault behind a gap. -/
theorem next_refused_at (failed : l.next.1 = .error fault) :
    ∃ gap written rest, RefusedAt l fault gap written rest := by
  have whole := Trivia.split_append l.rest
  have trivia := gap_split l.rest
  have stable := Trivia.split_rest_stable l.rest
  generalize parted : Trivia.split l.rest = parts at whole trivia stable
  obtain ⟨gap, remainder⟩ := parts
  cases remainder with
  | nil => simp [Lexer.next, parted] at failed
  | cons c cs =>
    have notBlank : Trivia.isBlank c = false := by
      by_contra blank
      rw [Bool.not_eq_false] at blank
      simp [Trivia.split, Trivia.splitFrom, blank] at stable
    have lossless := taken_append_rest c cs
    simp only [Lexer.next, parted, Lexer.placed] at failed
    cases scanned : (scan c cs).outcome with
    | ok t => simp [scanned] at failed
    | error e =>
      simp only [scanned, Except.error.injEq] at failed
      subst failed
      obtain ⟨misspelled, ended⟩ := scan_misspelled notBlank scanned
      refine ⟨gap, (scan c cs).taken, (scan c cs).rest, ?_, .gap ?_, misspelled, ?_, ended⟩
      · rw [lossless]
        exact whole.symm
      · rw [lossless]
        exact trivia
      · rw [Text.byteLength_append, Nat.add_assoc]

/-- A text is refused at a fault behind some pieces and a gap. -/
theorem tokenize_refused_at (unfinished : l.finished = false)
    (failed : l.tokenize.1 = .error fault) :
    ∃ front written rest, RefusedAt l fault front written rest := by
  induction length : l.rest.length using Nat.strongRecOn generalizing l with
  | ind size ih =>
    rcases next_cases l with ⟨trivia, step⟩ | ⟨p, rest, here, trivia, form, follow, step⟩ |
        ⟨e, moved, step⟩
    · rw [tokenize_token unfinished step, tokenize_finished rfl] at failed
      cases failed
    · rw [tokenize_token unfinished step] at failed
      have later : (behind l p rest).tokenize.1 = .error fault := by
        cases more : (behind l p rest).tokenize.1 with
        | ok tokens => simp [more, Except.map] at failed
        | error e => simpa [more, Except.map] using failed
      have shorter : rest.length < size := by
        have wide := List.length_pos_iff.mpr (form_nonempty form)
        simp only [← length, here, Piece.text, List.length_append]
        omega
      obtain ⟨front, written, left, at_fault⟩ :=
        ih _ shorter (l := behind l p rest) unfinished later rfl
      obtain rfl : rest = front ++ (written ++ left) := at_fault.split
      refine ⟨p.text ++ front, written, left, ?_, .piece trivia form follow at_fault.leads,
        at_fault.misspelled, ?_, at_fault.ended⟩
      · rw [here, List.append_assoc]
      · rw [at_fault.stop]
        simp [behind, Nat.add_assoc]
    · rw [tokenize_error unfinished step] at failed
      cases failed
      exact next_refused_at (congrArg Prod.fst step)

/-! ## What may still come -/

/-- Some text that starts like this is read as tokens. -/
def Completable (front : List Char) : Prop :=
  ∃ (longer : String) (tokens : List Token), front <+: longer.toList ∧ tokensOf longer = .ok tokens

/-- Where the scanner refuses a lexeme, so is the text. -/
theorem tokenize_refused (unfinished : l.finished = false) (here : l.rest = c :: cs)
    (notBlank : Trivia.isBlank c = false) (noComment : c = '/' → cs.head? ≠ some '/')
    (failed : (scan c cs).outcome = .error e) : ∃ fault, l.tokenize.1 = .error fault := by
  have parted : Trivia.split l.rest = ([], c :: cs) := by
    rw [here, Trivia.split, Trivia.splitFrom, notBlank]
    simpa using fun slash => noComment slash
  have step : ∃ fault, l.next.1 = .error fault := by
    simp only [Lexer.next, parted, Lexer.placed, failed]
    exact ⟨_, rfl⟩
  obtain ⟨fault, step⟩ := step
  have read : l.next = (.error fault, l.next.2) := Prod.ext step rfl
  exact ⟨fault, by rw [tokenize_error unfinished read]⟩

/-- A text that goes on behind a fault in another way is refused as well, where the fault
was not the end of the text and no slash becomes a comment. -/
theorem refused_again {k : Lexer} (at_fault : RefusedAt l fault front written rest)
    (inner : fault.value ≠ .unexpectedEnd) {more : List Char}
    (noComment : fault.value = .unexpectedChar '/' → more.head? ≠ some '/')
    (unfinished : k.finished = false) (here : k.rest = front ++ (written ++ more)) :
    ¬ ∃ tokens, k.tokenize.1 = .ok tokens := by
  obtain ⟨c, cs, rfl, notBlank, slash, again⟩ := misspelled_refused at_fault.misspelled inner
  obtain ⟨f, failed⟩ := again more
  rw [reads_iff_behind (at_fault.leads_to more) unfinished here]
  have comment : c = '/' → (cs ++ more).head? ≠ some '/' := by
    intro same
    obtain ⟨rfl, alone⟩ := slash same
    exact noComment alone
  obtain ⟨g, refused⟩ := tokenize_refused (l := skipped k front (c :: cs ++ more)) unfinished rfl
    notBlank comment failed
  rintro ⟨tokens, read⟩
  cases refused.symm.trans read

/-- What stands before some pieces can be gone on with by them. -/
theorem pieces_complete {pieces : List Piece} {last : List Char} (leads : LeadsTo front after)
    (parts : Decomposition after pieces last) :
    ∃ tokens, tokensOf (String.ofList (front ++ after)) = .ok tokens :=
  (reads_iff_behind leads rfl (String.toList_ofList ..)).mpr
    ⟨_, tokenize_decomposition parts rfl rfl⟩

/-- A text that is cut off inside a string can be completed. -/
theorem cut_off_completable (at_fault : RefusedAt l fault front written [])
    (cut : fault.value = .unexpectedEnd) : Completable (front ++ written) := by
  obtain ⟨more, value, form⟩ := cut_off_completed (cut ▸ at_fault.misspelled)
  have parts : Decomposition (written ++ more) [⟨[], written ++ more, .string value⟩] [] := by
    simpa [Piece.text] using Decomposition.piece (p := ⟨[], written ++ more, .string value⟩)
      .nothing form trivial (.done .nothing)
  obtain ⟨tokens, read⟩ := pieces_complete (at_fault.leads_to more) parts
  exact ⟨_, tokens, by simp [← List.append_assoc], read⟩

/-- A slash can be made the start of a comment. -/
theorem slash_completable (at_fault : RefusedAt l fault front written rest)
    (slash : fault.value = .unexpectedChar '/') : Completable (front ++ (written ++ ['/'])) := by
  obtain rfl := slash_alone (slash ▸ at_fault.misspelled)
  have comment : Gap ['/', '/'] [] := @Gap.comment [] [] [] (by simp) (by simp [EndsLine]) .nothing
  obtain ⟨tokens, read⟩ := pieces_complete (at_fault.leads_to ['/']) (.done comment)
  exact ⟨_, tokens, by simp, read⟩

/-- What the end of a text cuts off, more text can complete; what is refused before the
end of a text, nothing that comes behind it does, save that a slash waits for what comes
directly behind it: another slash makes it a comment, and nothing else saves it. -/
theorem lexical_faults_exact (refused : tokensOf text = .error fault) :
    ∃ before after, text.toList = before ++ after ∧
      Text.byteLength before = fault.token.span.stop ∧
      (fault.value = .unexpectedEnd → Completable text.toList) ∧
      (fault.value ≠ .unexpectedEnd → fault.value ≠ .unexpectedChar '/' →
        ¬ Completable before) ∧
      (fault.value = .unexpectedChar '/' →
        (∀ more tokens, more.head? ≠ some '/' →
          tokensOf (String.ofList (before ++ more)) ≠ .ok tokens) ∧
        Completable (before ++ ['/'])) := by
  obtain ⟨front, written, rest, at_fault⟩ :=
    tokenize_refused_at (l := .ofText text) rfl refused
  have split : text.toList = (front ++ written) ++ rest := by
    rw [List.append_assoc]
    exact at_fault.split
  have stop : Text.byteLength (front ++ written) = fault.token.span.stop := by
    rw [at_fault.stop]
    exact (Nat.zero_add _).symm
  refine ⟨front ++ written, rest, split, stop, fun cut => ?_, fun inner other => ?_,
    fun slash => ?_⟩
  · obtain rfl := at_fault.ended cut
    rw [split, List.append_nil]
    exact cut_off_completable at_fault cut
  · rintro ⟨longer, tokens, ⟨more, starts⟩, read⟩
    have here : longer.toList = front ++ (written ++ more) := by rw [← starts, List.append_assoc]
    exact refused_again at_fault inner (fun slash => absurd slash other) (k := .ofText longer) rfl
      here ⟨tokens, read⟩
  · rw [List.append_assoc]
    refine ⟨fun more tokens noComment read => ?_, slash_completable at_fault slash⟩
    exact refused_again at_fault (by simp [slash]) (fun _ => noComment)
      (k := .ofText _) rfl (by simp [Lexer.ofText]) ⟨tokens, read⟩

/-- A string cut off behind a backslash, an escape that is none, and a slash alone. -/
theorem cut_off_and_refused :
    Completable "str s = \"a\\".toList ∧ ¬ Completable "str s = \"\\q".toList ∧
      Completable "use x; //".toList ∧
      ∀ more tokens, more.head? ≠ some '/' →
        tokensOf (String.ofList ("use x; /".toList ++ more)) ≠ .ok tokens := by
  have cut : tokensOf "str s = \"a\\" = .error ⟨.unexpectedEnd, ⟨.error, ⟨8, 11⟩, 1⟩⟩ := by
    decide +kernel
  have escape : tokensOf "str s = \"\\q" =
      .error ⟨.invalidEscape 'q', ⟨.error, ⟨8, 11⟩, 1⟩⟩ := by decide +kernel
  have slash : tokensOf "use x; / y" = .error ⟨.unexpectedChar '/', ⟨.error, ⟨7, 8⟩, 1⟩⟩ := by
    decide +kernel
  obtain ⟨-, -, -, -, completable, -⟩ := lexical_faults_exact cut
  obtain ⟨before, after, split, stop, -, hopeless, -⟩ := lexical_faults_exact escape
  have taken : Text.takeBytes? "str s = \"\\q".toList 11 = some before :=
    Text.takeBytes?_eq_some_iff.mpr ⟨after, split, stop⟩
  obtain rfl : "str s = \"\\q".toList = before := Option.some.inj taken
  obtain ⟨first, later, parted, ends, -, -, waits⟩ := lexical_faults_exact slash
  have alone : Text.takeBytes? "use x; / y".toList 8 = some first :=
    Text.takeBytes?_eq_some_iff.mpr ⟨later, parted, ends⟩
  obtain rfl : "use x; /".toList = first := Option.some.inj alone
  obtain ⟨refused, comment⟩ := waits rfl
  exact ⟨completable rfl, hopeless (by simp) (by simp), comment, refused⟩

end DeclListing.LexicalFaults
