import DeclListing.Token.Stream

/-!
The lexical grammar, said without the scanner. A text is a sequence of pieces,
each a lexeme with the blanks and comments in front of it, and blanks and
comments at the end. What a lexeme may be followed by is part of the grammar: a
word goes as far as it can, and so do digits and arrows. The classes of characters,
the escapes, the reserved words and the value of digits are spelled out here.

The scanner is held against the grammar behind that. Its classes and values are
those of the grammar (`isBlank_iff` up to `decimalValue_eq`), what `Trivia.split`
takes is a gap (`gap_split`), and what `Lexeme.scan` accepts is a lexeme
(`form_of_scan`).
-/

namespace DeclListing

/-- The characters that mean nothing. -/
def blanks : List Char :=
  [' ', '\t', '\r', '\n']

/-- A text with nothing on its first line. -/
def EndsLine (after : List Char) : Prop :=
  ∀ c ∈ after.head?, c = '\n'

/-- Blanks and comments, in front of the text `after`. A comment goes up to the
end of a line. -/
inductive Gap : List Char → List Char → Prop where
  | nothing {after : List Char} : Gap [] after
  | blank {c : Char} {gap after : List Char} :
      c ∈ blanks → Gap gap after → Gap (c :: gap) after
  | comment {body gap after : List Char} :
      '\n' ∉ body → EndsLine (gap ++ after) → Gap gap after →
      Gap ('/' :: '/' :: (body ++ gap)) after

namespace Lexeme

/-- The characters of `[A-Za-z_]`. -/
def StartsWord (c : Char) : Prop :=
  ('A' ≤ c ∧ c ≤ 'Z') ∨ ('a' ≤ c ∧ c ≤ 'z') ∨ c = '_'

/-- The characters of `[0-9]`. -/
def IsDecimal (c : Char) : Prop :=
  '0' ≤ c ∧ c ≤ '9'

/-- The characters of `[A-Za-z0-9_]`. -/
def InWord (c : Char) : Prop :=
  StartsWord c ∨ IsDecimal c

/-- The characters that may stand behind an integer: the whitespace of ASCII, and
those of the punctuation. -/
def numberEnds : List Char :=
  [' ', '\t', '\n', '\x0c', '\r', ',', '(', ')', ';', '=', '-', '>']

/-- The number that decimal digits stand for: each counts ten times as much as it
would one place further back. -/
def positionalValue : List Char → Nat
  | [] => 0
  | d :: ds => (d.toNat - '0'.toNat) * Nat.pow 10 ds.length + positionalValue ds

/-- The reserved words as they are written. -/
inductive Reserved : List Char → Keyword → Prop where
  | call : Reserved "call".toList .call
  | function : Reserved "fn".toList .function
  | int : Reserved "int".toList .int
  | intOrStr : Reserved "int_or_str".toList .intOrStr
  | str : Reserved "str".toList .str
  | undefined : Reserved "undefined".toList .undefined
  | reference : Reserved "use".toList .reference

/-- The characters that may stand behind a backslash in a string, and what each
stands for there. -/
inductive Escape : Char → Char → Prop where
  | lineFeed : Escape 'n' '\n'
  | tab : Escape 't' '\t'
  | carriageReturn : Escape 'r' '\r'
  | backslash : Escape '\\' '\\'
  | quote : Escape '"' '"'
  | apostrophe : Escape '\'' '\''

/-- The inside of a string as it is written, and what it means. -/
inductive StringBody : List Char → List Char → Prop where
  | nothing : StringBody [] []
  | plain {c : Char} {written value : List Char} :
      c ≠ '"' → c ≠ '\\' → StringBody written value → StringBody (c :: written) (c :: value)
  | escape {c d : Char} {written value : List Char} :
      Escape c d → StringBody written value → StringBody ('\\' :: c :: written) (d :: value)

/-- The characters of a word. -/
def IsWord (written : List Char) : Prop :=
  (∃ c ∈ written.head?, StartsWord c) ∧ ∀ c ∈ written, InWord c

/-- How a terminal can be written. -/
inductive Form : List Char → Terminal → Prop where
  | comma : Form [','] .comma
  | lparen : Form ['('] .lparen
  | rparen : Form [')'] .rparen
  | semicolon : Form [';'] .semicolon
  | equal : Form ['='] .equal
  | arrow : Form ['-', '>'] .arrow
  | minus : Form ['-'] .minus
  | keyword {written : List Char} {k : Keyword} : Reserved written k → Form written (.keyword k)
  | identifier {written : List Char} :
      IsWord written → (∀ k, ¬ Reserved written k) →
      Form written (.identifier (String.ofList written))
  | integer {digits : List Char} {value : UInt64} :
      digits ≠ [] → (∀ c ∈ digits, IsDecimal c) → positionalValue digits = value.toNat →
      Form digits (.integer value)
  | string {written value : List Char} :
      StringBody written value →
      Form ('"' :: (written ++ ['"'])) (.string (String.ofList value))

/-- What may follow a terminal without becoming part of it. -/
def CanFollow : Terminal → List Char → Prop
  | .minus, after => ∀ c ∈ after.head?, c ≠ '>'
  | .keyword _, after => ∀ c ∈ after.head?, ¬ InWord c
  | .identifier _, after => ∀ c ∈ after.head?, ¬ InWord c
  | .integer _, after => ∀ c ∈ after.head?, c ∈ numberEnds
  | _, _ => True

end Lexeme

/-! ## Texts -/

/-- A lexeme with what stands in front of it. -/
structure Piece where
  /-- The blanks and comments before the lexeme. -/
  gap : List Char
  /-- The lexeme as it is written. -/
  written : List Char
  /-- What is written. -/
  terminal : Terminal
  deriving DecidableEq, Repr

/-- The text of a piece. -/
def Piece.text (p : Piece) : List Char :=
  p.gap ++ p.written

/-- `Decomposition text pieces last`: the text is those pieces and, at its end,
those blanks and comments. -/
inductive Decomposition : List Char → List Piece → List Char → Prop where
  | done {last : List Char} : Gap last [] → Decomposition last [] last
  | piece {p : Piece} {rest : List Char} {pieces : List Piece} {last : List Char} :
      Gap p.gap (p.written ++ rest) → Lexeme.Form p.written p.terminal →
      Lexeme.CanFollow p.terminal rest → Decomposition rest pieces last →
      Decomposition (p.text ++ rest) (p :: pieces) last

/-- The number of bytes of a stretch of text in UTF-8. -/
def byteCount (cs : List Char) : Nat :=
  (cs.flatMap String.utf8EncodeChar).length

/-- The tokens of pieces that stand behind `offset` bytes on line `line`, and of
the end of the text. A token spans its lexeme and is on the line on which that ends. -/
def placedTokens (offset line : Nat) : List Piece → List Char → List Token
  | [], last =>
    let stop := offset + byteCount last
    [{ terminal := .eof, span := ⟨stop, stop⟩, line := line + last.count '\n' }]
  | p :: pieces, last =>
    let stop := offset + byteCount p.text
    let lastLine := line + p.text.count '\n'
    { terminal := p.terminal
      span := ⟨offset + byteCount p.gap, stop⟩
      line := lastLine } :: placedTokens stop lastLine pieces last

/-! ## The scanner and the grammar -/

theorem isBlank_iff {c : Char} : Trivia.isBlank c = true ↔ c ∈ blanks := by
  simp [Trivia.isBlank, blanks, or_assoc]

theorem byteCount_eq (cs : List Char) : byteCount cs = Text.byteLength cs := by
  induction cs with
  | nil => rfl
  | cons c cs ih =>
    rw [byteCount, List.flatMap_cons, List.length_append, String.length_utf8EncodeChar, ← byteCount,
      ih, Text.byteLength_cons]

namespace Lexeme

theorem isDigit_iff {c : Char} : c.isDigit = true ↔ IsDecimal c :=
  Bool.and_eq_true_iff.trans (and_congr decide_eq_true_iff decide_eq_true_iff)

theorem isWordStart_iff {c : Char} : isWordStart c = true ↔ StartsWord c := by
  have capital : c.isUpper = true ↔ 'A' ≤ c ∧ c ≤ 'Z' := decide_eq_true_iff
  have small : c.isLower = true ↔ 'a' ≤ c ∧ c ≤ 'z' :=
    Bool.and_eq_true_iff.trans (and_congr decide_eq_true_iff decide_eq_true_iff)
  have letters : c.isAlpha = true ↔ ('A' ≤ c ∧ c ≤ 'Z') ∨ ('a' ≤ c ∧ c ≤ 'z') :=
    Bool.or_eq_true_iff.trans (or_congr capital small)
  simp only [isWordStart, StartsWord, Bool.or_eq_true, decide_eq_true_eq, letters]
  rw [or_comm, or_assoc]

theorem isWordPart_iff {c : Char} : isWordPart c = true ↔ InWord c := by
  rw [isWordPart, Bool.or_eq_true, isWordStart_iff, isDigit_iff, InWord]

instance (c : Char) : Decidable (StartsWord c) :=
  decidable_of_iff _ isWordStart_iff

instance (c : Char) : Decidable (IsDecimal c) :=
  decidable_of_iff _ isDigit_iff

instance (c : Char) : Decidable (InWord c) :=
  decidable_of_iff _ isWordPart_iff

theorem isWordPart_eq_false_iff {c : Char} : isWordPart c = false ↔ ¬ InWord c := by
  rw [← isWordPart_iff, Bool.not_eq_true]

theorem isWord_iff {written : List Char} :
    IsWord written ↔
      (∃ c ∈ written.head?, isWordStart c = true) ∧ ∀ c ∈ written, isWordPart c = true := by
  simp only [IsWord, isWordStart_iff, isWordPart_iff]

theorem endsNumber_iff {c : Char} : endsNumber c = true ↔ c ∈ numberEnds := by
  simp [endsNumber, numberEnds, or_assoc]

theorem escape_iff {c d : Char} : Escape c d ↔ unescape? c = some d := by
  constructor
  · rintro ⟨⟩ <;> rfl
  · intro meant
    have listed := unescape?_eq_some_iff.mp meant
    simp only [escapes, List.mem_cons, Prod.mk.injEq, List.not_mem_nil, or_false] at listed
    rcases listed with ⟨rfl, rfl⟩ | ⟨rfl, rfl⟩ | ⟨rfl, rfl⟩ | ⟨rfl, rfl⟩ | ⟨rfl, rfl⟩ | ⟨rfl, rfl⟩
    all_goals constructor

theorem reserved_iff {written : List Char} {k : Keyword} :
    Reserved written k ↔ written = k.spelling.toList := by
  constructor
  · rintro ⟨⟩ <;> rfl
  · rintro rfl
    cases k <;> constructor

instance (written : List Char) (k : Keyword) : Decidable (Reserved written k) :=
  decidable_of_iff _ reserved_iff.symm

/-- Adding digit by digit, each time to ten times as much, comes to the sum of the
digits with their places. -/
theorem decimalValue_eq (digits : List Char) : decimalValue digits = positionalValue digits := by
  have carried : ∀ value, digits.foldl (fun value c => 10 * value + digitValue c) value =
      value * Nat.pow 10 digits.length + positionalValue digits := by
    induction digits with
    | nil => simp [positionalValue]
    | cons d ds ih =>
      intro value
      rw [List.foldl_cons, ih, positionalValue, digitValue, List.length_cons, Nat.pow]
      grind
  rw [decimalValue, carried, Nat.zero_mul, Nat.zero_add]

theorem form_integer_iff {digits : List Char} {value : UInt64} :
    Form digits (.integer value) ↔ digits ≠ [] ∧ (∀ c ∈ digits, c.isDigit = true) ∧
      decimalValue digits = value.toNat := by
  simp only [isDigit_iff, decimalValue_eq]
  constructor
  · rintro ⟨⟩
    exact ⟨‹_›, ‹_›, ‹_›⟩
  · rintro ⟨nonempty, all, denotes⟩
    exact .integer nonempty all denotes

theorem follow_word_iff {t : Terminal} {after : List Char}
    (word : (∃ k, t = .keyword k) ∨ ∃ name, t = .identifier name) :
    CanFollow t after ↔ ∀ c ∈ after.head?, isWordPart c = false := by
  simp only [isWordPart_eq_false_iff]
  rcases word with ⟨k, rfl⟩ | ⟨name, rfl⟩ <;> rfl

theorem follow_integer_iff {value : UInt64} {after : List Char} :
    CanFollow (.integer value) after ↔ ∀ c ∈ after.head?, endsNumber c = true := by
  simp only [endsNumber_iff]
  rfl

end Lexeme

/-- Splitting takes a gap, and inside a comment the rest of its line and a gap. -/
private theorem splitFrom_gap (cs : List Char) :
    Gap (Trivia.splitFrom false cs).1 (Trivia.splitFrom false cs).2 ∧
    ∃ body gap, (Trivia.splitFrom true cs).1 = body ++ gap ∧ '\n' ∉ body ∧
      EndsLine (gap ++ (Trivia.splitFrom true cs).2) ∧ Gap gap (Trivia.splitFrom true cs).2 := by
  induction cs with
  | nil => exact ⟨.nothing, [], [], rfl, by simp, by simp [Trivia.splitFrom, EndsLine], .nothing⟩
  | cons c cs ih =>
    obtain ⟨outside, body, gap, htaken, hbody, hline, hgap⟩ := ih
    constructor
    · by_cases hb : Trivia.isBlank c = true
      · simpa [Trivia.splitFrom, hb] using Gap.blank (isBlank_iff.mp hb) outside
      · by_cases hs : c = '/' ∧ cs.head? = some '/'
        · obtain ⟨rfl, hhead⟩ := hs
          obtain ⟨ds, rfl⟩ : ∃ ds, cs = '/' :: ds := by
            cases cs with
            | nil => simp at hhead
            | cons d ds =>
              simp only [List.head?_cons, Option.some.injEq] at hhead
              exact ⟨ds, by rw [hhead]⟩
          have hfirst : (Trivia.splitFrom true ('/' :: ds)).1 =
              '/' :: (Trivia.splitFrom true ds).1 := by simp [Trivia.splitFrom]
          cases body with
          | nil =>
            rw [hfirst] at htaken
            have : gap.head? = some '/' := by rw [← List.nil_append gap, ← htaken]; rfl
            cases gap with
            | nil => simp at this
            | cons d gap =>
              have hd : d = '\n' := hline d (by simp)
              simp [hd] at this
          | cons d body =>
            have hd : d = '/' := by
              rw [hfirst] at htaken
              simpa using (List.cons.inj htaken).1.symm
            subst hd
            have hsplit : Trivia.splitFrom false ('/' :: '/' :: ds) =
                ('/' :: (Trivia.splitFrom true ('/' :: ds)).1,
                  (Trivia.splitFrom true ('/' :: ds)).2) := by
              simp [Trivia.splitFrom, Trivia.isBlank]
            rw [hsplit, htaken]
            exact .comment (fun h => hbody (List.mem_cons_of_mem _ h)) hline hgap
        · simp only [Trivia.splitFrom, hb, hs, if_false, Bool.false_eq_true]
          exact .nothing
    · by_cases hc : c = '\n'
      · subst hc
        refine ⟨[], '\n' :: (Trivia.splitFrom false cs).1, by simp [Trivia.splitFrom], by simp,
          by simp [EndsLine], ?_⟩
        simpa [Trivia.splitFrom] using Gap.blank (by decide) outside
      · refine ⟨c :: body, gap, ?_, ?_, ?_, ?_⟩
        · simpa [Trivia.splitFrom, hc] using htaken
        · simpa [Ne.symm hc] using hbody
        · simpa [Trivia.splitFrom, hc] using hline
        · simpa [Trivia.splitFrom, hc] using hgap

/-- What is split off the front of a text is a gap. -/
theorem gap_split (cs : List Char) : Gap (Trivia.split cs).1 (Trivia.split cs).2 :=
  (splitFrom_gap cs).1

namespace Lexeme

private theorem head?_dropWhile_false {p : Char → Bool} {cs : List Char} :
    ∀ c ∈ (cs.dropWhile p).head?, p c = false := by
  intro c hc
  induction cs with
  | nil => simp at hc
  | cons d ds ih =>
    by_cases hd : p d = true
    · exact ih (by simpa [List.dropWhile_cons, hd] using hc)
    · simp only [List.dropWhile_cons, hd, Bool.false_eq_true, if_false, List.head?_cons,
        Option.mem_some] at hc
      simpa [hc] using hd

private theorem form_of_scanStringBody {cs value : List Char}
    (h : (scanStringBody cs).outcome = .ok value) :
    ∃ written, (scanStringBody cs).taken = written ++ ['"'] ∧ StringBody written value := by
  fun_induction scanStringBody cs generalizing value with
  | case1 => cases h
  | case2 rest => cases h; exact ⟨[], rfl, .nothing⟩
  | case3 => cases h
  | case4 c rest d hd ih =>
    simp only [Scan.outcome_extend] at h
    cases hbody : (scanStringBody rest).outcome with
    | error e => simp [hbody, Except.map] at h
    | ok more =>
      obtain ⟨written, htaken, hform⟩ := ih hbody
      simp only [hbody, Except.map, Except.ok.injEq] at h
      exact ⟨'\\' :: c :: written, by simp [htaken], h ▸ .escape (escape_iff.mpr hd) hform⟩
  | case5 => cases h
  | case6 c rest hquote hlast hmore ih =>
    have hslash : c ≠ '\\' := by
      rintro rfl
      cases rest with
      | nil => exact hlast rfl rfl
      | cons d ds => exact hmore d ds rfl rfl
    simp only [Scan.outcome_extend] at h
    cases hbody : (scanStringBody rest).outcome with
    | error e => simp [hbody, Except.map] at h
    | ok more =>
      obtain ⟨written, htaken, hform⟩ := ih hbody
      simp only [hbody, Except.map, Except.ok.injEq] at h
      exact ⟨c :: written, by simp [htaken], h ▸ .plain hquote hslash hform⟩

private theorem form_of_scanInteger {c : Char} {cs : List Char} {t : Terminal}
    (hc : c.isDigit = true) (h : (scanInteger (c :: cs)).outcome = .ok t) :
    Form (scanInteger (c :: cs)).taken t ∧ CanFollow t (scanInteger (c :: cs)).rest := by
  have hne : (c :: cs).takeWhile Char.isDigit ≠ [] := by simp [hc]
  have hall : ∀ d ∈ (c :: cs).takeWhile Char.isDigit, d.isDigit = true :=
    List.all_eq_true.mp List.all_takeWhile
  have value {t : Terminal}
      (h : integerOfDigits ((c :: cs).takeWhile Char.isDigit) = .ok t) :
      ∃ v, t = .integer v ∧ Form ((c :: cs).takeWhile Char.isDigit) t := by
    unfold integerOfDigits at h
    split at h
    · rename_i hlt
      cases h
      refine ⟨_, rfl, form_integer_iff.mpr ⟨hne, hall, ?_⟩⟩
      rw [UInt64.toNat_ofNat', Nat.mod_eq_of_lt hlt]
    · cases h
  unfold scanInteger at h ⊢
  split at h
  · obtain ⟨v, rfl, hform⟩ := value h
    exact ⟨hform, by simp [CanFollow]⟩
  · rename_i d rest hd
    by_cases hends : endsNumber d = true
    · simp only [hends, if_true] at h
      obtain ⟨v, rfl, hform⟩ := value h
      simp only [hends, if_true]
      exact ⟨hform, follow_integer_iff.mpr (by simpa using hends)⟩
    · simp [hends] at h

private theorem form_of_scanWord {c : Char} {cs : List Char} {t : Terminal}
    (hc : isWordStart c = true) (h : (scanWord (c :: cs)).outcome = .ok t) :
    Form (scanWord (c :: cs)).taken t ∧ CanFollow t (scanWord (c :: cs)).rest := by
  have hfollow : ∀ d ∈ ((c :: cs).dropWhile isWordPart).head?, isWordPart d = false :=
    head?_dropWhile_false
  simp only [scanWord] at h ⊢
  cases h
  unfold terminalOfWord
  split
  · rename_i k hk
    have hword := Keyword.ofSpelling?_eq_some_iff.mp hk
    have : (c :: cs).takeWhile isWordPart = k.spelling.toList := by
      rw [← hword, String.toList_ofList]
    rw [this]
    exact ⟨.keyword (reserved_iff.mpr rfl), (follow_word_iff (by simp)).mpr hfollow⟩
  · rename_i hnone
    have hword : IsWord ((c :: cs).takeWhile isWordPart) :=
      isWord_iff.mpr ⟨⟨c, by simp [isWordPart, hc], hc⟩, List.all_eq_true.mp List.all_takeWhile⟩
    refine ⟨.identifier hword fun k hk => ?_, (follow_word_iff (by simp)).mpr hfollow⟩
    rw [reserved_iff.mp hk, String.ofList_toList, Keyword.ofSpelling?_spelling] at hnone
    cases hnone

/-- What the scanner accepts is a way to write the terminal it answers, and it
stops where the terminal ends. -/
theorem form_of_scan {c : Char} {cs : List Char} {t : Terminal}
    (h : (scan c cs).outcome = .ok t) :
    Form (scan c cs).taken t ∧ CanFollow t (scan c cs).rest := by
  unfold scan at h ⊢
  cases hp : punctuation? c with
  | some u =>
    simp only [hp, Except.ok.injEq] at h ⊢
    subst h
    unfold punctuation? at hp
    repeat' split at hp
    all_goals first | (cases hp; subst c; exact ⟨by constructor, trivial⟩) | cases hp
  | none =>
    simp only [hp] at h ⊢
    by_cases hminus : c = '-'
    · subst hminus
      simp only [if_true] at h ⊢
      split at h
      · cases h; exact ⟨.arrow, trivial⟩
      · rename_i hne
        cases h
        refine ⟨.minus, fun d hd => ?_⟩
        rintro rfl
        cases cs with
        | nil => simp at hd
        | cons e es =>
          simp only [List.head?_cons, Option.mem_some] at hd
          exact hne es (by rw [hd])
    · by_cases hquote : c = '"'
      · subst hquote
        simp only [if_neg hminus, if_true, Scan.outcome_extend, Scan.taken_extend] at h ⊢
        cases hbody : (scanStringBody cs).outcome with
        | error e => simp [hbody, Except.map] at h
        | ok value =>
          obtain ⟨written, htaken, hform⟩ := form_of_scanStringBody hbody
          simp only [hbody, Except.map, Except.ok.injEq] at h
          subst h
          rw [htaken]
          exact ⟨.string hform, trivial⟩
      · by_cases hdigit : c.isDigit = true
        · simp only [if_neg hminus, if_neg hquote, if_pos hdigit] at h ⊢
          exact form_of_scanInteger hdigit h
        · by_cases hword : isWordStart c = true
          · simp only [if_neg hminus, if_neg hquote, if_neg hdigit, if_pos hword] at h ⊢
            exact form_of_scanWord hword h
          · simp [hminus, hquote, hdigit, hword] at h

end Lexeme

end DeclListing
