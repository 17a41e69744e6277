import DeclListing.Token.Basic

/-!
Reading one lexeme from the front of a text, without regard to where the text
stands. `scan` answers for the lexeme that starts with a given character: the
terminal or the fault, the characters taken, and what is left. Nothing is lost
(`taken_append_rest`), and at least the first character is taken
(`length_rest_le`), so reading on after a fault comes to an end.
-/

namespace DeclListing

/-- Why a stretch of text is no lexeme. -/
inductive LexError where
  | unexpectedEnd
  | invalidDigit (c : Char)
  | integerOverflow
  | invalidEscape (c : Char)
  | unexpectedChar (c : Char)
  deriving DecidableEq, Repr

/-- What reading from the front of a text comes to. -/
structure Scan (α : Type) where
  /-- What was read, or why nothing could be. -/
  outcome : Except LexError α
  /-- The characters taken. They stay taken after a fault. -/
  taken : List Char
  /-- The characters left. -/
  rest : List Char

namespace Scan

variable {α β : Type}

/-- The same scan with another value, begun some characters earlier. -/
def extend (before : List Char) (f : α → β) (s : Scan α) : Scan β where
  outcome := s.outcome.map f
  taken := before ++ s.taken
  rest := s.rest

/-- The lines that a scan ends. A line feed refused as an escape ends none. -/
def lines (s : Scan α) : Nat :=
  match s.outcome with
  | .error (.invalidEscape _) => Text.lineFeeds s.taken.dropLast
  | _ => Text.lineFeeds s.taken

@[simp]
theorem taken_extend (before : List Char) (f : α → β) (s : Scan α) :
    (s.extend before f).taken = before ++ s.taken := rfl

@[simp]
theorem rest_extend (before : List Char) (f : α → β) (s : Scan α) :
    (s.extend before f).rest = s.rest := rfl

@[simp]
theorem outcome_extend (before : List Char) (f : α → β) (s : Scan α) :
    (s.extend before f).outcome = s.outcome.map f := rfl

end Scan

namespace Lexeme

/-- The characters that a word can start with: the letters of ASCII and the
underscore. -/
def isWordStart (c : Char) : Bool :=
  c = '_' || c.isAlpha

/-- The characters that a word can go on with: those, and the digits of ASCII. -/
def isWordPart (c : Char) : Bool :=
  isWordStart c || c.isDigit

/-- The characters that can follow the digits of an integer: the whitespace
of ASCII, and those that punctuation is made of. -/
def endsNumber (c : Char) : Bool :=
  c = ' ' || c = '\t' || c = '\n' || c = '\x0c' || c = '\r' ||
    c = ',' || c = '(' || c = ')' || c = ';' || c = '=' || c = '-' || c = '>'

/-- The terminals that are one character, whatever follows it. -/
def punctuation? (c : Char) : Option Terminal :=
  if c = ',' then some .comma
  else if c = '(' then some .lparen
  else if c = ')' then some .rparen
  else if c = ';' then some .semicolon
  else if c = '=' then some .equal
  else none

/-- The escapes of strings: the character after the backslash, and the one that
is meant. -/
def escapes : List (Char × Char) :=
  [('n', '\n'), ('t', '\t'), ('r', '\r'), ('\\', '\\'), ('"', '"'), ('\'', '\'')]

/-- The character that an escape stands for, given by the one after the
backslash. -/
def unescape? (c : Char) : Option Char :=
  escapes.lookup c

theorem unescape?_eq_some_iff {c d : Char} : unescape? c = some d ↔ (c, d) ∈ escapes := by
  constructor
  · intro h
    obtain ⟨before, after, split, -⟩ := List.lookup_eq_some_iff.mp h
    rw [split]
    simp
  · intro h
    simp only [escapes, List.mem_cons, Prod.mk.injEq, List.not_mem_nil, or_false] at h
    rcases h with ⟨rfl, rfl⟩ | ⟨rfl, rfl⟩ | ⟨rfl, rfl⟩ | ⟨rfl, rfl⟩ | ⟨rfl, rfl⟩ | ⟨rfl, rfl⟩ <;> rfl

/-- The value of a digit. -/
def digitValue (c : Char) : Nat :=
  c.toNat - '0'.toNat

/-- The number that a run of decimal digits denotes. -/
def decimalValue (digits : List Char) : Nat :=
  digits.foldl (fun value c => 10 * value + digitValue c) 0

/-- The integer that a run of digits denotes. It must be below 2⁶⁴. -/
def integerOfDigits (digits : List Char) : Except LexError Terminal :=
  if decimalValue digits < UInt64.size then .ok (.integer (UInt64.ofNat (decimalValue digits)))
  else .error .integerOverflow

/-- Reads an integer from a text that starts with a digit. A character behind
the digits that cannot follow them is taken and refused. -/
def scanInteger (cs : List Char) : Scan Terminal :=
  let digits := cs.takeWhile Char.isDigit
  match cs.dropWhile Char.isDigit with
  | [] => { outcome := integerOfDigits digits, taken := digits, rest := [] }
  | c :: rest =>
    if endsNumber c then
      { outcome := integerOfDigits digits, taken := digits, rest := c :: rest }
    else
      { outcome := .error (.invalidDigit c), taken := digits ++ [c], rest }

/-- The terminal for a word: a reserved word or an identifier. -/
def terminalOfWord (word : String) : Terminal :=
  match Keyword.ofSpelling? word with
  | some k => .keyword k
  | none => .identifier word

/-- Reads a word from a text that starts with one. -/
def scanWord (cs : List Char) : Scan Terminal :=
  let word := cs.takeWhile isWordPart
  { outcome := .ok (terminalOfWord (String.ofList word)), taken := word
    rest := cs.dropWhile isWordPart }

/-- Reads the inside of a string and its closing quote. Line feeds may stand in
it; a backslash must be followed by one of the escapes. -/
def scanStringBody : List Char → Scan (List Char)
  | [] => { outcome := .error .unexpectedEnd, taken := [], rest := [] }
  | '"' :: rest => { outcome := .ok [], taken := ['"'], rest }
  | ['\\'] => { outcome := .error .unexpectedEnd, taken := ['\\'], rest := [] }
  | '\\' :: c :: rest =>
    match unescape? c with
    | some d => (scanStringBody rest).extend ['\\', c] (d :: ·)
    | none => { outcome := .error (.invalidEscape c), taken := ['\\', c], rest }
  | c :: rest => (scanStringBody rest).extend [c] (c :: ·)

/-! ## One lexeme -/

/-- Reads the lexeme that starts with `c` and goes on in `cs`. -/
def scan (c : Char) (cs : List Char) : Scan Terminal :=
  match punctuation? c with
  | some t => { outcome := .ok t, taken := [c], rest := cs }
  | none =>
    if c = '-' then
      match cs with
      | '>' :: rest => { outcome := .ok .arrow, taken := ['-', '>'], rest }
      | _ => { outcome := .ok .minus, taken := [c], rest := cs }
    else if c = '"' then
      (scanStringBody cs).extend [c] fun body => .string (String.ofList body)
    else if c.isDigit then scanInteger (c :: cs)
    else if isWordStart c then scanWord (c :: cs)
    else { outcome := .error (.unexpectedChar c), taken := [c], rest := cs }

/-- Reading the inside of a string loses nothing. -/
theorem scanStringBody_taken_append_rest (cs : List Char) :
    (scanStringBody cs).taken ++ (scanStringBody cs).rest = cs := by
  fun_induction scanStringBody cs <;> simp_all

theorem scanInteger_taken_append_rest (cs : List Char) :
    (scanInteger cs).taken ++ (scanInteger cs).rest = cs := by
  have h := List.takeWhile_append_dropWhile (p := Char.isDigit) (l := cs)
  unfold scanInteger
  split
  · rename_i hd
    simpa [hd] using h
  · rename_i d rest hd
    split <;> simpa [hd] using h

theorem scanWord_taken_append_rest (cs : List Char) :
    (scanWord cs).taken ++ (scanWord cs).rest = cs :=
  List.takeWhile_append_dropWhile

/-- Reading a lexeme loses nothing. -/
theorem taken_append_rest (c : Char) (cs : List Char) :
    (scan c cs).taken ++ (scan c cs).rest = c :: cs := by
  unfold scan
  split
  · rfl
  · split
    · subst c; split <;> simp
    · split
      · simp [scanStringBody_taken_append_rest]
      · split
        · exact scanInteger_taken_append_rest _
        · split
          · exact scanWord_taken_append_rest _
          · rfl

/-- A lexeme has at least the character it starts with. -/
theorem taken_ne_nil (c : Char) (cs : List Char) : (scan c cs).taken ≠ [] := by
  unfold scan
  split
  · simp
  · split
    · split <;> simp
    · split
      · simp
      · split
        · rename_i hd
          unfold scanInteger
          split
          · simp [hd]
          · split <;> simp [hd]
        · split
          · rename_i hw
            simp [scanWord, isWordPart, hw]
          · simp

/-- What is left behind a lexeme is shorter than the text. -/
theorem length_rest_le (c : Char) (cs : List Char) : (scan c cs).rest.length ≤ cs.length := by
  have h := congrArg List.length (taken_append_rest c cs)
  have hpos := List.length_pos_iff.mpr (taken_ne_nil c cs)
  simp only [List.length_append, List.length_cons] at h
  omega

end Lexeme

end DeclListing
