import DeclListing.Proofs.ListingCalls
import DeclListing.Proofs.ReaderParametricity
import DeclListing.Text.Boundary

/-! Decisions on terminals alone. Tokens made by hand may stand anywhere, and the text
need not be theirs. Two lists of tokens with the same terminals are still read alike,
call after call: the same items, or the same fault at the token with the same index.
Where the tokens stand and what the text is shows in places and in the wording of a
fault only; and a fault that would show a stretch which the text does not have is the
one thing that cannot be said. -/
namespace DeclListing.TerminalDecisions
open Reader ReaderParametricity Correspondence FaultPlaces ListingCalls

variable {tokens others rest rests : List Token} {text other : List Char} {t u : Token}
  {fault : Fault} {n : Nat}

/-- Tokens correspond when their terminals are the same. -/
def sameTerminals : Correspondence where
  Tokens t u := t.terminal = u.terminal
  terminal same := same
  signed _ same := same

/-- Lists of tokens with the same terminals correspond one to one. -/
theorem tokens_correspond (same : tokens.map Token.terminal = others.map Token.terminal) :
    List.Forall₂ sameTerminals.Tokens tokens others := by
  induction tokens generalizing others with
  | nil =>
    obtain rfl := List.map_eq_nil_iff.mp same.symm
    exact .nil
  | cons t tokens ih =>
    obtain ⟨u, others, rfl, head, tail⟩ := List.map_eq_cons_iff.mp same.symm
    exact .cons head.symm (ih tail.symm)

/-- The tokens that a call leaves to the next. -/
def left (tokens : List Token) : List Token :=
  Listing.remainder (listing tokens)

/-- A call names the last token that it takes, which has index `n`. -/
def NamesAt (tokens : List Token) (n : Nat) (t : Token) : Prop :=
  ∃ front last, tokens = front ++ last :: left tokens ∧ front.length = n ∧ t = withSign front last

/-- The end of a text, as a call names it that runs out of tokens. -/
def endOf (text : List Char) : Token :=
  { terminal := .eof, span := ⟨Text.byteLength text, Text.byteLength text⟩, line := 0 }

/-- Answers of two calls that agree: items that say the same, or errors of one kind about
the tokens of one index. -/
inductive Agree (text other : List Char) (tokens others : List Token) :
    Reading → Reading → Prop where
  | items {found also : Listing} :
      List.Forall₂ sameTerminals.SameItem found also →
      Agree text other tokens others (.items found) (.items also)
  | expected (what : Expectation) (got shown : String) {n : Nat} {t u : Token} :
      NamesAt tokens n t → NamesAt others n u →
      Agree text other tokens others (.rejected ⟨.expected what got, t⟩)
        (.rejected ⟨.expected what shown, u⟩)
  | ended (what : Expectation) :
      left tokens = [] → left others = [] →
      Agree text other tokens others (.rejected ⟨.expected what endOfText, endOf text⟩)
        (.rejected ⟨.expected what endOfText, endOf other⟩)
  | literal (error : LiteralError) {n : Nat} {t u : Token} :
      NamesAt tokens n t → NamesAt others n u →
      Agree text other tokens others (.rejected ⟨.literal error, t⟩)
        (.rejected ⟨.literal error, u⟩)

/-- Answers of calls in a row that agree, up to the first that cannot be given. Every call
leaves as many tokens as the other. -/
inductive CallsAgree (text other : List Char) :
    List Token → List Token → List Reading → List Reading → Prop where
  | done {tokens others : List Token} : CallsAgree text other tokens others [] []
  | unreadable {tokens others : List Token} {answer reply : Reading}
      {answers replies : List Reading} :
      answer = .unreadable ∨ reply = .unreadable →
      CallsAgree text other tokens others (answer :: answers) (reply :: replies)
  | call {tokens others : List Token} {answer reply : Reading} {answers replies : List Reading} :
      Agree text other tokens others answer reply →
      (left tokens).length = (left others).length →
      CallsAgree text other (left tokens) (left others) answers replies →
      CallsAgree text other tokens others (answer :: answers) (reply :: replies)

/-- The token that a fault is about, if there was one. -/
def faultToken? : Fault → Option Token
  | .unexpected _ found => found
  | .refused error => some error.token

/-- A fault is about the last token that was taken, with its sign, unless the tokens ran
out. -/
theorem fault_token (failed : listing tokens = .error fault rest) :
    (∃ what, fault = .unexpected what none ∧ rest = []) ∨
      ∃ front last, tokens = front ++ last :: rest ∧
        faultToken? fault = some (withSign front last) := by
  rcases listing_halts_settled failed with ⟨front, t, what, settled, rfl, rfl⟩ |
    ⟨what, settled, rfl, rfl⟩ | ⟨front, literal, t, error, settled, token, rfl, rfl⟩
  · exact .inr ⟨front, t, rfl, by rw [with_sign_settled settled]; rfl⟩
  · exact .inl ⟨what, rfl, rfl⟩
  · cases token with
    | string | integer =>
      exact .inr ⟨front, _, rfl, by rw [with_sign_settled settled]; rfl⟩
    | @signed sign t _ minus digits =>
      exact .inr ⟨front ++ [sign], t, by simp, by rw [with_sign_snoc minus]; rfl⟩

theorem names_at_fault (failed : listing tokens = .error fault rest)
    (about : faultToken? fault = some t) :
    NamesAt tokens (tokens.length - (rest.length + 1)) t := by
  have same : left tokens = rest := congrArg Listing.remainder failed
  rcases fault_token failed with ⟨what, rfl, -⟩ | ⟨front, last, split, named⟩
  · cases about
  · refine ⟨front, last, same ▸ split, ?_, Option.some.inj (about.symm.trans named)⟩
    rw [split]
    simp

/-- Faults of one kind are worded alike where they can be, about the tokens of one
index. -/
theorem rejections_agree {fault also : Fault} (size : tokens.length = others.length)
    (failed : listing tokens = .error fault rest) (fails : listing others = .error also rests)
    (faults : sameTerminals.SameFault fault also) (leaves : rest.length = rests.length) :
    Listing.read text tokens = .unreadable ∨ Listing.read other others = .unreadable ∨
      Agree text other tokens others (Listing.read text tokens) (Listing.read other others) := by
  have here {t : Token} := @names_at_fault tokens rest t fault failed
  have there {u : Token} := @names_at_fault others rests u also fails
  rw [← size, ← leaves] at there
  have mine : left tokens = rest := congrArg Listing.remainder failed
  have theirs : left others = rests := congrArg Listing.remainder fails
  rw [Listing.read, Listing.read, failed, fails]
  cases faults with
  | missing what =>
    obtain ⟨_, -, rfl⟩ | ⟨_, _, -, named⟩ := fault_token failed
    · obtain rfl := List.length_eq_zero_iff.mp leaves.symm
      exact .inr (.inr (.ended what mine theirs))
    · cases named
  | @found what t u same =>
    have terminal : t.terminal = u.terminal := same
    simp only [Reading.ofRead, Fault.inText?, ← terminal]
    by_cases ends : t.terminal = .eof
    · simp only [if_pos ends]
      exact .inr (.inr (.expected what _ _ (here rfl) (there rfl)))
    · simp only [if_neg ends]
      cases Text.slice? text t.span.start t.span.stop with
      | none => exact .inl rfl
      | some got =>
        cases Text.slice? other u.span.start u.span.stop with
        | none => exact .inr (.inl rfl)
        | some shown => exact .inr (.inr (.expected what _ _ (here rfl) (there rfl)))
  | @refused e f same =>
    obtain ⟨error, t⟩ := e
    obtain ⟨_, u⟩ := f
    obtain rfl : error = _ := same.value
    exact .inr (.inr (.literal error (here rfl) (there rfl)))

/-- One call on tokens with the same terminals leaves as many of them and, unless it
cannot be answered, is answered alike. -/
theorem call_agrees (same : List.Forall₂ sameTerminals.Tokens tokens others)
    (text other : List Char) :
    List.Forall₂ sameTerminals.Tokens (left tokens) (left others) ∧
      (Listing.read text tokens = .unreadable ∨ Listing.read other others = .unreadable ∨
        Agree text other tokens others (Listing.read text tokens)
          (Listing.read other others)) := by
  have alike := listing_alike same
  cases read : listing tokens with
  | ok found rest =>
    cases reads : listing others with
    | ok also rests =>
      rw [read, reads] at alike
      obtain ⟨items, leaves⟩ := alike
      rw [left, left, Listing.read, Listing.read, read, reads]
      exact ⟨leaves, .inr (.inr (.items items))⟩
    | error also rests =>
      rw [read, reads] at alike
      cases alike
  | error fault rest =>
    cases reads : listing others with
    | ok also rests =>
      rw [read, reads] at alike
      cases alike
    | error also rests =>
      rw [read, reads] at alike
      obtain - | ⟨faults, leaves⟩ := alike
      refine ⟨by rw [left, left, read, reads]; exact leaves, ?_⟩
      exact rejections_agree same.length_eq read reads faults leaves.length_eq

/-- Calls in a row are answered alike up to the first that cannot be answered. -/
theorem calls_agree (same : List.Forall₂ sameTerminals.Tokens tokens others)
    (text other : List Char) (calls : Nat) :
    CallsAgree text other tokens others (Listing.readTimes text calls tokens)
      (Listing.readTimes other calls others) := by
  induction calls generalizing tokens others with
  | zero => exact .done
  | succ calls ih =>
    obtain ⟨leaves, unread | unread | answers⟩ := call_agrees same text other
    · exact .unreadable (.inl unread)
    · exact .unreadable (.inr unread)
    · exact .call answers leaves.length_eq (ih leaves)

/-- A text does not have the stretch of a token: it ends before it starts, it ends behind
the text, or one of its ends is inside a character. -/
def Lacks (text : List Char) (t : Token) : Prop :=
  t.span.stop < t.span.start ∨ Text.byteLength text < t.span.stop ∨
    Text.InsideCharacter text t.span.start ∨ Text.InsideCharacter text t.span.stop

/-- A call cannot be answered exactly when something else had to come than a token that
is not the end of the text, and whose stretch the text does not have. -/
theorem unreadable_iff (text : List Char) (tokens : List Token) :
    Listing.read text tokens = .unreadable ↔
      ∃ what t rest, listing tokens = .error (.unexpected what (some t)) rest ∧
        t.terminal ≠ .eof ∧ Lacks text t := by
  constructor
  · intro unread
    rw [Listing.read] at unread
    cases read : listing tokens with
    | ok found rest => simp [read, Reading.ofRead] at unread
    | error fault rest =>
      cases worded : fault.inText? text with
      | some e => simp [read, Reading.ofRead, worded] at unread
      | none =>
        cases fault with
        | refused error => cases worded
        | unexpected what found =>
          cases found with
          | none => cases worded
          | some t =>
            by_cases ends : t.terminal = .eof
            · simp [Fault.inText?, ends] at worded
            · simp only [Fault.inText?, if_neg ends, Option.map_eq_none_iff] at worded
              exact ⟨what, t, rest, rfl, ends, Text.slice?_eq_none_iff.mp worded⟩
  · rintro ⟨what, t, rest, failed, inner, stretch⟩
    have cut := Text.slice?_eq_none_iff.mpr stretch
    simp [Listing.read, failed, Reading.ofRead, Fault.inText?, inner, cut]

/-- Tokens with the same terminals are read alike by any number of calls, whatever their
places and the texts, up to the first call that cannot be answered; and the only such
call is one whose fault would show a stretch that the text does not have. -/
theorem terminals_decide (same : tokens.map Token.terminal = others.map Token.terminal)
    (text other : List Char) (calls : Nat) :
    CallsAgree text other tokens others (Listing.readTimes text calls tokens)
        (Listing.readTimes other calls others) ∧
      ∀ (text : List Char) (tokens : List Token), Listing.read text tokens = .unreadable ↔
        ∃ what t rest, listing tokens = .error (.unexpected what (some t)) rest ∧
          t.terminal ≠ .eof ∧ Lacks text t :=
  ⟨calls_agree (tokens_correspond same) text other calls, unreadable_iff⟩

/-- Tokens of a text, and the same terminals at odd places of another: two calls come to
the same faults. A stretch that starts inside a character cannot be shown. -/
theorem odd_places_read_alike :
    let tokens : List Token :=
      [⟨.keyword .reference, ⟨0, 3⟩, 1⟩, ⟨.keyword .reference, ⟨4, 7⟩, 1⟩,
        ⟨.keyword .function, ⟨8, 10⟩, 1⟩, ⟨.identifier "f", ⟨11, 12⟩, 1⟩, ⟨.lparen, ⟨12, 13⟩, 1⟩,
        ⟨.minus, ⟨13, 14⟩, 1⟩, ⟨.integer 5, ⟨14, 15⟩, 1⟩]
    let others : List Token :=
      [⟨.keyword .reference, ⟨9, 1⟩, 8⟩, ⟨.keyword .reference, ⟨0, 2⟩, 7⟩,
        ⟨.keyword .function, ⟨1, 1⟩, 6⟩, ⟨.identifier "f", ⟨2, 0⟩, 5⟩, ⟨.lparen, ⟨7, 7⟩, 4⟩,
        ⟨.minus, ⟨3, 9⟩, 3⟩, ⟨.integer 5, ⟨6, 1⟩, 2⟩]
    tokens.map Token.terminal = others.map Token.terminal ∧
      Listing.readTimes "use use fn f(-5".toList 2 tokens =
        [.rejected ⟨.expected .identifier "use", ⟨.keyword .reference, ⟨4, 7⟩, 1⟩⟩,
          .rejected ⟨.literal .negativeArity, ⟨.integer 5, ⟨13, 15⟩, 1⟩⟩] ∧
      Listing.readTimes "é".toList 2 others =
        [.rejected ⟨.expected .identifier "é", ⟨.keyword .reference, ⟨0, 2⟩, 7⟩⟩,
          .rejected ⟨.literal .negativeArity, ⟨.integer 5, ⟨3, 1⟩, 2⟩⟩] ∧
      CallsAgree "use use fn f(-5".toList "é".toList tokens others
        (Listing.readTimes "use use fn f(-5".toList 2 tokens)
        (Listing.readTimes "é".toList 2 others) ∧
      Listing.read "é".toList [⟨.comma, ⟨1, 2⟩, 1⟩] = .unreadable := by
  intro tokens others
  have same : tokens.map Token.terminal = others.map Token.terminal := rfl
  obtain ⟨agree, unread⟩ := terminals_decide same "use use fn f(-5".toList "é".toList 2
  refine ⟨same, by decide +kernel, by decide +kernel, agree, (unread _ _).mpr ?_⟩
  have stuck : listing [⟨.comma, ⟨1, 2⟩, 1⟩] =
      .error (.unexpected .valueKind (some ⟨.comma, ⟨1, 2⟩, 1⟩)) [] := by
    rw [listing_cons (by simp)]
    rfl
  exact ⟨_, _, _, stuck, by simp, .inr (.inr (.inl ⟨[], 'é', [], rfl, by decide, by decide⟩))⟩

end DeclListing.TerminalDecisions
