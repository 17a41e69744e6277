import DeclListing.Listing.Fault

/-!
Reading a listing from tokens.

    listing     = item*
    item        = declaration | reference | call
    declaration = kind identifier [ "=" literal ] ";"
                | "fn" identifier "(" integer ")" "->" kind ";"
    kind        = "int" | "str" | "int_or_str" | "undefined"
    reference   = "use" identifier ";"
    call        = "call" identifier "(" [ identifier { "," identifier } ] ")" ";"
    literal     = integer | string
    integer     = [ "-" ] digits

A reader takes tokens from the front of a list. Tokens it has taken stay taken
when it fails: an unexpected token is taken together with its fault, and a
literal that means nothing was read before it was refused. The readers look at
terminals only; the text is needed for the wording of a fault alone.

`listing` ends at the end-of-text token, which it takes, or where no token is
left. Every item takes a token (`length_item_lt`), so it always ends.
-/

namespace DeclListing

/-- Reads a value from the front of a list of tokens. -/
abbrev Reader := EStateM Fault (List Token)

/-- What reading from a list of tokens comes to: the value or the fault, with
the tokens that are left. -/
abbrev Read (α : Type) := EStateM.Result Fault (List Token) α

namespace Reader

variable {α β : Type}

/-- Takes the token that meets an expectation, where `value?` tells what the
token means. -/
def take (what : Expectation) (value? : Terminal → Option α) : Reader (Located α)
  | [] => .error (.unexpected what none) []
  | t :: rest =>
    match value? t.terminal with
    | some value => .ok ⟨value, t⟩ rest
    | none => .error (.unexpected what (some t)) rest

/-- Takes a piece of punctuation. -/
def punctuation (what : Expectation) (terminal : Terminal) : Reader (Located Unit) :=
  take what fun t => if t = terminal then some () else none

/-- Takes a name. -/
def identifier : Reader (Located String) :=
  take .identifier Terminal.identifier?

/-- Takes the word for a value kind. -/
def valueKind : Reader (Located ValueKind) :=
  take .valueKind ValueKind.ofTerminal?

/-- The integer literal of a value, which must fit in 64 bits with its sign. -/
def fitted (value : Int) (token : Token) : Reader (Located Int64) := fun rest =>
  if Int64.minValue.toInt ≤ value ∧ value ≤ Int64.maxValue.toInt then .ok ⟨Int64.ofInt value, token⟩ rest
  else .error (.refused ⟨.integerOutOfRange, token⟩) rest

/-- Takes an integer. A minus sign belongs to it only if digits are the very
next token; the token of the integer then starts where the sign does. -/
def integer : Reader (Located Int64)
  | ⟨.minus, sign, _⟩ :: ⟨.integer value, digits, line⟩ :: rest =>
    fitted (-value.toNat) ⟨.integer value, ⟨sign.start, digits.stop⟩, line⟩ rest
  | ⟨.integer value, digits, line⟩ :: rest =>
    fitted value.toNat ⟨.integer value, digits, line⟩ rest
  | t :: rest => .error (.unexpected .integer (some t)) rest
  | [] => .error (.unexpected .integer none) []

/-- Takes a string or an integer. -/
def literal : Reader (Located Literal)
  | ⟨.string value, span, line⟩ :: rest =>
    .ok ⟨.string value, ⟨.string value, span, line⟩⟩ rest
  | tokens => (Located.map Literal.integer <$> integer) tokens

/-- The number of parameters that an integer gives, from 0 to 65535. -/
def arity (value : Located Int64) : Reader UInt16 :=
  if value.value.toInt < 0 then throw (.refused ⟨.negativeArity, value.token⟩)
  else if 65535 < value.value.toInt then
    throw (.refused ⟨.arityTooLarge value.value, value.token⟩)
  else pure (UInt16.ofNat value.value.toInt.toNat)

/-- Takes the initializer of a declaration, if there is one. -/
def initializer (kind : ValueKind) : Reader SymbolInfo
  | ⟨.equal, _, _⟩ :: rest =>
    (do
      let value ← literal
      if kind.admits value.value.sort then pure (kind.infoWith value.value)
      else throw (.refused ⟨.kindMismatch kind value.value.sort, value.token⟩)
      : Reader SymbolInfo) rest
  | tokens => .ok kind.info tokens

/-- Takes the declaration of a value. -/
def valueDeclaration : Reader Item := do
  let kind ← valueKind
  let name ← identifier
  let info ← initializer kind.value
  let _ ← punctuation .semicolon .semicolon
  return .declaration name info

/-- Takes the declaration of a function, after its first word. -/
def functionDeclaration : Reader Item := do
  let name ← identifier
  let _ ← punctuation .lparen .lparen
  let params ← arity (← integer)
  let _ ← punctuation .rparen .rparen
  let _ ← punctuation .arrow .arrow
  let result ← valueKind
  let _ ← punctuation .semicolon .semicolon
  return .declaration name { type := .function params result.value.kind }

/-- Takes a reference, after its first word. -/
def reference : Reader Item := do
  let name ← identifier
  let _ ← punctuation .semicolon .semicolon
  return .reference name

/-- Takes one name or more, with commas between them. -/
def names : List Token → Read (List (Located String))
  | ⟨.identifier name, span, line⟩ :: ⟨.comma, _, _⟩ :: rest =>
    match names rest with
    | .ok more after => .ok (⟨name, ⟨.identifier name, span, line⟩⟩ :: more) after
    | .error fault after => .error fault after
  | ⟨.identifier name, span, line⟩ :: rest =>
    .ok [⟨name, ⟨.identifier name, span, line⟩⟩] rest
  | t :: rest => .error (.unexpected .identifier (some t)) rest
  | [] => .error (.unexpected .identifier none) []

/-- Takes the arguments of a call and the parenthesis that closes them. -/
def arguments : Reader (List (Located String))
  | ⟨.rparen, _, _⟩ :: rest => .ok [] rest
  | tokens =>
    (do
      let args ← (names : Reader (List (Located String)))
      let _ ← punctuation .rparen .rparen
      pure args
      : Reader (List (Located String))) tokens

/-- Takes a call, after its first word. -/
def call : Reader Item := do
  let callee ← identifier
  let _ ← punctuation .lparen .lparen
  let args ← arguments
  let _ ← punctuation .semicolon .semicolon
  return .call callee args

/-- Takes one item. Anything that is not the first word of another item has to
be the kind of a value declaration. -/
def item : Reader Item
  | ⟨.keyword .function, _, _⟩ :: rest => functionDeclaration rest
  | ⟨.keyword .reference, _, _⟩ :: rest => reference rest
  | ⟨.keyword .call, _, _⟩ :: rest => call rest
  | tokens => valueDeclaration tokens

/-! ## What a reader accepts -/

theorem bind_eq_ok_iff {r : Reader α} {f : α → Reader β} {tokens rest : List Token} {b : β} :
    (r >>= f) tokens = .ok b rest ↔
      ∃ a middle, r tokens = .ok a middle ∧ f a middle = .ok b rest := by
  simp only [Bind.bind, EStateM.bind]
  constructor
  · intro h
    split at h
    · rename_i a middle hm
      exact ⟨a, middle, hm, h⟩
    · cases h
  · rintro ⟨a, middle, hm, h⟩
    rw [hm]
    exact h

theorem bind_eq_error_iff {r : Reader α} {f : α → Reader β} {tokens rest : List Token}
    {fault : Fault} :
    (r >>= f) tokens = .error fault rest ↔
      r tokens = .error fault rest ∨
        ∃ a middle, r tokens = .ok a middle ∧ f a middle = .error fault rest := by
  simp only [Bind.bind, EStateM.bind]
  cases r tokens with
  | ok a middle =>
    refine ⟨fun h => .inr ⟨a, middle, rfl, h⟩, ?_⟩
    rintro (h | ⟨_, _, h, hf⟩)
    · cases h
    · cases h
      exact hf
  | error => simp

theorem map_eq_ok_iff {r : Reader α} {f : α → β} {tokens rest : List Token} {b : β} :
    (f <$> r) tokens = .ok b rest ↔ ∃ a, r tokens = .ok a rest ∧ f a = b := by
  simp only [Functor.map, EStateM.map]
  constructor
  · intro h
    split at h
    · rename_i a middle hm
      cases h
      exact ⟨a, hm, rfl⟩
    · cases h
  · rintro ⟨a, h, rfl⟩
    rw [h]

theorem map_eq_error_iff {r : Reader α} {f : α → β} {tokens rest : List Token} {fault : Fault} :
    (f <$> r) tokens = .error fault rest ↔ r tokens = .error fault rest := by
  simp only [Functor.map, EStateM.map]
  cases r tokens <;> simp

theorem pure_eq_ok_iff {tokens rest : List Token} {a b : α} :
    (pure a : Reader α) tokens = .ok b rest ↔ a = b ∧ tokens = rest := by
  simp [pure, EStateM.pure]

/-- One token is taken exactly when it is there and means something. -/
theorem take_eq_ok_iff {what : Expectation} {value? : Terminal → Option α}
    {tokens rest : List Token} {a : Located α} :
    take what value? tokens = .ok a rest ↔
      tokens = a.token :: rest ∧ value? a.token.terminal = some a.value := by
  unfold take
  constructor
  · intro h
    split at h
    · cases h
    · split at h
      · rename_i hv
        cases h
        exact ⟨rfl, hv⟩
      · cases h
  · rintro ⟨rfl, hv⟩
    simp [hv]

theorem punctuation_eq_ok_iff {what : Expectation} {terminal : Terminal}
    {tokens rest : List Token} {a : Located Unit} :
    punctuation what terminal tokens = .ok a rest ↔
      tokens = a.token :: rest ∧ a.token.terminal = terminal := by
  simp [punctuation, take_eq_ok_iff]

theorem identifier_eq_ok_iff {tokens rest : List Token} {name : Located String} :
    identifier tokens = .ok name rest ↔
      tokens = name.token :: rest ∧ name.token.terminal = .identifier name.value := by
  rw [identifier, take_eq_ok_iff, Terminal.identifier?_eq_some_iff]

theorem valueKind_eq_ok_iff {tokens rest : List Token} {kind : Located ValueKind} :
    valueKind tokens = .ok kind rest ↔
      tokens = kind.token :: rest ∧ kind.token.terminal = .keyword kind.value.keyword := by
  rw [valueKind, take_eq_ok_iff, ValueKind.ofTerminal?_eq_some_iff]

/-- A reader that takes at least `n` tokens whenever it succeeds. -/
def TakesAtLeast (n : Nat) (r : Reader α) : Prop :=
  ∀ tokens a rest, r tokens = .ok a rest → rest.length + n ≤ tokens.length

theorem TakesAtLeast.pure (a : α) : TakesAtLeast 0 (Pure.pure a : Reader α) := by
  intro tokens b rest h
  cases h
  simp

theorem TakesAtLeast.bind {m n : Nat} {r : Reader α} {f : α → Reader β}
    (hr : TakesAtLeast m r) (hf : ∀ a, TakesAtLeast n (f a)) : TakesAtLeast (m + n) (r >>= f) := by
  intro tokens b rest h
  simp only [Bind.bind, EStateM.bind] at h
  split at h
  · rename_i a middle hmiddle
    have h₁ := hr _ _ _ hmiddle
    have h₂ := hf a _ _ _ h
    omega
  · cases h

theorem TakesAtLeast.mono {m n : Nat} {r : Reader α} (hle : n ≤ m) (hr : TakesAtLeast m r) :
    TakesAtLeast n r := by
  intro tokens a rest h
  have := hr _ _ _ h
  omega

theorem takesAtLeast_take (what : Expectation) (value? : Terminal → Option α) :
    TakesAtLeast 1 (take what value?) := by
  intro tokens a rest h
  unfold take at h
  split at h
  · cases h
  · split at h
    · cases h; simp
    · cases h

theorem takesAtLeast_fitted (value : Int) (token : Token) :
    TakesAtLeast 0 (fitted value token) := by
  intro tokens a rest h
  unfold fitted at h
  split at h
  · cases h; simp
  · cases h

theorem takesAtLeast_integer : TakesAtLeast 1 integer := by
  intro tokens a rest h
  unfold integer at h
  split at h
  · have := takesAtLeast_fitted _ _ _ _ _ h
    simp; omega
  · have := takesAtLeast_fitted _ _ _ _ _ h
    simp; omega
  · cases h
  · cases h

theorem takesAtLeast_map {n : Nat} {r : Reader α} (f : α → β) (hr : TakesAtLeast n r) :
    TakesAtLeast n (f <$> r) := by
  intro tokens b rest h
  obtain ⟨a, ha, -⟩ := map_eq_ok_iff.mp h
  exact hr _ _ _ ha

theorem takesAtLeast_literal : TakesAtLeast 1 literal := by
  intro tokens a rest h
  unfold literal at h
  split at h
  · cases h; simp
  · exact takesAtLeast_map _ takesAtLeast_integer _ _ _ h

theorem takesAtLeast_arity (value : Located Int64) : TakesAtLeast 0 (arity value) := by
  intro tokens a rest h
  unfold arity at h
  split at h
  · cases h
  · split at h
    · cases h
    · cases h; simp

theorem takesAtLeast_initializer (kind : ValueKind) : TakesAtLeast 0 (initializer kind) := by
  intro tokens a rest h
  unfold initializer at h
  split at h
  · have hread : TakesAtLeast 1 (literal >>= fun value =>
        if kind.admits value.value.sort then Pure.pure (kind.infoWith value.value)
        else throw (Fault.refused ⟨.kindMismatch kind value.value.sort, value.token⟩)) := by
      refine TakesAtLeast.bind (n := 0) takesAtLeast_literal fun value => ?_
      split
      · exact TakesAtLeast.pure _
      · intro tokens a rest h
        cases h
    have := hread _ _ _ h
    simp; omega
  · cases h; simp

theorem takesAtLeast_names : TakesAtLeast 1 names := by
  intro tokens a rest h
  fun_induction names tokens generalizing a with
  | case1 name span line _ _ tail more after hmore ih =>
    cases h
    have := ih _ hmore
    simp; omega
  | case2 => cases h
  | case3 => cases h; simp
  | case4 => cases h
  | case5 => cases h

theorem takesAtLeast_arguments : TakesAtLeast 1 arguments := by
  intro tokens a rest h
  unfold arguments at h
  split at h
  · cases h; simp
  · have hread : TakesAtLeast (1 + (1 + 0)) ((names : Reader _) >>= fun args =>
        punctuation .rparen .rparen >>= fun _ => Pure.pure args) :=
      TakesAtLeast.bind takesAtLeast_names fun _ =>
        TakesAtLeast.bind (takesAtLeast_take _ _) fun _ => TakesAtLeast.pure _
    have := hread _ _ _ h
    omega

/-- An item takes a token. -/
theorem takesAtLeast_item : TakesAtLeast 1 item := by
  intro tokens a rest h
  unfold item at h
  split at h
  · have : TakesAtLeast 1 functionDeclaration :=
      TakesAtLeast.mono (by omega) (TakesAtLeast.bind (takesAtLeast_take _ _) fun _ =>
        TakesAtLeast.bind (takesAtLeast_take _ _) fun _ =>
        TakesAtLeast.bind takesAtLeast_integer fun _ =>
        TakesAtLeast.bind (takesAtLeast_arity _) fun _ =>
        TakesAtLeast.bind (takesAtLeast_take _ _) fun _ =>
        TakesAtLeast.bind (takesAtLeast_take _ _) fun _ =>
        TakesAtLeast.bind (takesAtLeast_take _ _) fun _ =>
        TakesAtLeast.bind (takesAtLeast_take _ _) fun _ => TakesAtLeast.pure _)
    have := this _ _ _ h
    simp; omega
  · have : TakesAtLeast 1 reference :=
      TakesAtLeast.mono (by omega) (TakesAtLeast.bind (takesAtLeast_take _ _) fun _ =>
        TakesAtLeast.bind (takesAtLeast_take _ _) fun _ => TakesAtLeast.pure _)
    have := this _ _ _ h
    simp; omega
  · have : TakesAtLeast 1 call :=
      TakesAtLeast.mono (by omega) (TakesAtLeast.bind (takesAtLeast_take _ _) fun _ =>
        TakesAtLeast.bind (takesAtLeast_take _ _) fun _ =>
        TakesAtLeast.bind takesAtLeast_arguments fun _ =>
        TakesAtLeast.bind (takesAtLeast_take _ _) fun _ => TakesAtLeast.pure _)
    have := this _ _ _ h
    simp; omega
  · have : TakesAtLeast 1 valueDeclaration :=
      TakesAtLeast.mono (by omega) (TakesAtLeast.bind (takesAtLeast_take _ _) fun _ =>
        TakesAtLeast.bind (takesAtLeast_take _ _) fun _ =>
        TakesAtLeast.bind (takesAtLeast_initializer _) fun _ =>
        TakesAtLeast.bind (takesAtLeast_take _ _) fun _ => TakesAtLeast.pure _)
    exact this _ _ _ h

theorem length_item_lt {tokens : List Token} {i : Item} {rest : List Token}
    (h : item tokens = .ok i rest) : rest.length < tokens.length :=
  takesAtLeast_item _ _ _ h

/-- Takes a whole listing, up to and with the token of the end of the text, or
up to where no token is left. -/
def listing (tokens : List Token) : Read Listing :=
  match tokens with
  | [] => .ok [] []
  | t :: rest =>
    if t.terminal = .eof then .ok [] rest
    else
      match _h : item (t :: rest) with
      | .error fault after => .error fault after
      | .ok i after =>
        match listing after with
        | .error fault last => .error fault last
        | .ok items last => .ok (i :: items) last
termination_by tokens.length
decreasing_by exact length_item_lt _h

/-- Before the end of the text an item comes first, and then the others. -/
theorem listing_cons {t : Token} {rest : List Token} (plain : t.terminal ≠ .eof) :
    listing (t :: rest) =
      (item >>= fun i => (i :: ·) <$> listing : Reader Listing) (t :: rest) := by
  rw [listing, if_neg plain]
  simp only [Bind.bind, EStateM.bind, Functor.map, EStateM.map]
  split
  · rename_i read
    rw [read]
  · rename_i read
    rw [read]
    split <;> simp_all

end Reader

/-! ## Listings in a text -/

/-- What reading a listing comes to, given the text of the tokens. -/
inductive Reading where
  /-- The items of a listing. -/
  | items (items : Listing)
  /-- The tokens are no listing. -/
  | rejected (error : Located SyntaxError)
  /-- The tokens are no listing, and the text has no stretch where the offending
  token claims to stand. -/
  | unreadable
  deriving DecidableEq, Repr

namespace Reading

/-- What is to be said about the text when its tokens were read. -/
def ofRead (text : List Char) : Read Listing → Reading
  | .ok listing _ => .items listing
  | .error fault _ =>
    match fault.inText? text with
    | some error => .rejected error
    | none => .unreadable

end Reading

namespace Listing

/-- The tokens that a read left. -/
def remainder {α : Type} : Read α → List Token
  | .ok _ rest => rest
  | .error _ rest => rest

/-- Reads one listing from the tokens of a text. -/
def read (text : List Char) (tokens : List Token) : Reading :=
  .ofRead text (Reader.listing tokens)

/-- Reads a number of listings, each from the tokens that the one before it
left. -/
def readTimes (text : List Char) : Nat → List Token → List Reading
  | 0, _ => []
  | n + 1, tokens =>
    let r := Reader.listing tokens
    .ofRead text r :: readTimes text n (remainder r)

end Listing

end DeclListing
