import Mathlib.Data.List.Forall2
import DeclListing.Listing.Grammar
import DeclListing.Listing.Reader

/-! Tokens are read as a listing exactly when those before the end of the text
are a sequence of items, and then they are so in one way. Every reader is held
against the part of the grammar that it reads: what it takes is derived, and
what is derived in front of any tokens is what it takes. -/
namespace DeclListing.ListingGrammarExactness
open Reader

variable {tokens rest taken segment : List Token} {token : Token}

/-- A value between the limits of 64 bits is kept. -/
theorem value_in_range {value : Int}
    (fits : Int64.minValue.toInt ≤ value ∧ value ≤ Int64.maxValue.toInt) :
    (Int64.ofInt value).toInt = value :=
  Int64.toInt_ofInt_of_le fits.1 (Int.lt_of_le_of_lt fits.2 (by decide))

/-- A number of parameters within its limits is kept. -/
theorem params_in_range {value : Int} (least : 0 ≤ value) (most : value ≤ 65535) :
    ((UInt16.ofNat value.toNat).toNat : Int) = value := by
  rw [UInt16.toNat_ofNat']
  omega

theorem fitted_eq_ok_iff {value : Int} {n : Located Int64} :
    fitted value token tokens = .ok n rest ↔
      n.value.toInt = value ∧ n.token = token ∧ rest = tokens := by
  unfold fitted
  constructor
  · intro read
    split at read
    · rename_i fits
      cases read
      exact ⟨value_in_range fits, rfl, rfl⟩
    · cases read
  · rintro ⟨rfl, rfl, rfl⟩
    rw [if_pos ⟨n.value.minValue_le_toInt, n.value.toInt_le⟩, Int64.ofInt_toInt]

/-- The tokens of a literal, and the one that stands for all of them. It starts
where the sign does. -/
inductive LiteralToken : List Token → Token → Prop where
  | string {t : Token} {value : String} : t.terminal = .string value → LiteralToken [t] t
  | integer {t : Token} {magnitude : UInt64} :
      t.terminal = .integer magnitude → LiteralToken [t] t
  | signed {sign t : Token} {magnitude : UInt64} :
      sign.terminal = .minus → t.terminal = .integer magnitude →
      LiteralToken [sign, t] { t with span := ⟨sign.span.start, t.span.stop⟩ }

/-- The tokens that an integer was read from. -/
theorem integer_taken {n : Located Int64} (read : integer tokens = .ok n rest) :
    ∃ taken, tokens = taken ++ rest ∧ LiteralToken taken n.token ∧
      Derives.Integer taken n.value.toInt := by
  unfold integer at read
  split at read
  · obtain ⟨value, token, rfl⟩ := fitted_eq_ok_iff.mp read
    rw [value, token]
    exact ⟨[_, _], rfl, .signed rfl rfl, .negated rfl rfl⟩
  · obtain ⟨value, token, rfl⟩ := fitted_eq_ok_iff.mp read
    rw [value, token]
    exact ⟨[_], rfl, .integer rfl, .plain rfl⟩
  · cases read
  · cases read

theorem integer_plain {magnitude : UInt64} (digits : token.terminal = .integer magnitude) :
    integer (token :: rest) = fitted magnitude.toNat token rest := by
  obtain ⟨terminal, span, line⟩ := token
  subst digits
  rfl

theorem integer_negated {sign : Token} {magnitude : UInt64}
    (minus : sign.terminal = .minus) (digits : token.terminal = .integer magnitude) :
    integer (sign :: token :: rest) =
      fitted (-magnitude.toNat) { token with span := ⟨sign.span.start, token.span.stop⟩ } rest := by
  obtain ⟨terminal, span, line⟩ := token
  obtain ⟨terminal, signSpan, signLine⟩ := sign
  subst minus digits
  rfl

/-- An integer is taken exactly where its tokens stand. -/
theorem integer_eq_ok_iff {value : Int64} :
    (∃ token, integer tokens = .ok ⟨value, token⟩ rest) ↔
      ∃ taken, tokens = taken ++ rest ∧ Derives.Integer taken value.toInt := by
  constructor
  · rintro ⟨token, read⟩
    obtain ⟨taken, split, -, derived⟩ := integer_taken read
    exact ⟨taken, split, derived⟩
  · rintro ⟨taken, rfl, derived⟩
    generalize meant : value.toInt = n at derived
    cases derived with
    | plain digits =>
      exact ⟨_, (integer_plain digits).trans (fitted_eq_ok_iff.mpr ⟨meant, rfl, rfl⟩)⟩
    | negated minus digits =>
      exact ⟨_, (integer_negated minus digits).trans (fitted_eq_ok_iff.mpr ⟨meant, rfl, rfl⟩)⟩

/-- The tokens that a literal was read from. -/
theorem literal_taken {value : Located Literal} (read : literal tokens = .ok value rest) :
    ∃ taken, tokens = taken ++ rest ∧ LiteralToken taken value.token ∧
      Derives.Literal taken value.value := by
  unfold literal at read
  split at read
  · cases read
    exact ⟨[_], rfl, .string rfl, .string rfl⟩
  · obtain ⟨n, inner, rfl⟩ := map_eq_ok_iff.mp read
    obtain ⟨taken, split, token, derived⟩ := integer_taken inner
    exact ⟨taken, split, token, .integer derived⟩

private theorem literal_string {value : String} (quoted : token.terminal = .string value) :
    literal (token :: rest) = .ok ⟨.string value, token⟩ rest := by
  obtain ⟨terminal, span, line⟩ := token
  subst quoted
  rfl

theorem literal_integer (other : ∀ value, token.terminal ≠ .string value) :
    literal (token :: rest) = (Located.map Literal.integer <$> integer) (token :: rest) := by
  rw [literal]
  rintro value span line _ ⟨rfl, rfl⟩
  exact other value rfl

/-- A literal that is refused as an integer is no string. -/
theorem literal_refuses {e : Located LiteralError}
    (failed : integer tokens = .error (.refused e) rest) :
    literal tokens = .error (.refused e) rest := by
  cases tokens with
  | nil => cases failed
  | cons t tail =>
    have other : ∀ value, t.terminal ≠ .string value := by
      intro value quoted
      obtain ⟨terminal, span, line⟩ := t
      subst quoted
      cases failed
    rw [literal_integer other]
    exact map_eq_error_iff.mpr failed

/-- A literal is taken exactly where its tokens stand. -/
theorem literal_eq_ok_iff {value : Literal} :
    (∃ token, literal tokens = .ok ⟨value, token⟩ rest) ↔
      ∃ taken, tokens = taken ++ rest ∧ Derives.Literal taken value := by
  constructor
  · rintro ⟨token, read⟩
    obtain ⟨taken, split, -, derived⟩ := literal_taken read
    exact ⟨taken, split, derived⟩
  · rintro ⟨taken, rfl, derived⟩
    cases derived with
    | string quoted => exact ⟨_, literal_string quoted⟩
    | @integer _ n derived =>
      have digits : ∃ token, integer (taken ++ rest) = .ok ⟨n, token⟩ rest :=
        integer_eq_ok_iff.mpr ⟨taken, rfl, derived⟩
      obtain ⟨token, read⟩ := digits
      have head : ∃ first tail, taken = first :: tail ∧
          ∀ value, first.terminal ≠ .string value := by
        clear read
        generalize n.toInt = value at derived
        cases derived with
        | plain digits => exact ⟨_, _, rfl, by simp [digits]⟩
        | negated minus digits => exact ⟨_, _, rfl, by simp [minus]⟩
      obtain ⟨first, tail, rfl, other⟩ := head
      rw [List.cons_append] at read ⊢
      exact ⟨token, (literal_integer other).trans (map_eq_ok_iff.mpr ⟨⟨n, token⟩, read, rfl⟩)⟩

/-- The number of parameters is the integer itself. -/
theorem arity_eq_ok_iff {value : Located Int64} {params : UInt16} :
    arity value tokens = .ok params rest ↔
      value.value.toInt = params.toNat ∧ rest = tokens := by
  have bound := params.toNat_lt
  unfold arity
  split
  · rename_i negative
    refine ⟨nofun, fun same => ?_⟩
    omega
  · split
    · rename_i large
      refine ⟨nofun, fun same => ?_⟩
      omega
    · rename_i nonnegative small
      rw [pure_eq_ok_iff]
      constructor
      · rintro ⟨rfl, rfl⟩
        exact ⟨(params_in_range (by omega) (by omega)).symm, rfl⟩
      · rintro ⟨same, rfl⟩
        rw [same, Int.toNat_natCast, UInt16.ofNat_toNat]
        exact ⟨rfl, rfl⟩

theorem name_iff {name : Located String} :
    Derives.Name token name ↔ token = name.token ∧ token.terminal = .identifier name.value := by
  constructor
  · rintro ⟨word⟩
    exact ⟨rfl, word⟩
  · rintro ⟨rfl, word⟩
    exact .identifier word

/-- What a kind declares with an initializer, if there is one. -/
inductive Initializer (kind : ValueKind) : List Token → SymbolInfo → Prop where
  | absent : Initializer kind [] kind.info
  | present {equal : Token} {tokens : List Token} {value : Literal} :
      equal.terminal = .equal → Derives.Literal tokens value → kind.admits value.sort = true →
      Initializer kind (equal :: tokens) (kind.infoWith value)

/-- What an initializer is read from derives it. -/
theorem initializer_sound {kind : ValueKind} {info : SymbolInfo}
    (read : initializer kind tokens = .ok info rest) :
    ∃ taken, tokens = taken ++ rest ∧ Initializer kind taken info := by
  unfold initializer at read
  split at read
  · obtain ⟨value, middle, inner, checked⟩ := bind_eq_ok_iff.mp read
    split at checked
    · rename_i admitted
      obtain ⟨rfl, rfl⟩ := pure_eq_ok_iff.mp checked
      obtain ⟨taken, split, derived⟩ := literal_eq_ok_iff.mp ⟨value.token, inner⟩
      exact ⟨_ :: taken, by rw [split]; rfl, .present rfl derived admitted⟩
    · cases checked
  · cases read
    exact ⟨[], rfl, .absent⟩

theorem initializer_eq_ok_iff {kind : ValueKind} {info : SymbolInfo} {stop : Token}
    (stops : stop.terminal = .semicolon) :
    initializer kind tokens = .ok info (stop :: rest) ↔
      ∃ taken, tokens = taken ++ stop :: rest ∧ Initializer kind taken info := by
  constructor
  · exact initializer_sound
  · rintro ⟨taken, rfl, derived⟩
    cases derived with
    | absent =>
      obtain ⟨terminal, span, line⟩ := stop
      subst stops
      rfl
    | @present equal tokens value assigns derived admitted =>
      obtain ⟨terminal, span, line⟩ := equal
      subst assigns
      obtain ⟨token, read⟩ := literal_eq_ok_iff.mpr ⟨tokens, rfl, derived⟩
      refine bind_eq_ok_iff.mpr ⟨_, _, read, ?_⟩
      rw [if_pos admitted]
      rfl

private theorem names_more {comma : Token} {name : String} (word : token.terminal = .identifier name)
    (separates : comma.terminal = .comma) {more : List (Located String)}
    (read : names segment = .ok more rest) :
    names (token :: comma :: segment) = .ok (⟨name, token⟩ :: more) rest := by
  obtain ⟨terminal, span, line⟩ := token
  obtain ⟨terminal, commaSpan, commaLine⟩ := comma
  subst word separates
  rw [names, read]

private theorem names_last {name : String} (word : token.terminal = .identifier name)
    (stops : ∀ t ∈ rest.head?, t.terminal ≠ .comma) :
    names (token :: rest) = .ok [⟨name, token⟩] rest := by
  obtain ⟨terminal, span, line⟩ := token
  subst word
  rw [names]
  rintro span line tail rfl
  exact stops _ rfl rfl

/-- Names are taken up to the first that no comma follows. -/
theorem names_eq_ok_iff {found : List (Located String)} :
    names tokens = .ok found rest ↔
      (∃ taken, tokens = taken ++ rest ∧ Derives.Names taken found) ∧
        ∀ t ∈ rest.head?, t.terminal ≠ .comma := by
  constructor
  · intro read
    fun_induction names tokens generalizing found with
    | case1 name span line commaSpan commaLine tail more after inner ih =>
      cases read
      obtain ⟨⟨taken, split, derived⟩, stops⟩ := ih inner
      exact ⟨⟨_ :: _ :: taken, by rw [split]; rfl, .more (.identifier rfl) rfl derived⟩, stops⟩
    | case2 => cases read
    | case3 name span line tail notComma =>
      cases read
      refine ⟨⟨[_], rfl, .last (.identifier rfl)⟩, ?_⟩
      rintro ⟨terminal, span', line'⟩ head rfl
      obtain ⟨others, rfl⟩ := List.head?_eq_some_iff.mp head
      exact notComma span' line' others rfl
    | case4 => cases read
    | case5 => cases read
  · rintro ⟨⟨taken, rfl, derived⟩, stops⟩
    induction derived with
    | last identifier =>
      obtain ⟨rfl, word⟩ := name_iff.mp identifier
      exact names_last word stops
    | more identifier separates _ ih =>
      obtain ⟨rfl, word⟩ := name_iff.mp identifier
      exact names_more word separates ih

private theorem names_cons {found : List (Located String)} (derived : Derives.Names taken found) :
    ∃ first tail, taken = first :: tail ∧ first.terminal ≠ .rparen := by
  cases derived with
  | last identifier | more identifier =>
    obtain ⟨rfl, word⟩ := name_iff.mp identifier
    exact ⟨_, _, rfl, by simp [word]⟩

/-- The arguments of a call are taken with the parenthesis behind them. -/
theorem arguments_eq_ok_iff {found : List (Located String)} :
    arguments tokens = .ok found rest ↔
      ∃ taken closing, tokens = taken ++ closing :: rest ∧ Derives.Arguments taken found ∧
        closing.terminal = .rparen := by
  constructor
  · intro read
    unfold arguments at read
    split at read
    · cases read
      exact ⟨[], _, rfl, .none, rfl⟩
    · obtain ⟨args, middle, inner, read⟩ := bind_eq_ok_iff.mp read
      obtain ⟨closing, middle', closed, returned⟩ := bind_eq_ok_iff.mp read
      obtain ⟨rfl, rfl⟩ := pure_eq_ok_iff.mp returned
      obtain ⟨rfl, closes⟩ := punctuation_eq_ok_iff.mp closed
      obtain ⟨⟨taken, split, derived⟩, -⟩ := names_eq_ok_iff.mp inner
      exact ⟨taken, closing.token, split, .some derived, closes⟩
  · rintro ⟨taken, closing, rfl, derived, closes⟩
    cases derived with
    | none =>
      obtain ⟨terminal, span, line⟩ := closing
      subst closes
      rfl
    | some derived =>
      have read : names (taken ++ closing :: rest) = .ok found (closing :: rest) :=
        names_eq_ok_iff.mpr ⟨⟨taken, rfl, derived⟩, by simp [closes]⟩
      obtain ⟨first, tail, rfl, other⟩ := names_cons derived
      rw [List.cons_append, arguments, ← List.cons_append]
      · exact bind_eq_ok_iff.mpr ⟨_, _, read, bind_eq_ok_iff.mpr
          ⟨⟨(), closing⟩, rest, punctuation_eq_ok_iff.mpr ⟨rfl, closes⟩, rfl⟩⟩
      · rintro span line _ ⟨rfl, rfl⟩
        exact other rfl

/-! ## Items -/

variable {i : Item} {word : Token}

private theorem declaration_derived {t stop : Token} {kind : ValueKind} {name : Located String}
    {info : SymbolInfo} (opens : word.terminal = .keyword kind.keyword) (named : Derives.Name t name)
    (derived : Initializer kind taken info) (stops : stop.terminal = .semicolon) :
    Derives.Item (word :: t :: (taken ++ [stop])) (.declaration name info) := by
  cases derived with
  | absent => exact .plain opens (.of_kind kind) named stops
  | present assigns literal admitted =>
    exact .initialized opens (.of_kind admitted) named assigns literal stops

private theorem value_declaration_sound (read : valueDeclaration tokens = .ok i rest) :
    ∃ segment, tokens = segment ++ rest ∧ Derives.Item segment i := by
  obtain ⟨kind, _, kindRead, read⟩ := bind_eq_ok_iff.mp read
  obtain ⟨name, _, nameRead, read⟩ := bind_eq_ok_iff.mp read
  obtain ⟨info, _, infoRead, read⟩ := bind_eq_ok_iff.mp read
  obtain ⟨stop, _, stopRead, read⟩ := bind_eq_ok_iff.mp read
  obtain ⟨rfl, rfl⟩ := pure_eq_ok_iff.mp read
  obtain ⟨rfl, stops⟩ := punctuation_eq_ok_iff.mp stopRead
  obtain ⟨taken, rfl, derived⟩ := (initializer_eq_ok_iff stops).mp infoRead
  obtain ⟨rfl, named⟩ := identifier_eq_ok_iff.mp nameRead
  obtain ⟨rfl, opens⟩ := valueKind_eq_ok_iff.mp kindRead
  exact ⟨_, by simp, declaration_derived opens (.identifier named) derived stops⟩

private theorem value_declaration_complete {kind : ValueKind} {name : Located String} {stop : Token}
    {info : SymbolInfo} (opens : word.terminal = .keyword kind.keyword)
    (named : name.token.terminal = .identifier name.value) (derived : Initializer kind taken info)
    (stops : stop.terminal = .semicolon) :
    valueDeclaration (word :: name.token :: (taken ++ stop :: rest)) =
      .ok (.declaration name info) rest := by
  refine bind_eq_ok_iff.mpr ⟨⟨kind, word⟩, _, valueKind_eq_ok_iff.mpr ⟨rfl, opens⟩, ?_⟩
  refine bind_eq_ok_iff.mpr ⟨name, _, identifier_eq_ok_iff.mpr ⟨rfl, named⟩, ?_⟩
  refine bind_eq_ok_iff.mpr ⟨info, _, (initializer_eq_ok_iff stops).mpr ⟨_, rfl, derived⟩, ?_⟩
  exact bind_eq_ok_iff.mpr ⟨⟨(), stop⟩, _, punctuation_eq_ok_iff.mpr ⟨rfl, stops⟩, rfl⟩

private theorem function_declaration_sound (opens : word.terminal = .keyword .function)
    (read : functionDeclaration tokens = .ok i rest) :
    ∃ segment, word :: tokens = segment ++ rest ∧ Derives.Item segment i := by
  obtain ⟨name, _, nameRead, read⟩ := bind_eq_ok_iff.mp read
  obtain ⟨opening, _, openRead, read⟩ := bind_eq_ok_iff.mp read
  obtain ⟨value, _, valueRead, read⟩ := bind_eq_ok_iff.mp read
  obtain ⟨params, _, arityRead, read⟩ := bind_eq_ok_iff.mp read
  obtain ⟨closing, _, closeRead, read⟩ := bind_eq_ok_iff.mp read
  obtain ⟨arrow, _, arrowRead, read⟩ := bind_eq_ok_iff.mp read
  obtain ⟨kind, _, kindRead, read⟩ := bind_eq_ok_iff.mp read
  obtain ⟨stop, _, stopRead, read⟩ := bind_eq_ok_iff.mp read
  obtain ⟨rfl, rfl⟩ := pure_eq_ok_iff.mp read
  obtain ⟨rfl, stops⟩ := punctuation_eq_ok_iff.mp stopRead
  obtain ⟨rfl, result⟩ := valueKind_eq_ok_iff.mp kindRead
  obtain ⟨rfl, points⟩ := punctuation_eq_ok_iff.mp arrowRead
  obtain ⟨rfl, closes⟩ := punctuation_eq_ok_iff.mp closeRead
  obtain ⟨same, rfl⟩ := arity_eq_ok_iff.mp arityRead
  obtain ⟨taken, rfl, derived⟩ := integer_eq_ok_iff.mp ⟨value.token, valueRead⟩
  obtain ⟨rfl, encloses⟩ := punctuation_eq_ok_iff.mp openRead
  obtain ⟨rfl, named⟩ := identifier_eq_ok_iff.mp nameRead
  exact ⟨_, by simp, .function opens (.identifier named) encloses (same ▸ derived) closes points
    result (.of_kind _) stops⟩

private theorem function_declaration_complete {opening closing arrow result stop : Token}
    {name : Located String} {params : UInt16} {kind : ValueKind}
    (named : name.token.terminal = .identifier name.value) (encloses : opening.terminal = .lparen)
    (derived : Derives.Integer taken params.toNat) (closes : closing.terminal = .rparen)
    (points : arrow.terminal = .arrow) (ends : result.terminal = .keyword kind.keyword)
    (stops : stop.terminal = .semicolon) :
    functionDeclaration
        (name.token :: opening :: (taken ++ closing :: arrow :: result :: stop :: rest)) =
      .ok (.declaration name { type := .function params kind.kind }) rest := by
  have bound := params.toNat_lt
  have value : (Int64.ofInt params.toNat).toInt = params.toNat :=
    Int64.toInt_ofInt_of_le (by omega) (by omega)
  obtain ⟨token, valueRead⟩ := integer_eq_ok_iff.mpr ⟨taken, rfl, value.symm ▸ derived⟩
  refine bind_eq_ok_iff.mpr ⟨name, _, identifier_eq_ok_iff.mpr ⟨rfl, named⟩, ?_⟩
  refine bind_eq_ok_iff.mpr ⟨⟨(), opening⟩, _, punctuation_eq_ok_iff.mpr ⟨rfl, encloses⟩, ?_⟩
  refine bind_eq_ok_iff.mpr ⟨_, _, valueRead, ?_⟩
  refine bind_eq_ok_iff.mpr ⟨params, _, arity_eq_ok_iff.mpr ⟨value, rfl⟩, ?_⟩
  refine bind_eq_ok_iff.mpr ⟨⟨(), closing⟩, _, punctuation_eq_ok_iff.mpr ⟨rfl, closes⟩, ?_⟩
  refine bind_eq_ok_iff.mpr ⟨⟨(), arrow⟩, _, punctuation_eq_ok_iff.mpr ⟨rfl, points⟩, ?_⟩
  refine bind_eq_ok_iff.mpr ⟨⟨kind, result⟩, _, valueKind_eq_ok_iff.mpr ⟨rfl, ends⟩, ?_⟩
  exact bind_eq_ok_iff.mpr ⟨⟨(), stop⟩, _, punctuation_eq_ok_iff.mpr ⟨rfl, stops⟩, rfl⟩

private theorem reference_sound (opens : word.terminal = .keyword .reference)
    (read : reference tokens = .ok i rest) :
    ∃ segment, word :: tokens = segment ++ rest ∧ Derives.Item segment i := by
  obtain ⟨name, _, nameRead, read⟩ := bind_eq_ok_iff.mp read
  obtain ⟨stop, _, stopRead, read⟩ := bind_eq_ok_iff.mp read
  obtain ⟨rfl, rfl⟩ := pure_eq_ok_iff.mp read
  obtain ⟨rfl, stops⟩ := punctuation_eq_ok_iff.mp stopRead
  obtain ⟨rfl, named⟩ := identifier_eq_ok_iff.mp nameRead
  exact ⟨[_, _, _], rfl, .reference opens (.identifier named) stops⟩

private theorem call_sound (opens : word.terminal = .keyword .call)
    (read : call tokens = .ok i rest) :
    ∃ segment, word :: tokens = segment ++ rest ∧ Derives.Item segment i := by
  obtain ⟨callee, _, calleeRead, read⟩ := bind_eq_ok_iff.mp read
  obtain ⟨opening, _, openRead, read⟩ := bind_eq_ok_iff.mp read
  obtain ⟨args, _, argsRead, read⟩ := bind_eq_ok_iff.mp read
  obtain ⟨stop, _, stopRead, read⟩ := bind_eq_ok_iff.mp read
  obtain ⟨rfl, rfl⟩ := pure_eq_ok_iff.mp read
  obtain ⟨rfl, stops⟩ := punctuation_eq_ok_iff.mp stopRead
  obtain ⟨taken, closing, rfl, derived, closes⟩ := arguments_eq_ok_iff.mp argsRead
  obtain ⟨rfl, encloses⟩ := punctuation_eq_ok_iff.mp openRead
  obtain ⟨rfl, named⟩ := identifier_eq_ok_iff.mp calleeRead
  exact ⟨_, by simp, .call opens (.identifier named) encloses derived closes stops⟩

private theorem call_complete {opening closing stop : Token} {callee : Located String}
    {args : List (Located String)} (named : callee.token.terminal = .identifier callee.value)
    (encloses : opening.terminal = .lparen) (derived : Derives.Arguments taken args)
    (closes : closing.terminal = .rparen) (stops : stop.terminal = .semicolon) :
    call (callee.token :: opening :: (taken ++ closing :: stop :: rest)) =
      .ok (.call callee args) rest := by
  refine bind_eq_ok_iff.mpr ⟨callee, _, identifier_eq_ok_iff.mpr ⟨rfl, named⟩, ?_⟩
  refine bind_eq_ok_iff.mpr ⟨⟨(), opening⟩, _, punctuation_eq_ok_iff.mpr ⟨rfl, encloses⟩, ?_⟩
  refine bind_eq_ok_iff.mpr
    ⟨args, _, arguments_eq_ok_iff.mpr ⟨taken, closing, rfl, derived, closes⟩, ?_⟩
  exact bind_eq_ok_iff.mpr ⟨⟨(), stop⟩, _, punctuation_eq_ok_iff.mpr ⟨rfl, stops⟩, rfl⟩

/-- Which reader takes an item is settled by its first word. -/
theorem item_dispatch :
    (word.terminal = .keyword .function → item (word :: rest) = functionDeclaration rest) ∧
    (word.terminal = .keyword .reference → item (word :: rest) = reference rest) ∧
    (word.terminal = .keyword .call → item (word :: rest) = call rest) ∧
    ∀ kind : ValueKind, word.terminal = .keyword kind.keyword →
      item (word :: rest) = valueDeclaration (word :: rest) := by
  obtain ⟨terminal, span, line⟩ := word
  refine ⟨?_, ?_, ?_, ?_⟩
  · rintro rfl
    rfl
  · rintro rfl
    rfl
  · rintro rfl
    rfl
  · intro kind
    rintro rfl
    cases kind <;> rfl

/-- What an item is read from derives it. -/
theorem item_sound (read : item tokens = .ok i rest) :
    ∃ segment, tokens = segment ++ rest ∧ Derives.Item segment i := by
  unfold item at read
  split at read
  · exact function_declaration_sound rfl read
  · exact reference_sound rfl read
  · exact call_sound rfl read
  · exact value_declaration_sound read

/-- What derives an item is read as it, whatever follows. -/
theorem item_complete (derived : Derives.Item segment i) (rest : List Token) :
    item (segment ++ rest) = .ok i rest := by
  cases derived with
  | @plain word t stop _ name _ opens declares named stops =>
    obtain ⟨kind, rfl, rfl⟩ := Derives.declares_iff.mp declares
    obtain ⟨rfl, named⟩ := name_iff.mp named
    exact (item_dispatch.2.2.2 kind opens).trans
      (value_declaration_complete opens named .absent stops)
  | @initialized word t equal stop _ name tokens value _ opens initializes named assigns literal
      stops =>
    obtain ⟨kind, rfl, admitted, rfl⟩ := Derives.initializes_iff.mp initializes
    obtain ⟨rfl, named⟩ := name_iff.mp named
    simp only [List.cons_append, List.append_assoc, List.nil_append]
    exact (item_dispatch.2.2.2 kind opens).trans
      (value_declaration_complete opens named (.present assigns literal admitted) stops)
  | function opens named encloses integer closes points ends names stops =>
    obtain ⟨kind, rfl, rfl⟩ := Derives.valueWord_iff.mp names
    obtain ⟨rfl, named⟩ := name_iff.mp named
    simp only [List.cons_append, List.append_assoc, List.nil_append]
    exact (item_dispatch.1 opens).trans
      (function_declaration_complete named encloses integer closes points ends stops)
  | @reference word t stop name opens named stops =>
    obtain ⟨rfl, named⟩ := name_iff.mp named
    refine (item_dispatch.2.1 opens).trans ?_
    refine bind_eq_ok_iff.mpr ⟨name, _, identifier_eq_ok_iff.mpr ⟨rfl, named⟩, ?_⟩
    exact bind_eq_ok_iff.mpr ⟨⟨(), stop⟩, _, punctuation_eq_ok_iff.mpr ⟨rfl, stops⟩, rfl⟩
  | call opens named encloses arguments closes stops =>
    obtain ⟨rfl, named⟩ := name_iff.mp named
    simp only [List.cons_append, List.append_assoc, List.nil_append]
    exact (item_dispatch.2.2.1 opens).trans
      (call_complete named encloses arguments closes stops)

theorem integer_tokens {value : Int} (derived : Derives.Integer taken value) :
    ∀ t ∈ taken, t.terminal ≠ .eof := by
  cases derived with
  | plain digits => simp [digits]
  | negated minus digits => simp [minus, digits]

theorem literal_tokens {value : Literal} (derived : Derives.Literal taken value) :
    ∀ t ∈ taken, t.terminal ≠ .eof := by
  cases derived with
  | integer derived => exact integer_tokens derived
  | string quoted => simp [quoted]

theorem names_tokens {found : List (Located String)} (derived : Derives.Names taken found) :
    ∀ t ∈ taken, t.terminal ≠ .eof := by
  induction derived with
  | last named => simp [(name_iff.mp named).2]
  | more named separates _ ih => simpa [(name_iff.mp named).2, separates] using ih

theorem arguments_tokens {found : List (Located String)}
    (derived : Derives.Arguments taken found) : ∀ t ∈ taken, t.terminal ≠ .eof := by
  cases derived with
  | none => simp
  | some derived => exact names_tokens derived

/-- No token of an item is the end of the text. -/
theorem item_tokens (derived : Derives.Item segment i) : ∀ t ∈ segment, t.terminal ≠ .eof := by
  cases derived with
  | plain opens _ named stops => simp [opens, (name_iff.mp named).2, stops]
  | initialized opens _ named assigns literal stops =>
    simpa [opens, (name_iff.mp named).2, assigns, stops, or_imp, forall_and]
      using literal_tokens literal
  | function opens named encloses integer closes points ends _ stops =>
    simpa [opens, (name_iff.mp named).2, encloses, closes, points, ends, stops, or_imp, forall_and]
      using integer_tokens integer
  | reference opens named stops => simp [opens, (name_iff.mp named).2, stops]
  | call opens named encloses arguments closes stops =>
    simpa [opens, (name_iff.mp named).2, encloses, closes, stops, or_imp, forall_and]
      using arguments_tokens arguments

/-- The tokens before the first that is the end of the text. -/
def beforeEnd (tokens : List Token) : List Token :=
  tokens.takeWhile (·.terminal ≠ .eof)

private theorem before_end_append (plain : ∀ t ∈ segment, t.terminal ≠ .eof) :
    beforeEnd (segment ++ rest) = segment ++ beforeEnd rest := by
  exact List.takeWhile_append_of_pos fun t member => by simpa using plain t member

/-- A listing that is read is derived by the tokens before the end. -/
theorem listing_sound {items : Listing} (read : listing tokens = .ok items rest) :
    Derives.Listing (beforeEnd tokens) items := by
  fun_induction listing tokens generalizing items with
  | case1 =>
    cases read
    exact .nothing
  | case2 t tail ends =>
    cases read
    simpa [beforeEnd, ends] using Derives.Listing.nothing
  | case3 => cases read
  | case4 => cases read
  | case5 t tail more i after step found last inner ih =>
    cases read
    obtain ⟨segment, split, derived⟩ := item_sound step
    rw [split, before_end_append (item_tokens derived)]
    exact .item derived (ih inner)

private theorem listing_end (ends : beforeEnd tokens = []) : ∃ rest, listing tokens = .ok [] rest := by
  cases tokens with
  | nil => exact ⟨[], by rw [listing]⟩
  | cons t tail =>
    by_cases eof : t.terminal = .eof
    · exact ⟨tail, by rw [listing, if_pos eof]⟩
    · simp [beforeEnd, eof] at ends

/-- The tokens of an item are read as it, and then the others. -/
theorem listing_item (derived : Derives.Item segment i) (rest : List Token) :
    listing (segment ++ rest) = ((i :: ·) <$> listing : Reader Listing) rest := by
  have step := item_complete derived rest
  have plain := item_tokens derived
  have shorter := length_item_lt step
  cases segment with
  | nil => simp at shorter
  | cons t tail =>
    rw [List.cons_append] at step ⊢
    rw [listing_cons (plain t (by simp))]
    simp only [Bind.bind, EStateM.bind, step]

/-- An item that is at fault is at fault as the first of a listing. -/
theorem listing_fails {fault : Fault} (goes : token.terminal ≠ .eof)
    (failed : item (token :: tokens) = .error fault rest) :
    listing (token :: tokens) = .error fault rest :=
  (listing_cons goes).trans (bind_eq_error_iff.mpr (.inl failed))

/-- The tokens of a listing are read as its items, and then the others. -/
theorem listing_segment {items : Listing} (derived : Derives.Listing segment items)
    (rest : List Token) :
    listing (segment ++ rest) = ((items ++ ·) <$> listing : Reader Listing) rest := by
  induction derived with
  | nothing =>
    simp only [Functor.map, EStateM.map, List.nil_append]
    cases listing rest <;> rfl
  | item derived _ ih =>
    rw [List.append_assoc, listing_item derived]
    simp only [Functor.map, EStateM.map] at ih ⊢
    rw [ih]
    cases listing rest <;> rfl

/-- What derives a listing up to the end is read as it. -/
theorem listing_complete {items : Listing} (derived : Derives.Listing (beforeEnd tokens) items) :
    ∃ rest, listing tokens = .ok items rest := by
  generalize front : beforeEnd tokens = p at derived
  induction derived generalizing tokens with
  | nothing => exact listing_end front
  | @item first more i items derived _ ih =>
    have split : tokens = first ++ (more ++ tokens.dropWhile (·.terminal ≠ .eof)) := by
      rw [← List.append_assoc, ← front, beforeEnd, List.takeWhile_append_dropWhile]
    rw [split, before_end_append (item_tokens derived)] at front
    obtain ⟨rest, read⟩ := ih (List.append_cancel_left front)
    refine ⟨rest, ?_⟩
    rw [split, listing_item derived]
    exact map_eq_ok_iff.mpr ⟨items, read, rfl⟩

/-- The tokens part into segments, each of which derives the item of its
place. -/
def Segmented (tokens : List Token) (segments : List (List Token)) (items : Listing) : Prop :=
  segments.flatten = tokens ∧ List.Forall₂ Derives.Item segments items

theorem derives_iff_segmented {items : Listing} :
    Derives.Listing tokens items ↔ ∃ segments, Segmented tokens segments items := by
  constructor
  · intro derived
    induction derived with
    | nothing => exact ⟨[], rfl, .nil⟩
    | @item first _ _ _ derived _ ih =>
      obtain ⟨segments, rfl, all⟩ := ih
      exact ⟨first :: segments, rfl, .cons derived all⟩
  · rintro ⟨segments, rfl, all⟩
    induction all with
    | nil => exact .nothing
    | cons derived _ ih => exact .item derived ih

private theorem item_nonempty (derived : Derives.Item segment i) : segment ≠ [] := by
  rintro rfl
  simpa using length_item_lt (item_complete derived [])

/-- No item starts with the tokens of another. -/
private theorem first_unique {first first' : List Token} {j : Item} {rest' : List Token}
    (derived : Derives.Item first i) (derived' : Derives.Item first' j)
    (same : first ++ rest = first' ++ rest') : first = first' ∧ i = j ∧ rest = rest' := by
  have read := item_complete derived rest
  rw [same, item_complete derived' rest'] at read
  obtain ⟨items, rests⟩ := EStateM.Result.ok.inj read
  subst rests
  exact ⟨List.append_cancel_right same, items.symm, rfl⟩

/-- Tokens part into items in one way, and into one list of items. -/
theorem segmented_unique {segments segments' : List (List Token)} {items items' : Listing}
    (parts : Segmented tokens segments items) (parts' : Segmented tokens segments' items') :
    segments = segments' ∧ items = items' := by
  obtain ⟨rfl, all⟩ := parts
  obtain ⟨same, all'⟩ := parts'
  induction all generalizing segments' items' with
  | nil =>
    cases all' with
    | nil => exact ⟨rfl, rfl⟩
    | cons derived _ => exact (item_nonempty derived (List.append_eq_nil_iff.mp same).1).elim
  | cons derived _ ih =>
    cases all' with
    | nil => exact (item_nonempty derived (List.append_eq_nil_iff.mp same.symm).1).elim
    | cons derived' all' =>
      obtain ⟨rfl, rfl, rest⟩ := first_unique derived derived' same.symm
      obtain ⟨rfl, rfl⟩ := ih rest.symm all'
      exact ⟨rfl, rfl⟩

/-! ## Readings -/

/-- A reading comes to items exactly where the reader does. -/
theorem read_eq_items_iff {text : List Char} {items : Listing} :
    Listing.read text tokens = .items items ↔ ∃ rest, listing tokens = .ok items rest := by
  unfold Listing.read
  cases listing tokens with
  | ok found rest => simp [Reading.ofRead]
  | error fault rest =>
    simp only [Reading.ofRead, reduceCtorEq, exists_false, iff_false]
    split <;> simp

/-- A reading is rejected exactly where the reader fails with a fault that can be
worded. -/
theorem read_eq_rejected_iff {text : List Char} {e : Located SyntaxError} :
    Listing.read text tokens = .rejected e ↔
      ∃ fault rest, listing tokens = .error fault rest ∧ fault.inText? text = some e := by
  unfold Listing.read
  cases listing tokens with
  | ok => simp [Reading.ofRead]
  | error fault rest =>
    simp only [Reading.ofRead]
    split <;> simp_all

/-- Tokens are read as items exactly when those before the end of the text part
into segments that derive these items, in order; and they part in one way. -/
theorem listing_exact (text : List Char) (tokens : List Token) :
    (∀ items, Listing.read text tokens = .items items ↔
      ∃ segments, Segmented (beforeEnd tokens) segments items) ∧
    ∀ segments items segments' items', Segmented (beforeEnd tokens) segments items →
      Segmented (beforeEnd tokens) segments' items' → segments = segments' ∧ items = items' := by
  constructor
  · intro items
    rw [read_eq_items_iff, ← derives_iff_segmented]
    constructor
    · rintro ⟨rest, read⟩
      exact listing_sound read
    · exact listing_complete
  · intro segments items segments' items' parts parts'
    exact segmented_unique parts parts'

/-- All forms of items, with a negative number and a string as initializers and a negated
zero as a number of parameters; what stands behind the end is not read. An integer is not
declared with a string, and nothing undefined with an integer. -/
theorem literals_read :
    let token (terminal : Terminal) : Token := ⟨terminal, ⟨0, 0⟩, 1⟩
    let name (word : String) : Located String := ⟨word, token (.identifier word)⟩
    let tokens := [.keyword .int, .identifier "x", .equal, .minus, .integer 5, .semicolon,
      .keyword .str, .identifier "s", .equal, .string "a", .semicolon,
      .keyword .intOrStr, .identifier "m", .equal, .integer 7, .semicolon,
      .keyword .intOrStr, .identifier "n", .equal, .string "b", .semicolon,
      .keyword .undefined, .identifier "u", .semicolon,
      .keyword .function, .identifier "f", .lparen, .minus, .integer 0, .rparen, .arrow,
        .keyword .str, .semicolon,
      .keyword .reference, .identifier "x", .semicolon,
      .keyword .call, .identifier "f", .lparen, .identifier "x", .comma, .identifier "s", .rparen,
        .semicolon, .eof, .error].map token
    let items : Listing := [
      .declaration (name "x") { type := .int, intVal := -5, strVal := "" },
      .declaration (name "s") { type := .str, intVal := 0, strVal := "a" },
      .declaration (name "m") { type := .intOrStr, intVal := 7, strVal := "" },
      .declaration (name "n") { type := .intOrStr, intVal := 0, strVal := "b" },
      .declaration (name "u") { type := .undefined, intVal := 0, strVal := "" },
      .declaration (name "f") { type := .function 0 .str, intVal := 0, strVal := "" },
      .reference (name "x"), .call (name "f") [name "x", name "s"]]
    Listing.read [] tokens = .items items ∧
      (∃ segments, Segmented (beforeEnd tokens) segments items) ∧
      ∀ refused ∈ [(Keyword.int, Terminal.string "a"), (.undefined, .integer 5)],
        let others := [.keyword refused.1, .identifier "x", .equal, refused.2, .semicolon].map token
        ¬ ∃ segments items, Segmented (beforeEnd others) segments items := by
  intro token name tokens items
  have read : Listing.read [] tokens = .items items := by decide +kernel
  refine ⟨read, ((listing_exact [] tokens).1 items).mp read, ?_⟩
  rintro refused listed others ⟨segments, found, parts⟩
  have accepted := ((listing_exact [] others).1 found).mpr ⟨segments, parts⟩
  simp only [List.mem_cons, List.not_mem_nil, or_false] at listed
  rcases listed with rfl | rfl
  · have mismatch : Listing.read [] others =
        .rejected ⟨.literal (.kindMismatch .int .string), token (.string "a")⟩ := by decide +kernel
    cases mismatch.symm.trans accepted
  · have mismatch : Listing.read [] others =
        .rejected ⟨.literal (.kindMismatch .undefined .integer), token (.integer 5)⟩ := by
      decide +kernel
    cases mismatch.symm.trans accepted

end DeclListing.ListingGrammarExactness
