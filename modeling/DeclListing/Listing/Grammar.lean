import DeclListing.Listing.Item

/-!
The grammar of listings, said of tokens and without the readers. A derivation
gives the items with the tokens of their names and the values of their
literals; the limits on integers are part of it, because the value of a literal
is a 64-bit integer and an arity a 16-bit one. What each word for a kind declares,
alone and with which literals, is spelled out here.

`Shape` is the same grammar over terminals alone, without any condition on
values: any literal may follow an equals sign and any integer may be an arity.

`valueWord_iff`, `declares_iff` and `initializes_iff` hold the tables of the value
kinds, which the readers go by, against those of the grammar.
-/

namespace DeclListing

namespace Derives

/-- The tokens of an integer: digits, or a minus sign and digits. -/
inductive Integer : List Token → Int → Prop where
  | plain {t : Token} {magnitude : UInt64} :
      t.terminal = .integer magnitude → Integer [t] magnitude.toNat
  | negated {sign t : Token} {magnitude : UInt64} :
      sign.terminal = .minus → t.terminal = .integer magnitude →
      Integer [sign, t] (-magnitude.toNat)

/-- The tokens of a literal. -/
inductive Literal : List Token → DeclListing.Literal → Prop where
  | integer {tokens : List Token} {value : Int64} :
      Integer tokens value.toInt → Literal tokens (.integer value)
  | string {t : Token} {value : String} :
      t.terminal = .string value → Literal [t] (.string value)

/-- The token of a name. -/
inductive Name : Token → Located String → Prop where
  | identifier {t : Token} {name : String} :
      t.terminal = .identifier name → Name t ⟨name, t⟩

/-- One name or more, with commas between them. -/
inductive Names : List Token → List (Located String) → Prop where
  | last {t : Token} {name : Located String} : Name t name → Names [t] [name]
  | more {t comma : Token} {name : Located String} {tokens : List Token}
      {names : List (Located String)} :
      Name t name → comma.terminal = .comma → Names tokens names →
      Names (t :: comma :: tokens) (name :: names)

/-- The arguments of a call. -/
inductive Arguments : List Token → List (Located String) → Prop where
  | none : Arguments [] []
  | some {tokens : List Token} {names : List (Located String)} :
      Names tokens names → Arguments tokens names

/-- The words for the kinds of values. -/
inductive ValueWord : Keyword → Kind → Prop where
  | int : ValueWord .int .int
  | str : ValueWord .str .str
  | intOrStr : ValueWord .intOrStr .intOrStr
  | undefined : ValueWord .undefined .undefined

/-- What a word declares without an initializer. -/
inductive Declares : Keyword → SymbolInfo → Prop where
  | int : Declares .int { type := .int, intVal := 0, strVal := "" }
  | str : Declares .str { type := .str, intVal := 0, strVal := "" }
  | intOrStr : Declares .intOrStr { type := .intOrStr, intVal := 0, strVal := "" }
  | undefined : Declares .undefined { type := .undefined, intVal := 0, strVal := "" }

/-- What a word declares with an initializer, if it can have that one. -/
inductive Initializes : Keyword → DeclListing.Literal → SymbolInfo → Prop where
  | int (value : Int64) :
      Initializes .int (.integer value) { type := .int, intVal := value, strVal := "" }
  | str (value : String) :
      Initializes .str (.string value) { type := .str, intVal := 0, strVal := value }
  | integerOrStr (value : Int64) :
      Initializes .intOrStr (.integer value) { type := .intOrStr, intVal := value, strVal := "" }
  | intOrString (value : String) :
      Initializes .intOrStr (.string value) { type := .intOrStr, intVal := 0, strVal := value }

/-- The tokens of an item. -/
inductive Item : List Token → DeclListing.Item → Prop where
  | plain {word t stop : Token} {kind : Keyword} {name : Located String} {info : SymbolInfo} :
      word.terminal = .keyword kind → Declares kind info → Name t name →
      stop.terminal = .semicolon → Item [word, t, stop] (.declaration name info)
  | initialized {word t equal stop : Token} {kind : Keyword} {name : Located String}
      {tokens : List Token} {value : DeclListing.Literal} {info : SymbolInfo} :
      word.terminal = .keyword kind → Initializes kind value info → Name t name →
      equal.terminal = .equal → Literal tokens value → stop.terminal = .semicolon →
      Item (word :: t :: equal :: (tokens ++ [stop])) (.declaration name info)
  | function {word t opening closing arrow result stop : Token} {name : Located String}
      {tokens : List Token} {params : UInt16} {kind : Keyword} {returned : Kind} :
      word.terminal = .keyword .function → Name t name → opening.terminal = .lparen →
      Integer tokens params.toNat → closing.terminal = .rparen → arrow.terminal = .arrow →
      result.terminal = .keyword kind → ValueWord kind returned → stop.terminal = .semicolon →
      Item (word :: t :: opening :: (tokens ++ [closing, arrow, result, stop]))
        (.declaration name { type := .function params returned, intVal := 0, strVal := "" })
  | reference {word t stop : Token} {name : Located String} :
      word.terminal = .keyword .reference → Name t name → stop.terminal = .semicolon →
      Item [word, t, stop] (.reference name)
  | call {word t opening closing stop : Token} {callee : Located String} {tokens : List Token}
      {args : List (Located String)} :
      word.terminal = .keyword .call → Name t callee → opening.terminal = .lparen →
      Arguments tokens args → closing.terminal = .rparen → stop.terminal = .semicolon →
      Item (word :: t :: opening :: (tokens ++ [closing, stop])) (.call callee args)

/-- The tokens of a listing: those of its items, in order. -/
inductive Listing : List Token → DeclListing.Listing → Prop where
  | nothing : Listing [] []
  | item {first rest : List Token} {i : DeclListing.Item} {items : DeclListing.Listing} :
      Item first i → Listing rest items → Listing (first ++ rest) (i :: items)

variable {word : Keyword} {literal : DeclListing.Literal} {info : SymbolInfo}

theorem ValueWord.of_kind (kind : ValueKind) : ValueWord kind.keyword kind.kind := by
  cases kind <;> constructor

theorem Declares.of_kind (kind : ValueKind) : Declares kind.keyword kind.info := by
  cases kind <;> constructor

theorem Initializes.of_kind {kind : ValueKind} (admitted : kind.admits literal.sort = true) :
    Initializes kind.keyword literal (kind.infoWith literal) := by
  cases kind <;> cases literal <;> first | constructor | cases admitted

theorem valueWord_iff {returned : Kind} :
    ValueWord word returned ↔ ∃ kind : ValueKind, word = kind.keyword ∧ returned = kind.kind := by
  constructor
  · intro names
    cases names with
    | int => exact ⟨.int, rfl, rfl⟩
    | str => exact ⟨.str, rfl, rfl⟩
    | intOrStr => exact ⟨.intOrStr, rfl, rfl⟩
    | undefined => exact ⟨.undefined, rfl, rfl⟩
  · rintro ⟨kind, rfl, rfl⟩
    exact .of_kind kind

theorem declares_iff :
    Declares word info ↔ ∃ kind : ValueKind, word = kind.keyword ∧ info = kind.info := by
  constructor
  · intro declares
    cases declares with
    | int => exact ⟨.int, rfl, rfl⟩
    | str => exact ⟨.str, rfl, rfl⟩
    | intOrStr => exact ⟨.intOrStr, rfl, rfl⟩
    | undefined => exact ⟨.undefined, rfl, rfl⟩
  · rintro ⟨kind, rfl, rfl⟩
    exact .of_kind kind

theorem initializes_iff :
    Initializes word literal info ↔ ∃ kind : ValueKind,
      word = kind.keyword ∧ kind.admits literal.sort = true ∧ info = kind.infoWith literal := by
  constructor
  · intro initializes
    cases initializes with
    | int => exact ⟨.int, rfl, rfl, rfl⟩
    | str => exact ⟨.str, rfl, rfl, rfl⟩
    | integerOrStr | intOrString => exact ⟨.intOrStr, rfl, rfl, rfl⟩
  · rintro ⟨kind, rfl, admitted, rfl⟩
    exact .of_kind admitted

end Derives

/-! ## Shapes -/

namespace Shape

/-- The terminals of an integer. -/
inductive Integer : List Terminal → Prop where
  | plain (magnitude : UInt64) : Integer [.integer magnitude]
  | negated (magnitude : UInt64) : Integer [.minus, .integer magnitude]

/-- The terminals of a literal. -/
inductive Literal : List Terminal → Prop where
  | integer {terminals : List Terminal} : Integer terminals → Literal terminals
  | string (value : String) : Literal [.string value]

/-- One name or more, with commas between them. -/
inductive Names : List Terminal → Prop where
  | last (name : String) : Names [.identifier name]
  | more (name : String) {terminals : List Terminal} :
      Names terminals → Names (.identifier name :: .comma :: terminals)

/-- The terminals of an item. -/
inductive Item : List Terminal → Prop where
  | plain {word : Keyword} {kind : Kind} (name : String) :
      Derives.ValueWord word kind → Item [.keyword word, .identifier name, .semicolon]
  | initialized {word : Keyword} {kind : Kind} (name : String) {value : List Terminal} :
      Derives.ValueWord word kind → Literal value →
      Item (.keyword word :: .identifier name :: .equal :: (value ++ [.semicolon]))
  | function (name : String) {arity : List Terminal} {word : Keyword} {kind : Kind} :
      Integer arity → Derives.ValueWord word kind →
      Item (.keyword .function :: .identifier name :: .lparen ::
        (arity ++ [.rparen, .arrow, .keyword word, .semicolon]))
  | reference (name : String) : Item [.keyword .reference, .identifier name, .semicolon]
  | call (callee : String) {args : List Terminal} :
      args = [] ∨ Names args →
      Item (.keyword .call :: .identifier callee :: .lparen :: (args ++ [.rparen, .semicolon]))

/-- The terminals of a listing. -/
inductive Listing : List Terminal → Prop where
  | nothing : Listing []
  | item {first rest : List Terminal} : Item first → Listing rest → Listing (first ++ rest)

end Shape

end DeclListing
