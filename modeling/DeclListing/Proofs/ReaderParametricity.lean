import Mathlib.Data.List.Forall2
import DeclListing.Listing.Reader

/-! Readers look at the terminals of tokens and only carry along where the tokens
stand. So two lists of tokens that correspond one to one, with the same terminals,
are read alike: both to the same items, at corresponding tokens, or both to the
same fault. What corresponds is left open but for two clauses; a reader makes no
tokens but that of a sign with its digits. -/
namespace DeclListing.ReaderParametricity
open Reader

variable {α β γ δ : Type}

/-- A relation between tokens that readers cannot break: it keeps terminals, and
it goes over to the token of a sign with its digits. -/
structure Correspondence where
  /-- The tokens that correspond. -/
  Tokens : Token → Token → Prop
  /-- They have one terminal. -/
  terminal : ∀ {t u}, Tokens t u → t.terminal = u.terminal
  /-- So do signed integers, if signs and digits do. -/
  signed : ∀ {sign t minus u}, Tokens sign minus → Tokens t u →
    Tokens { t with span := ⟨sign.span.start, t.span.stop⟩ }
      { u with span := ⟨minus.span.start, u.span.stop⟩ }

namespace Correspondence

variable {C : Correspondence}

/-- The same value, at tokens that correspond. -/
structure SameLocated (C : Correspondence) (x y : Located α) : Prop where
  /-- The values are equal. -/
  value : x.value = y.value
  /-- The tokens correspond. -/
  token : C.Tokens x.token y.token

/-- Items that say the same, with names at tokens that correspond. -/
inductive SameItem (C : Correspondence) : Item → Item → Prop where
  | declaration {name other : Located String} (info : SymbolInfo) :
      C.SameLocated name other → SameItem C (.declaration name info) (.declaration other info)
  | reference {name other : Located String} :
      C.SameLocated name other → SameItem C (.reference name) (.reference other)
  | call {callee other : Located String} {args others : List (Located String)} :
      C.SameLocated callee other → List.Forall₂ C.SameLocated args others →
      SameItem C (.call callee args) (.call other others)

/-- Faults of one kind, about tokens that correspond. -/
inductive SameFault (C : Correspondence) : Fault → Fault → Prop where
  | missing (what : Expectation) :
      SameFault C (.unexpected what none) (.unexpected what none)
  | found (what : Expectation) {t u : Token} :
      C.Tokens t u → SameFault C (.unexpected what (some t)) (.unexpected what (some u))
  | refused {e f : Located LiteralError} :
      C.SameLocated e f → SameFault C (.refused e) (.refused f)

/-- Outcomes that agree: corresponding tokens are left, and there are values
related by `V` or faults of one kind. -/
inductive SameRead (C : Correspondence) (V : α → β → Prop) : Read α → Read β → Prop where
  | ok {a : α} {b : β} {rest others : List Token} :
      V a b → List.Forall₂ C.Tokens rest others → SameRead C V (.ok a rest) (.ok b others)
  | error {fault other : Fault} {rest others : List Token} :
      C.SameFault fault other → List.Forall₂ C.Tokens rest others →
      SameRead C V (.error fault rest) (.error other others)

/-- Two readers that agree on any tokens that correspond. -/
def Alike (C : Correspondence) (V : α → β → Prop) (r : Reader α) (s : Reader β) : Prop :=
  ∀ tokens others, List.Forall₂ C.Tokens tokens others → C.SameRead V (r tokens) (s others)

theorem Alike.bind {V : α → β → Prop} {W : γ → δ → Prop} {r : Reader α} {s : Reader β}
    {f : α → Reader γ} {g : β → Reader δ} (first : C.Alike V r s)
    (next : ∀ a b, V a b → C.Alike W (f a) (g b)) : C.Alike W (r >>= f) (s >>= g) := by
  intro tokens others same
  have reads := first _ _ same
  simp only [Bind.bind, EStateM.bind]
  generalize r tokens = read, s others = other at reads ⊢
  cases reads with
  | ok values rest => exact next _ _ values _ _ rest
  | error faults rest => exact .error faults rest

theorem alike_pure {V : α → β → Prop} {a : α} {b : β} (values : V a b) :
    C.Alike V (pure a) (pure b) := by
  intro tokens others same
  exact .ok values same

theorem Alike.map {V : α → β → Prop} {W : γ → δ → Prop} {r : Reader α} {s : Reader β}
    {f : α → γ} {g : β → δ} (inner : C.Alike V r s) (related : ∀ a b, V a b → W (f a) (g b)) :
    C.Alike W (f <$> r) (g <$> s) := by
  intro tokens others same
  have reads := inner _ _ same
  simp only [Functor.map, EStateM.map]
  generalize r tokens = read, s others = other at reads ⊢
  cases reads with
  | ok values rest => exact .ok (related _ _ values) rest
  | error faults rest => exact .error faults rest

theorem alike_throw {V : α → β → Prop} {fault other : Fault} (faults : C.SameFault fault other) :
    C.Alike V (throw fault) (throw other) := by
  intro tokens others same
  exact .error faults same

/-- Lists that correspond are empty or start with tokens of one terminal. -/
theorem token_cases
    {motive : ∀ tokens others, List.Forall₂ C.Tokens tokens others → Prop}
    (nil : motive [] [] .nil)
    (cons : ∀ (terminal) {span line span' line' tokens others}
      (head : C.Tokens ⟨terminal, span, line⟩ ⟨terminal, span', line'⟩)
      (tail : List.Forall₂ C.Tokens tokens others),
      motive (⟨terminal, span, line⟩ :: tokens) (⟨terminal, span', line'⟩ :: others)
        (.cons head tail))
    {tokens others : List Token} (same : List.Forall₂ C.Tokens tokens others) :
    motive tokens others same := by
  cases same with
  | nil => exact nil
  | @cons t u _ _ head tail =>
    obtain ⟨terminal, span, line⟩ := t
    obtain ⟨_, span', line'⟩ := u
    obtain rfl := C.terminal head
    exact cons terminal head tail

end Correspondence

open Correspondence

variable {C : Correspondence}

theorem take_alike (what : Expectation) (value? : Terminal → Option α) :
    C.Alike C.SameLocated (take what value?) (take what value?) := by
  intro tokens others same
  cases same with
  | nil => exact .error (.missing what) .nil
  | cons head tail =>
    simp only [take, ← C.terminal head]
    split
    · exact .ok ⟨rfl, head⟩ tail
    · exact .error (.found what head) tail

theorem punctuation_alike (what : Expectation) (terminal : Terminal) :
    C.Alike C.SameLocated (punctuation what terminal) (punctuation what terminal) :=
  take_alike what _

theorem identifier_alike : C.Alike C.SameLocated identifier identifier :=
  take_alike .identifier _

theorem valueKind_alike : C.Alike C.SameLocated valueKind valueKind :=
  take_alike .valueKind _

theorem fitted_alike (value : Int) {t u : Token} (same : C.Tokens t u) :
    C.Alike C.SameLocated (fitted value t) (fitted value u) := by
  intro tokens others rest
  unfold fitted
  split
  · exact .ok ⟨rfl, same⟩ rest
  · exact .error (.refused ⟨rfl, same⟩) rest

/-- A sign is looked at together with the token behind it. -/
theorem integer_alike : C.Alike C.SameLocated integer integer := by
  intro tokens others same
  cases same using token_cases with
  | nil => exact .error (.missing .integer) .nil
  | cons terminal head tail =>
    cases terminal with
    | integer value => exact fitted_alike _ head _ _ tail
    | minus =>
      cases tail using token_cases with
      | nil => exact .error (.found .integer head) .nil
      | cons terminal next tail =>
        cases terminal with
        | integer value => exact fitted_alike _ (C.signed head next) _ _ tail
        | _ => exact .error (.found .integer head) (.cons next tail)
    | _ => exact .error (.found .integer head) tail

theorem literal_alike : C.Alike C.SameLocated literal literal := by
  have digits : C.Alike C.SameLocated (Located.map Literal.integer <$> integer)
      (Located.map Literal.integer <$> integer) :=
    integer_alike.map fun _ _ same => ⟨congrArg Literal.integer same.value, same.token⟩
  intro tokens others same
  cases same using token_cases with
  | nil => exact digits _ _ .nil
  | cons terminal head tail =>
    cases terminal with
    | string value => exact .ok ⟨rfl, head⟩ tail
    | _ => exact digits _ _ (.cons head tail)

theorem arity_alike {value other : Located Int64} (same : C.SameLocated value other) :
    C.Alike Eq (arity value) (arity other) := by
  unfold arity
  rw [same.value]
  split
  · exact alike_throw (.refused ⟨rfl, same.token⟩)
  · split
    · exact alike_throw (.refused ⟨rfl, same.token⟩)
    · exact alike_pure rfl

theorem initializer_alike (kind : ValueKind) :
    C.Alike Eq (initializer kind) (initializer kind) := by
  intro tokens others same
  cases same using token_cases with
  | nil => exact .ok rfl .nil
  | cons terminal head tail =>
    cases terminal with
    | equal =>
      refine literal_alike.bind (fun value other same => ?_) _ _ tail
      rw [same.value]
      split
      · exact alike_pure rfl
      · exact alike_throw (.refused ⟨rfl, same.token⟩)
    | _ => exact .ok rfl (.cons head tail)

theorem value_declaration_alike : C.Alike C.SameItem valueDeclaration valueDeclaration := by
  refine valueKind_alike.bind fun kind _ sameKind => identifier_alike.bind fun _ _ sameName => ?_
  rw [← sameKind.value]
  refine (initializer_alike kind.value).bind fun info _ sameInfo => ?_
  subst sameInfo
  exact (punctuation_alike _ _).bind fun _ _ _ => alike_pure (.declaration info sameName)

theorem function_declaration_alike :
    C.Alike C.SameItem functionDeclaration functionDeclaration := by
  refine identifier_alike.bind fun _ _ sameName => (punctuation_alike _ _).bind fun _ _ _ =>
    integer_alike.bind fun _ _ sameValue =>
      (arity_alike sameValue).bind fun params _ sameParams => ?_
  subst sameParams
  refine (punctuation_alike _ _).bind fun _ _ _ => (punctuation_alike _ _).bind fun _ _ _ =>
    valueKind_alike.bind fun result _ sameResult => ?_
  rw [← sameResult.value]
  exact (punctuation_alike _ _).bind fun _ _ _ => alike_pure (.declaration _ sameName)

theorem reference_alike : C.Alike C.SameItem reference reference :=
  identifier_alike.bind fun _ _ sameName => (punctuation_alike _ _).bind fun _ _ _ =>
    alike_pure (.reference sameName)

/-- Names are read in step: a comma in one list is one in the other. -/
theorem names_alike : ∀ tokens others : List Token, List.Forall₂ C.Tokens tokens others →
    C.SameRead (List.Forall₂ C.SameLocated) (names tokens) (names others)
  | _, _, .nil => .error (.missing .identifier) .nil
  | ⟨terminal, _, _⟩ :: _, ⟨_, _, _⟩ :: _, .cons head tail => by
    obtain rfl := C.terminal head
    cases terminal with
    | identifier name =>
      cases tail using token_cases with
      | nil => exact .ok (.cons ⟨rfl, head⟩ .nil) .nil
      | @cons terminal _ _ _ _ tokens others next tail =>
        cases terminal with
        | comma =>
          have later := names_alike _ _ tail
          simp only [names]
          generalize names tokens = read, names others = other at later ⊢
          cases later with
          | ok sameMore sameRest => exact .ok (.cons ⟨rfl, head⟩ sameMore) sameRest
          | error faults sameRest => exact .error faults sameRest
        | _ => exact .ok (.cons ⟨rfl, head⟩ .nil) (.cons next tail)
    | _ => exact .error (.found .identifier head) tail

theorem arguments_alike : C.Alike (List.Forall₂ C.SameLocated) arguments arguments := by
  have listed : C.Alike (List.Forall₂ C.SameLocated)
      ((names : Reader (List (Located String))) >>= fun args =>
        punctuation .rparen .rparen >>= fun _ => pure args)
      ((names : Reader (List (Located String))) >>= fun args =>
        punctuation .rparen .rparen >>= fun _ => pure args) :=
    Alike.bind names_alike fun _ _ sameArgs => (punctuation_alike _ _).bind fun _ _ _ =>
      alike_pure sameArgs
  intro tokens others same
  cases same using token_cases with
  | nil => exact listed _ _ .nil
  | cons terminal head tail =>
    cases terminal with
    | rparen => exact .ok .nil tail
    | _ => exact listed _ _ (.cons head tail)

theorem call_alike : C.Alike C.SameItem call call :=
  identifier_alike.bind fun _ _ sameCallee => (punctuation_alike _ _).bind fun _ _ _ =>
    arguments_alike.bind fun _ _ sameArgs => (punctuation_alike _ _).bind fun _ _ _ =>
      alike_pure (.call sameCallee sameArgs)

/-- The first word is the same, so one reader takes both items. -/
theorem item_alike : C.Alike C.SameItem item item := by
  intro tokens others same
  cases same using token_cases with
  | nil => exact value_declaration_alike _ _ .nil
  | cons terminal head tail =>
    cases terminal with
    | keyword word =>
      cases word with
      | function => exact function_declaration_alike _ _ tail
      | reference => exact reference_alike _ _ tail
      | call => exact call_alike _ _ tail
      | _ => exact value_declaration_alike _ _ (.cons head tail)
    | _ => exact value_declaration_alike _ _ (.cons head tail)

/-- Tokens that correspond are read as listings that say the same, or refused
with the same fault at corresponding tokens. -/
theorem listing_alike {tokens others : List Token} (same : List.Forall₂ C.Tokens tokens others) :
    C.SameRead (List.Forall₂ C.SameItem) (listing tokens) (listing others) := by
  -- On the number of tokens: what an item leaves is shorter, in both lists alike.
  induction length : tokens.length using Nat.strongRecOn generalizing tokens others with
  | ind size ih =>
    cases same with
    | nil =>
      rw [listing]
      exact .ok .nil .nil
    | @cons t u tokens others head tail =>
      have terminal := C.terminal head
      by_cases ends : t.terminal = .eof
      · rw [listing, if_pos ends, listing, if_pos (terminal ▸ ends)]
        exact .ok .nil tail
      · rw [listing_cons ends, listing_cons (terminal ▸ ends)]
        have first := item_alike _ _ (.cons head tail)
        have shorter := fun i rest => @length_item_lt (t :: tokens) i rest
        simp only [Bind.bind, EStateM.bind, Functor.map, EStateM.map]
        generalize item (t :: tokens) = read, item (u :: others) = other at first shorter ⊢
        cases first with
        | error faults sameRest => exact .error faults sameRest
        | @ok i j rest rests sameItem sameRest =>
          have later := ih _ (length ▸ shorter i rest rfl) sameRest rfl
          dsimp only
          generalize listing rest = read, listing rests = other at later ⊢
          cases later with
          | ok sameItems sameLast => exact .ok (.cons sameItem sameItems) sameLast
          | error faults sameLast => exact .error faults sameLast

end DeclListing.ReaderParametricity
