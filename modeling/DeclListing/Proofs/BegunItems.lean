import DeclListing.Proofs.ListingGrammarExactness

/-! What stands before a fault. A listing that cannot be read starts with whole
items; then one was begun, and `Begun` says how far and what had to come next. The
fault stands at the token behind that, or at the end of the tokens, or at a literal
there that was read and refused. Every place where a reader fails is one way to
have begun an item. -/
namespace DeclListing.BegunItems
open Reader ListingGrammarExactness

variable {α β : Type} {tokens rest taken front head : List Token} {t : Token} {fault : Fault}
  {what : Expectation}

/-- The first word of an item, a name, and an opening parenthesis. -/
inductive Opened (first : Keyword) : List Token → Prop where
  | opened {word t opening : Token} {name : String} :
      word.terminal = .keyword first → t.terminal = .identifier name →
      opening.terminal = .lparen → Opened first [word, t, opening]

/-- The declaration of a function up to its number of parameters. -/
inductive Counted : List Token → Prop where
  | counted {head tokens : List Token} {params : UInt16} :
      Opened .function head → Derives.Integer tokens params.toNat → Counted (head ++ tokens)

/-- Names with a comma behind each. -/
inductive Separated : List Token → Prop where
  | none : Separated []
  | more {t comma : Token} {name : String} {tokens : List Token} :
      t.terminal = .identifier name → comma.terminal = .comma → Separated tokens →
      Separated (t :: comma :: tokens)

/-- `Begun front what`: the tokens begin an item, and what they are read for next
is this. A value may also be given an initializer, arguments may end or go on, and
a literal may also be a string or have a sign; these are not what is asked for. -/
inductive Begun : List Token → Expectation → Prop where
  | start : Begun [] .valueKind
  | name {word : Token} {first : Keyword} :
      word.terminal = .keyword first → Begun [word] .identifier
  | initializer {word t equal : Token} {kind : ValueKind} {name : String} :
      word.terminal = .keyword kind.keyword → t.terminal = .identifier name →
      equal.terminal = .equal → Begun [word, t, equal] .integer
  | valueStop {word t : Token} {kind : ValueKind} {name : String} {tokens : List Token}
      {info : SymbolInfo} :
      word.terminal = .keyword kind.keyword → t.terminal = .identifier name →
      Initializer kind tokens info → Begun (word :: t :: tokens) .semicolon
  | referenceStop {word t : Token} {name : String} :
      word.terminal = .keyword .reference → t.terminal = .identifier name →
      Begun [word, t] .semicolon
  | opening {word t : Token} {first : Keyword} {name : String} :
      word.terminal = .keyword first → first = .function ∨ first = .call →
      t.terminal = .identifier name → Begun [word, t] .lparen
  | arity {head : List Token} : Opened .function head → Begun head .integer
  | arityClosing {front : List Token} : Counted front → Begun front .rparen
  | arrow {front : List Token} {closing : Token} :
      Counted front → closing.terminal = .rparen → Begun (front ++ [closing]) .arrow
  | result {front : List Token} {closing arrow : Token} :
      Counted front → closing.terminal = .rparen → arrow.terminal = .arrow →
      Begun (front ++ [closing, arrow]) .valueKind
  | functionStop {front : List Token} {closing arrow result : Token} {kind : ValueKind} :
      Counted front → closing.terminal = .rparen → arrow.terminal = .arrow →
      result.terminal = .keyword kind.keyword →
      Begun (front ++ [closing, arrow, result]) .semicolon
  | argument {head tokens : List Token} :
      Opened .call head → Separated tokens → Begun (head ++ tokens) .identifier
  | argumentsClosing {head tokens : List Token} {found : List (Located String)} :
      Opened .call head → Derives.Names tokens found → Begun (head ++ tokens) .rparen
  | callStop {head tokens : List Token} {closing : Token} {found : List (Located String)} :
      Opened .call head → Derives.Arguments tokens found → closing.terminal = .rparen →
      Begun (head ++ (tokens ++ [closing])) .semicolon

/-- `Halt taken rest fault`: the taken tokens begin an item and end with what the
fault is about. -/
inductive Halt : List Token → List Token → Fault → Prop where
  | found {front rest : List Token} {what : Expectation} (t : Token) :
      Begun front what → Halt (front ++ [t]) rest (.unexpected what (some t))
  | missing {front : List Token} {what : Expectation} :
      Begun front what → Halt front [] (.unexpected what none)
  | refused {front literal rest : List Token} {t : Token} (error : LiteralError) :
      Begun front .integer → LiteralToken literal t →
      Halt (front ++ literal) rest (.refused ⟨error, t⟩)

/-- Behind tokens that begin an item, a read fails only where the item halts. -/
def Stops (front tokens : List Token) (read : Read α) : Prop :=
  ∀ fault rest, read = .error fault rest →
    ∃ taken, tokens = taken ++ rest ∧ Halt (front ++ taken) rest fault

theorem stops_ok {a : α} : Stops front tokens (.ok a rest) := by
  intro fault rest failed
  cases failed

/-- Tokens that were taken before are in front of the others. -/
theorem Stops.behind (taken : List Token) {read : Read α}
    (stops : Stops (front ++ taken) tokens read) : Stops front (taken ++ tokens) read := by
  intro fault rest failed
  obtain ⟨more, rfl, halt⟩ := stops fault rest failed
  exact ⟨taken ++ more, (List.append_assoc ..).symm, by rwa [← List.append_assoc]⟩

/-- Readers in sequence: the second goes on behind what the first took. -/
theorem stops_bind {r : Reader α} {f : α → Reader β} (first : Stops front tokens (r tokens))
    (next : ∀ a middle, r tokens = .ok a middle →
      ∃ taken, tokens = taken ++ middle ∧ Stops (front ++ taken) middle (f a middle)) :
    Stops front tokens ((r >>= f) tokens) := by
  intro fault rest failed
  rcases bind_eq_error_iff.mp failed with failed | ⟨a, middle, read, later⟩
  · exact first fault rest failed
  · obtain ⟨taken, rfl, stops⟩ := next a middle read
    exact Stops.behind taken stops fault rest later

/-- One token, and then the others. -/
theorem stops_take {value? : Terminal → Option α} {f : Located α → Reader β}
    (begun : Begun front what)
    (next : ∀ a rest, value? a.token.terminal = some a.value →
      Stops (front ++ [a.token]) rest (f a rest)) :
    Stops front tokens ((take what value? >>= f) tokens) := by
  apply stops_bind
  · intro fault rest failed
    cases tokens with
    | nil =>
      cases failed
      exact ⟨[], rfl, by simpa using Halt.missing begun⟩
    | cons t tail =>
      simp only [take] at failed
      split at failed
      · cases failed
      · cases failed
        exact ⟨[t], rfl, .found t begun⟩
  · intro a middle read
    obtain ⟨rfl, means⟩ := take_eq_ok_iff.mp read
    exact ⟨[a.token], rfl, next a middle means⟩

theorem stops_punctuation {terminal : Terminal} {f : Located Unit → Reader β}
    (begun : Begun front what)
    (next : ∀ a rest, a.token.terminal = terminal → Stops (front ++ [a.token]) rest (f a rest)) :
    Stops front tokens ((punctuation what terminal >>= f) tokens) :=
  stops_take begun fun a rest means => next a rest (by simpa using means)

theorem stops_identifier {f : Located String → Reader β} (begun : Begun front .identifier)
    (next : ∀ a rest, a.token.terminal = .identifier a.value →
      Stops (front ++ [a.token]) rest (f a rest)) :
    Stops front tokens ((identifier >>= f) tokens) :=
  stops_take begun fun a rest means => next a rest (Terminal.identifier?_eq_some_iff.mp means)

theorem stops_valueKind {f : Located ValueKind → Reader β} (begun : Begun front .valueKind)
    (next : ∀ a rest, a.token.terminal = .keyword a.value.keyword →
      Stops (front ++ [a.token]) rest (f a rest)) :
    Stops front tokens ((valueKind >>= f) tokens) :=
  stops_take begun fun a rest means => next a rest (ValueKind.ofTerminal?_eq_some_iff.mp means)

private theorem stops_fitted {value : Int} (begun : Begun front .integer)
    (literal : LiteralToken taken t) : Stops front (taken ++ rest) (fitted value t rest) := by
  intro fault left failed
  unfold fitted at failed
  split at failed
  · cases failed
  · cases failed
    exact ⟨taken, rfl, .refused _ begun literal⟩

theorem stops_integer (begun : Begun front .integer) : Stops front tokens (integer tokens) := by
  unfold integer
  split
  · exact stops_fitted begun (@LiteralToken.signed ⟨_, _, _⟩ ⟨_, _, _⟩ _ rfl rfl)
  · exact stops_fitted begun (.integer rfl)
  · intro fault rest failed
    cases failed
    exact ⟨[_], rfl, .found _ begun⟩
  · intro fault rest failed
    cases failed
    exact ⟨[], rfl, by simpa using Halt.missing begun⟩

theorem stops_literal (begun : Begun front .integer) : Stops front tokens (literal tokens) := by
  intro fault rest failed
  unfold literal at failed
  split at failed
  · cases failed
  · exact stops_integer begun _ _ (map_eq_error_iff.mp failed)

/-- A literal that means nothing where it stands is refused behind its tokens. -/
theorem stops_refused (error : LiteralError) (begun : Begun front .integer)
    (literal : LiteralToken taken t) :
    Stops (front ++ taken) rest (.error (.refused ⟨error, t⟩) rest : Read β) := by
  intro fault left failed
  cases failed
  exact ⟨[], rfl, by simpa using Halt.refused error begun literal⟩

theorem stops_arity {n : Located Int64} {f : UInt16 → Reader β} (begun : Begun front .integer)
    (literal : LiteralToken taken n.token)
    (next : ∀ params : UInt16, n.value.toInt = params.toNat →
      Stops (front ++ taken) rest (f params rest)) :
    Stops (front ++ taken) rest ((arity n >>= f) rest) := by
  apply stops_bind
  · unfold arity
    split
    · exact stops_refused _ begun literal
    · split
      · exact stops_refused _ begun literal
      · exact stops_ok
  · intro params middle read
    obtain ⟨value, rfl⟩ := arity_eq_ok_iff.mp read
    exact ⟨[], rfl, by simpa using next params value⟩

/-- The last token of an item. -/
private theorem stops_end {f : Located Unit → α} (begun : Begun front .semicolon) :
    Stops front tokens ((punctuation .semicolon .semicolon >>= fun a => pure (f a)) tokens) :=
  stops_punctuation begun fun _ _ _ => stops_ok

theorem stops_initializer {word : Token} {kind : ValueKind} {name : String}
    (opens : word.terminal = .keyword kind.keyword) (named : t.terminal = .identifier name) :
    Stops [word, t] tokens (initializer kind tokens) := by
  unfold initializer
  split
  · rename_i span line rest
    have begun : Begun [word, t, ⟨.equal, span, line⟩] .integer := .initializer opens named rfl
    apply Stops.behind [⟨.equal, span, line⟩]
    refine stops_bind (stops_literal begun) fun value middle read => ?_
    obtain ⟨taken, split, literal, -⟩ := literal_taken read
    refine ⟨taken, split, ?_⟩
    split
    · exact stops_ok
    · exact stops_refused _ begun literal
  · exact stops_ok

theorem stops_value_declaration : Stops [] tokens (valueDeclaration tokens) := by
  refine stops_valueKind .start fun kind _ opens => ?_
  refine stops_identifier (.name opens) fun name rest named => ?_
  refine stops_bind (stops_initializer opens named) fun info middle read => ?_
  obtain ⟨taken, split, derived⟩ := initializer_sound read
  exact ⟨taken, split, stops_end (.valueStop opens named derived)⟩

theorem stops_function_declaration {word : Token} (opens : word.terminal = .keyword .function) :
    Stops [word] tokens (functionDeclaration tokens) := by
  refine stops_identifier (.name opens) fun name _ named => ?_
  refine stops_punctuation (.opening opens (.inl rfl) named) fun opening rest encloses => ?_
  have opened : Opened .function [word, name.token, opening.token] := .opened opens named encloses
  have begun : Begun [word, name.token, opening.token] .integer := .arity opened
  refine stops_bind (stops_integer begun) fun value middle read => ?_
  obtain ⟨taken, split, literal, derived⟩ := integer_taken read
  refine ⟨taken, split, stops_arity begun literal fun params same => ?_⟩
  have counted : Counted ([word, name.token, opening.token] ++ taken) :=
    .counted opened (same ▸ derived)
  refine stops_punctuation (.arityClosing counted) fun closing _ closes => ?_
  refine stops_punctuation (.arrow counted closes) fun arrow _ points => ?_
  rw [List.append_assoc]
  refine stops_valueKind (.result counted closes points) fun result _ ends => ?_
  rw [List.append_assoc]
  exact stops_end (.functionStop counted closes points ends)

theorem stops_reference {word : Token} (opens : word.terminal = .keyword .reference) :
    Stops [word] tokens (reference tokens) := by
  refine stops_identifier (.name opens) fun name _ named => ?_
  exact stops_end (.referenceStop opens named)

private theorem separated_snoc {done : List Token} {comma : Token} {name : String}
    (separated : Separated done) (named : t.terminal = .identifier name)
    (separates : comma.terminal = .comma) : Separated (done ++ [t, comma]) := by
  induction separated with
  | none => exact .more named separates .none
  | more first also _ ih => exact .more first also ih

/-- The names of a call go on behind those that are separated already. -/
theorem stops_names (opened : Opened .call head) :
    ∀ done, Separated done → Stops (head ++ done) tokens (names tokens) := by
  fun_induction names tokens with
  | case1 => exact fun _ _ => stops_ok
  | case2 name span line commaSpan commaLine tail fault after read ih =>
    intro done separated
    -- The list of names goes on behind one more name and its comma.
    have longer : Separated
        (done ++ [⟨.identifier name, span, line⟩, ⟨.comma, commaSpan, commaLine⟩]) :=
      separated_snoc separated rfl rfl
    have more := ih _ longer
    rw [read, ← List.append_assoc] at more
    intro fault' rest failed
    cases failed
    exact Stops.behind [_, _] more fault after rfl
  | case3 => exact fun _ _ => stops_ok
  | case4 t rest _ =>
    intro done separated fault left failed
    cases failed
    exact ⟨[t], rfl, .found t (.argument opened separated)⟩
  | case5 =>
    intro done separated fault left failed
    cases failed
    exact ⟨[], rfl, by simpa using Halt.missing (.argument opened separated)⟩

theorem stops_arguments (opened : Opened .call head) :
    Stops head tokens (arguments tokens) := by
  unfold arguments
  split
  · exact stops_ok
  · have first : Stops (head ++ []) tokens (names tokens) := stops_names opened [] .none
    rw [List.append_nil] at first
    refine stops_bind first fun found middle read => ?_
    obtain ⟨⟨taken, split, derived⟩, -⟩ := names_eq_ok_iff.mp read
    exact ⟨taken, split, stops_punctuation (.argumentsClosing opened derived) fun _ _ _ => stops_ok⟩

theorem stops_call {word : Token} (opens : word.terminal = .keyword .call) :
    Stops [word] tokens (call tokens) := by
  refine stops_identifier (.name opens) fun callee _ named => ?_
  refine stops_punctuation (.opening opens (.inr rfl) named) fun opening rest encloses => ?_
  have opened : Opened .call [word, callee.token, opening.token] := .opened opens named encloses
  refine stops_bind (stops_arguments opened) fun args middle read => ?_
  obtain ⟨taken, closing, split, derived, closes⟩ := arguments_eq_ok_iff.mp read
  refine ⟨taken ++ [closing], by simp [split], ?_⟩
  exact stops_end (.callStop opened derived closes)

/-- An item is at fault where it halts. -/
theorem stops_item : Stops [] tokens (item tokens) := by
  unfold item
  split
  · exact Stops.behind [_] (stops_function_declaration rfl)
  · exact Stops.behind [_] (stops_reference rfl)
  · exact Stops.behind [_] (stops_call rfl)
  · exact stops_value_declaration

/-- A listing that cannot be read starts with whole items, and is at fault where
the next one halts. -/
theorem listing_halts (failed : listing tokens = .error fault rest) :
    ∃ done items taken, tokens = done ++ (taken ++ rest) ∧ Derives.Listing done items ∧
      Halt taken rest fault := by
  fun_induction listing tokens with
  | case1 => cases failed
  | case2 => cases failed
  | case3 t tail more fault after step =>
    cases failed
    obtain ⟨taken, split, halt⟩ := stops_item _ _ step
    exact ⟨[], [], taken, split, .nothing, halt⟩
  | case4 t tail more i after step inner last later ih =>
    cases failed
    obtain ⟨first, split, derived⟩ := item_sound step
    obtain ⟨done, items, taken, rfl, all, halt⟩ := ih later
    exact ⟨first ++ done, i :: items, taken, by simp [split], .item derived all, halt⟩
  | case5 => cases failed

end DeclListing.BegunItems
