import DeclListing.Proofs.BegunItems

/-! Where a fault stands. What was taken before it is settled: whole items, and the
beginning of one more. None of it is the end of the text, and its last token is not
a sign that waits for its digits. So the fault stands at the last token that was
taken, or at the end of the tokens when they ran out. -/
namespace DeclListing.FaultPlaces
open Reader ListingGrammarExactness BegunItems

variable {tokens rest taken first second front : List Token} {t : Token} {fault : Fault}
  {what : Expectation}

/-- None of the tokens is the end of the text. -/
def Plain (tokens : List Token) : Prop :=
  ∀ t ∈ tokens, t.terminal ≠ .eof

/-- Tokens that belong together: none of them is the end of the text, and the last
one is no sign. -/
structure Settled (tokens : List Token) : Prop where
  plain : Plain tokens
  unsigned : ∀ t ∈ tokens.getLast?, t.terminal ≠ .minus

/-- Where no token is the end of the text or a sign, the tokens are settled. -/
theorem settled_of_forall (calm : ∀ t ∈ tokens, t.terminal ≠ .eof ∧ t.terminal ≠ .minus) :
    Settled tokens :=
  ⟨fun t member => (calm t member).1, fun t last => (calm t (List.mem_of_getLast? last)).2⟩

theorem Settled.append (before : Settled first) (behind : Settled second) :
    Settled (first ++ second) := by
  refine ⟨List.forall_mem_append.mpr ⟨before.plain, behind.plain⟩, fun t last => ?_⟩
  rw [List.getLast?_append] at last
  cases final : second.getLast? with
  | none =>
    rw [final] at last
    exact before.unsigned t last
  | some =>
    rw [final] at last
    cases last
    exact behind.unsigned t final

theorem integer_settled {value : Int} (derived : Derives.Integer tokens value) :
    Settled tokens := by
  refine ⟨integer_tokens derived, ?_⟩
  cases derived with
  | plain digits | negated _ digits => simp [digits]

theorem literal_settled {value : Literal} (derived : Derives.Literal tokens value) :
    Settled tokens := by
  cases derived with
  | integer derived => exact integer_settled derived
  | string quoted => exact settled_of_forall (by simp [quoted])

theorem names_settled {found : List (Located String)} (derived : Derives.Names tokens found) :
    Settled tokens := by
  apply settled_of_forall
  induction derived with
  | last named => simp [(name_iff.mp named).2]
  | more named separates _ ih => simpa [(name_iff.mp named).2, separates] using ih

theorem arguments_settled {found : List (Located String)}
    (derived : Derives.Arguments tokens found) : Settled tokens := by
  cases derived with
  | none => exact settled_of_forall (by simp)
  | some derived => exact names_settled derived

/-- An item ends with a semicolon. -/
theorem item_ends {i : Item} (derived : Derives.Item tokens i) :
    ∃ front stop, tokens = front ++ [stop] ∧ stop.terminal = .semicolon := by
  cases derived with
  | @plain word t stop _ _ _ _ _ _ stops => exact ⟨[word, t], stop, rfl, stops⟩
  | @reference word t stop _ _ _ stops => exact ⟨[word, t], stop, rfl, stops⟩
  | @initialized word t equal stop _ _ tokens _ _ _ _ _ _ _ stops =>
    exact ⟨word :: t :: equal :: tokens, stop, rfl, stops⟩
  | @function word t opening closing arrow result stop _ tokens _ _ _ _ _ _ _ _ _ _ _ stops =>
    exact ⟨word :: t :: opening :: (tokens ++ [closing, arrow, result]), stop, by simp, stops⟩
  | @call word t opening closing stop _ tokens _ _ _ _ _ _ stops =>
    exact ⟨word :: t :: opening :: (tokens ++ [closing]), stop, by simp, stops⟩

theorem item_settled {i : Item} (derived : Derives.Item tokens i) : Settled tokens := by
  obtain ⟨front, stop, rfl, stops⟩ := item_ends derived
  exact ⟨item_tokens derived, by simp [stops]⟩

theorem listing_settled {items : Listing} (derived : Derives.Listing tokens items) :
    Settled tokens := by
  induction derived with
  | nothing => exact settled_of_forall (by simp)
  | item derived _ ih => exact (item_settled derived).append ih

theorem opened_settled {word : Keyword} (opened : Opened word tokens) : Settled tokens := by
  obtain ⟨opens, named, encloses⟩ := opened
  exact settled_of_forall (by simp [opens, named, encloses])

theorem counted_settled (counted : Counted tokens) : Settled tokens := by
  obtain ⟨opened, derived⟩ := counted
  exact (opened_settled opened).append (integer_settled derived)

theorem separated_settled (separated : Separated tokens) : Settled tokens := by
  apply settled_of_forall
  induction separated with
  | none => simp
  | more named separates _ ih => simpa [named, separates] using ih

/-- Tokens that begin an item are settled. -/
theorem begun_settled (begun : Begun front what) : Settled front := by
  cases begun with
  | start => exact settled_of_forall (by simp)
  | name opens => exact settled_of_forall (by simp [opens])
  | initializer opens named assigns => exact settled_of_forall (by simp [opens, named, assigns])
  | @valueStop word t _ _ _ _ opens named derived =>
    have first : Settled [word, t] := settled_of_forall (by simp [opens, named])
    cases derived with
    | absent => exact first
    | @present equal _ _ assigns literal _ =>
      have next : Settled [equal] := settled_of_forall (by simp [assigns])
      exact first.append (next.append (literal_settled literal))
  | referenceStop opens named | opening opens _ named =>
    exact settled_of_forall (by simp [opens, named])
  | arity opened => exact opened_settled opened
  | arityClosing counted => exact counted_settled counted
  | arrow counted closes =>
    exact (counted_settled counted).append (settled_of_forall (by simp [closes]))
  | result counted closes points =>
    exact (counted_settled counted).append (settled_of_forall (by simp [closes, points]))
  | functionStop counted closes points ends =>
    exact (counted_settled counted).append (settled_of_forall (by simp [closes, points, ends]))
  | argument opened separated => exact (opened_settled opened).append (separated_settled separated)
  | argumentsClosing opened derived =>
    exact (opened_settled opened).append (names_settled derived)
  | @callStop _ _ closing _ opened derived closes =>
    have last : Settled [closing] := settled_of_forall (by simp [closes])
    exact (opened_settled opened).append ((arguments_settled derived).append last)

/-- `FaultAt tokens rest fault`: the fault stands at the last of the tokens that
were taken before `rest`, and no end of the text was taken before it. The token
of a signed integer starts where the sign does. -/
inductive FaultAt : List Token → List Token → Fault → Prop where
  | found (front : List Token) {rest : List Token} {what : Expectation} {t : Token} :
      Plain front → FaultAt (front ++ t :: rest) rest (.unexpected what (some t))
  | missing {tokens : List Token} {what : Expectation} :
      Plain tokens → FaultAt tokens [] (.unexpected what none)
  | refused (front : List Token) {rest : List Token} {error : LiteralError} {t : Token} :
      Plain front → t.terminal ≠ .eof →
      FaultAt (front ++ t :: rest) rest (.refused ⟨error, t⟩)
  | signed (front : List Token) {rest : List Token} {error : LiteralError} {sign t : Token} :
      Plain front → sign.terminal = .minus → t.terminal ≠ .eof →
      FaultAt (front ++ sign :: t :: rest) rest
        (.refused ⟨error, { t with span := ⟨sign.span.start, t.span.stop⟩ }⟩)

/-- A listing that cannot be read halts behind settled tokens. -/
theorem listing_halts_settled (failed : listing tokens = .error fault rest) :
    (∃ front t what, Settled front ∧ tokens = front ++ t :: rest ∧
      fault = .unexpected what (some t)) ∨
    (∃ what, Settled tokens ∧ rest = [] ∧ fault = .unexpected what none) ∨
    ∃ front literal t error, Settled front ∧ LiteralToken literal t ∧
      tokens = front ++ (literal ++ rest) ∧ fault = .refused ⟨error, t⟩ := by
  obtain ⟨done, items, taken, rfl, before, halt⟩ := listing_halts failed
  have settled {front what} (begun : Begun front what) : Settled (done ++ front) :=
    (listing_settled before).append (begun_settled begun)
  cases halt with
  | found t begun => exact .inl ⟨_, t, _, settled begun, by simp, rfl⟩
  | missing begun => exact .inr (.inl ⟨_, by simpa using settled begun, rfl, rfl⟩)
  | refused error begun literal =>
    exact .inr (.inr ⟨_, _, _, error, settled begun, literal, by simp, rfl⟩)

/-- A listing that cannot be read is at fault at the last token taken, and no
end of the text was taken before it. -/
theorem listing_fault (read : listing tokens = .error fault rest) : FaultAt tokens rest fault := by
  rcases listing_halts_settled read with ⟨front, t, what, settled, rfl, rfl⟩ |
    ⟨what, settled, rfl, rfl⟩ | ⟨front, literal, t, error, settled, token, rfl, rfl⟩
  · exact .found front settled.plain
  · exact .missing settled.plain
  · cases token with
    | string quoted => exact .refused front settled.plain (by simp [quoted])
    | integer digits => exact .refused front settled.plain (by simp [digits])
    | signed minus digits => exact .signed front settled.plain minus (by simp [digits])

end DeclListing.FaultPlaces
