import DeclListing.Proofs.ExpectedTokens
import DeclListing.Proofs.LastingFaults

/-! A fault stands at the first token that no listing has there. What was read before
it can be gone on with to the shape of a listing; with it, this cannot be done any more.
A sign that is no integer's is the exception, for digits could have followed it. A literal
that was refused does fit the shape, but nothing that starts with it is read. -/
namespace DeclListing.ViablePrefixes
open Reader ListingGrammarExactness BegunItems ExpectedTokens LastingFaults

variable {α β : Type} {tokens rest left taken front segment : List Token} {t word name opening : Token}
  {what : Expectation} {fault : Fault} {found : Option Token} {terminals : List Terminal}

/-- Tokens that the shape of some listing starts with. -/
def Viable (tokens : List Token) : Prop :=
  ∃ more, Shape.Listing (tokens.map Token.terminal ++ more)

/-- Tokens behind which a literal or a number of parameters has to come. -/
inductive AwaitsInteger : List Token → Prop where
  | literal {done : List Token} {word t equal : Token} {kind : ValueKind} {name : String} :
      Shape.Listing (done.map Token.terminal) → word.terminal = .keyword kind.keyword →
      t.terminal = .identifier name → equal.terminal = .equal →
      AwaitsInteger (done ++ [word, t, equal])
  | arity {done : List Token} {word t opening : Token} {name : String} :
      Shape.Listing (done.map Token.terminal) → word.terminal = .keyword .function →
      t.terminal = .identifier name → opening.terminal = .lparen →
      AwaitsInteger (done ++ [word, t, opening])

theorem integer_shape {value : Int} (derived : Derives.Integer taken value) :
    Shape.Integer (taken.map Token.terminal) := by
  cases derived with
  | plain digits => simpa [digits] using Shape.Integer.plain _
  | negated minus digits => simpa [minus, digits] using Shape.Integer.negated _

theorem literal_shape {value : Literal} (derived : Derives.Literal taken value) :
    Shape.Literal (taken.map Token.terminal) := by
  cases derived with
  | integer derived => exact .integer (integer_shape derived)
  | string quoted => simpa [quoted] using Shape.Literal.string _

theorem names_shape {found : List (Located String)} (derived : Derives.Names taken found) :
    Shape.Names (taken.map Token.terminal) := by
  induction derived with
  | last named => simpa [(name_iff.mp named).2] using Shape.Names.last _
  | more named separates _ ih => simpa [(name_iff.mp named).2, separates] using Shape.Names.more _ ih

theorem item_shape {i : Item} (derived : Derives.Item segment i) :
    Shape.Item (segment.map Token.terminal) := by
  cases derived with
  | plain opens declares named stops =>
    obtain ⟨kind, rfl, -⟩ := Derives.declares_iff.mp declares
    simpa [opens, (name_iff.mp named).2, stops] using Shape.Item.plain _ (.of_kind kind)
  | initialized opens initializes named assigns literal stops =>
    obtain ⟨kind, rfl, -⟩ := Derives.initializes_iff.mp initializes
    simpa [opens, (name_iff.mp named).2, assigns, stops]
      using Shape.Item.initialized _ (.of_kind kind) (literal_shape literal)
  | function opens named encloses integer closes points ends returned stops =>
    simpa [opens, (name_iff.mp named).2, encloses, closes, points, ends, stops]
      using Shape.Item.function _ (integer_shape integer) returned
  | reference opens named stops =>
    simpa [opens, (name_iff.mp named).2, stops] using Shape.Item.reference _
  | @call _ _ _ _ _ _ tokens _ opens named encloses arguments closes stops =>
    have args : tokens.map Token.terminal = [] ∨ Shape.Names (tokens.map Token.terminal) := by
      cases arguments with
      | none => exact .inl rfl
      | some derived => exact .inr (names_shape derived)
    simpa [opens, (name_iff.mp named).2, encloses, closes, stops] using Shape.Item.call _ args

theorem listing_shape {items : Listing} (derived : Derives.Listing tokens items) :
    Shape.Listing (tokens.map Token.terminal) := by
  induction derived with
  | nothing => exact .nothing
  | item derived _ ih =>
    rw [List.map_append]
    exact .item (item_shape derived) ih

theorem shape_append {first second : List Terminal} (before : Shape.Listing first)
    (behind : Shape.Listing second) : Shape.Listing (first ++ second) := by
  induction before with
  | nothing => exact behind
  | item shape _ ih =>
    rw [List.append_assoc]
    exact .item shape ih

theorem shape_snoc {first second : List Terminal} (before : Shape.Listing first)
    (behind : Shape.Item second) : Shape.Listing (first ++ second) := by
  refine shape_append before ?_
  rw [← List.append_nil second]
  exact .item behind .nothing

/-! ## What has a shape is read or refused -/

/-- The reader refuses a literal among the tokens, whatever comes behind them. -/
def Refused (r : Reader α) (tokens : List Token) : Prop :=
  ∀ rest, ∃ e left, r (tokens ++ rest) = .error (.refused e) left

theorem Refused.more {r : Reader α} (refused : Refused r taken) (more : List Token) :
    Refused r (taken ++ more) := by
  intro rest
  rw [List.append_assoc]
  exact refused (more ++ rest)

theorem Refused.first {r : Reader α} {f : α → Reader β} (refused : Refused r taken) :
    Refused (r >>= f) taken := by
  intro rest
  obtain ⟨e, left, failed⟩ := refused rest
  exact ⟨e, left, bind_eq_error_iff.mpr (.inl failed)⟩

/-- A reader refuses what comes behind a token that it takes. -/
theorem Refused.behind {value? : Terminal → Option α} {f : Located α → Reader β} {a : α}
    (means : value? t.terminal = some a) (refused : Refused (f ⟨a, t⟩) tokens) :
    Refused (take what value? >>= f) (t :: tokens) := by
  intro rest
  obtain ⟨e, left, failed⟩ := refused rest
  exact ⟨e, left, bind_eq_error_iff.mpr
    (.inr ⟨⟨a, t⟩, _, take_eq_ok_iff.mpr ⟨rfl, means⟩, failed⟩)⟩

private theorem fitted_or_refused (value : Int) (token : Token) :
    (∃ n : Int64, n.toInt = value) ∨
      ∀ rest, fitted value token rest = .error (.refused ⟨.integerOutOfRange, token⟩) rest := by
  by_cases fits : Int64.minValue.toInt ≤ value ∧ value ≤ Int64.maxValue.toInt
  · exact .inl ⟨_, value_in_range fits⟩
  · exact .inr fun rest => if_neg fits

theorem integer_of_shape (shape : Shape.Integer (taken.map Token.terminal)) :
    (∃ value : Int64, Derives.Integer taken value.toInt) ∨ Refused integer taken := by
  generalize same : taken.map Token.terminal = terminals at shape
  cases shape with
  | plain magnitude =>
    simp only [List.map_eq_cons_iff, List.map_eq_nil_iff] at same
    obtain ⟨t, _, rfl, digits, rfl⟩ := same
    rcases fitted_or_refused magnitude.toNat t with ⟨n, value⟩ | refuses
    · exact .inl ⟨n, value ▸ .plain digits⟩
    · exact .inr fun rest => ⟨_, _, (integer_plain digits).trans (refuses rest)⟩
  | negated magnitude =>
    simp only [List.map_eq_cons_iff, List.map_eq_nil_iff] at same
    obtain ⟨sign, _, rfl, minus, t, _, rfl, digits, rfl⟩ := same
    rcases fitted_or_refused (-magnitude.toNat)
      { t with span := ⟨sign.span.start, t.span.stop⟩ } with ⟨n, value⟩ | refuses
    · exact .inl ⟨n, value ▸ .negated minus digits⟩
    · exact .inr fun rest => ⟨_, _, (integer_negated minus digits).trans (refuses rest)⟩

theorem literal_of_shape (shape : Shape.Literal (taken.map Token.terminal)) :
    (∃ value, Derives.Literal taken value) ∨ Refused literal taken := by
  generalize same : taken.map Token.terminal = terminals at shape
  cases shape with
  | string value =>
    simp only [List.map_eq_cons_iff, List.map_eq_nil_iff] at same
    obtain ⟨t, _, rfl, quoted, rfl⟩ := same
    exact .inl ⟨_, .string quoted⟩
  | integer shape =>
    rw [← same] at shape
    rcases integer_of_shape shape with ⟨value, derived⟩ | refused
    · exact .inl ⟨_, .integer derived⟩
    · refine .inr fun rest => ?_
      obtain ⟨e, left, failed⟩ := refused rest
      exact ⟨e, left, literal_refuses failed⟩

/-- An initializer of the right shape means something for the kind, or is refused. -/
theorem initializer_of_shape (kind : ValueKind) {equal : Token} (assigns : equal.terminal = .equal)
    (shape : Shape.Literal (taken.map Token.terminal)) :
    (∃ value, Derives.Literal taken value ∧ kind.admits value.sort = true) ∨
      Refused (initializer kind) (equal :: taken) := by
  obtain ⟨terminal, span, line⟩ := equal
  subst assigns
  rcases literal_of_shape shape with ⟨value, derived⟩ | refused
  · cases admitted : kind.admits value.sort with
    | true => exact .inl ⟨value, derived, admitted⟩
    | false =>
      refine .inr fun rest => ?_
      obtain ⟨token, read⟩ := literal_eq_ok_iff.mpr ⟨taken, rfl, derived⟩
      refine ⟨⟨.kindMismatch kind value.sort, token⟩, rest,
        bind_eq_error_iff.mpr (.inr ⟨⟨value, token⟩, rest, read, ?_⟩)⟩
      rw [if_neg (by simp [admitted])]
      rfl
  · exact .inr fun rest => refused.first rest

/-- A number of parameters is in range, or is refused. -/
theorem arity_of_shape (shape : Shape.Integer (taken.map Token.terminal)) :
    (∃ params : UInt16, Derives.Integer taken params.toNat) ∨
      ∀ f : UInt16 → Reader α, Refused (integer >>= fun value => arity value >>= f) taken := by
  rcases integer_of_shape shape with ⟨value, derived⟩ | refused
  · by_cases small : 0 ≤ value.toInt ∧ value.toInt ≤ 65535
    · refine .inl ⟨UInt16.ofNat value.toInt.toNat, ?_⟩
      rwa [params_in_range small.1 small.2]
    · refine .inr fun f rest => ?_
      obtain ⟨token, read⟩ := integer_eq_ok_iff.mpr ⟨taken, rfl, derived⟩
      have refuses : ∃ e, arity ⟨value, token⟩ rest = .error (.refused e) rest := by
        unfold arity
        split
        · exact ⟨_, rfl⟩
        · rename_i nonnegative
          have large : ¬ value.toInt < 0 → 65535 < value.toInt := by omega
          rw [if_pos (large nonnegative)]
          exact ⟨_, rfl⟩
      obtain ⟨e, refuses⟩ := refuses
      exact ⟨e, rest, bind_eq_error_iff.mpr
        (.inr ⟨_, _, read, bind_eq_error_iff.mpr (.inl refuses)⟩)⟩
  · exact .inr fun f => refused.first

theorem names_of_shape (shape : Shape.Names (taken.map Token.terminal)) :
    ∃ found, Derives.Names taken found := by
  generalize same : taken.map Token.terminal = terminals at shape
  induction shape generalizing taken with
  | last name =>
    simp only [List.map_eq_cons_iff, List.map_eq_nil_iff] at same
    obtain ⟨t, _, rfl, named, rfl⟩ := same
    exact ⟨_, .last (.identifier named)⟩
  | more name _ ih =>
    simp only [List.map_eq_cons_iff] at same
    obtain ⟨t, _, rfl, named, comma, more, rfl, separates, same⟩ := same
    obtain ⟨found, derived⟩ := ih same
    exact ⟨_, .more (.identifier named) separates derived⟩

theorem arguments_of_shape
    (shape : taken.map Token.terminal = [] ∨ Shape.Names (taken.map Token.terminal)) :
    ∃ found, Derives.Arguments taken found := by
  rcases shape with nothing | shape
  · obtain rfl := List.map_eq_nil_iff.mp nothing
    exact ⟨[], .none⟩
  · obtain ⟨found, derived⟩ := names_of_shape shape
    exact ⟨found, .some derived⟩

/-- Tokens of the shape of an item are one, or a literal among them is refused. -/
theorem item_of_shape (shape : Shape.Item (segment.map Token.terminal)) :
    (∃ i, Derives.Item segment i) ∨ Refused item segment := by
  generalize same : segment.map Token.terminal = terminals at shape
  cases shape with
  | plain name returned =>
    simp only [List.map_eq_cons_iff, List.map_eq_nil_iff] at same
    obtain ⟨word, _, rfl, opens, t, _, rfl, named, stop, _, rfl, stops, rfl⟩ := same
    obtain ⟨kind, rfl, -⟩ := Derives.valueWord_iff.mp returned
    exact .inl ⟨_, .plain opens (.of_kind kind) (.identifier named) stops⟩
  | initialized name returned shape =>
    simp only [List.map_eq_cons_iff, List.map_eq_append_iff, List.map_eq_nil_iff] at same
    obtain ⟨word, _, rfl, opens, t, _, rfl, named, equal, _, rfl, assigns, taken, _, rfl, rfl,
      stop, _, rfl, stops, rfl⟩ := same
    obtain ⟨kind, rfl, -⟩ := Derives.valueWord_iff.mp returned
    rcases initializer_of_shape kind assigns shape with ⟨value, derived, admitted⟩ | refused
    · exact .inl ⟨_,
        .initialized opens (.of_kind admitted) (.identifier named) assigns derived stops⟩
    · have named' : t.terminal.identifier? = some name :=
        Terminal.identifier?_eq_some_iff.mpr named
      have opens' : ValueKind.ofTerminal? word.terminal = some kind :=
        ValueKind.ofTerminal?_eq_some_iff.mpr opens
      have value : Refused valueDeclaration (word :: t :: ((equal :: taken) ++ [stop])) :=
        .behind opens' (.behind named' (refused.more [stop]).first)
      refine .inr fun rest => ?_
      rw [List.cons_append, item_dispatch.2.2.2 kind opens]
      exact value rest
  | function name shape returned =>
    simp only [List.map_eq_cons_iff, List.map_eq_append_iff, List.map_eq_nil_iff] at same
    obtain ⟨word, _, rfl, opens, t, _, rfl, named, opening, _, rfl, encloses, taken, _, rfl, rfl,
      closing, _, rfl, closes, arrow, _, rfl, points, result, _, rfl, ends, stop, _, rfl, stops,
      rfl⟩ := same
    rcases arity_of_shape shape with ⟨params, derived⟩ | refused
    · exact .inl ⟨_,
        .function opens (.identifier named) encloses derived closes points ends returned stops⟩
    · have named' : t.terminal.identifier? = some name :=
        Terminal.identifier?_eq_some_iff.mpr named
      have declared : Refused functionDeclaration
          (t :: opening :: (taken ++ [closing, arrow, result, stop])) :=
        .behind named' (.behind (if_pos encloses) ((refused _).more _))
      refine .inr fun rest => ?_
      rw [List.cons_append, item_dispatch.1 opens]
      exact declared rest
  | reference name =>
    simp only [List.map_eq_cons_iff, List.map_eq_nil_iff] at same
    obtain ⟨word, _, rfl, opens, t, _, rfl, named, stop, _, rfl, stops, rfl⟩ := same
    exact .inl ⟨_, .reference opens (.identifier named) stops⟩
  | call callee shape =>
    simp only [List.map_eq_cons_iff, List.map_eq_append_iff, List.map_eq_nil_iff] at same
    obtain ⟨word, _, rfl, opens, t, _, rfl, named, opening, _, rfl, encloses, taken, _, rfl, rfl,
      closing, _, rfl, closes, stop, _, rfl, stops, rfl⟩ := same
    obtain ⟨found, derived⟩ := arguments_of_shape shape
    exact .inl ⟨_, .call opens (.identifier named) encloses derived closes stops⟩

/-- A literal is refused in tokens that do not start with the end of the text. -/
private theorem refused_goes {e : Located LiteralError}
    (refused : item tokens = .error (.refused e) rest) :
    ∃ t tail, tokens = t :: tail ∧ t.terminal ≠ .eof := by
  cases tokens with
  | nil => cases refused
  | cons t tail =>
    refine ⟨t, tail, rfl, fun ends => ?_⟩
    obtain ⟨terminal, span, line⟩ := t
    subst ends
    cases refused

/-- Tokens of the shape of a listing want for no other token: where they are not read,
a literal among them is refused. -/
theorem shape_refused (shape : Shape.Listing (tokens.map Token.terminal))
    (ends : ∀ t ∈ rest.head?, t.terminal = .eof)
    (failed : listing (tokens ++ rest) = .error fault left) : ∃ e, fault = .refused e := by
  generalize same : tokens.map Token.terminal = terminals at shape
  induction shape generalizing tokens with
  | nothing =>
    obtain rfl := List.map_eq_nil_iff.mp same
    cases rest with
    | nil =>
      rw [List.nil_append, listing] at failed
      cases failed
    | cons t tail =>
      rw [List.nil_append, listing, if_pos (ends t rfl)] at failed
      cases failed
  | item shape _ ih =>
    obtain ⟨first, more, rfl, rfl, moreSame⟩ := List.map_eq_append_iff.mp same
    rw [List.append_assoc] at failed
    rcases item_of_shape shape with ⟨i, derived⟩ | refused
    · rw [listing_item derived] at failed
      exact ih (map_eq_error_iff.mp failed) moreSame
    · obtain ⟨e, last, step⟩ := refused (more ++ rest)
      obtain ⟨t, tail, split, goes⟩ := refused_goes step
      rw [split] at step failed
      rw [listing_fails goes step] at failed
      cases failed
      exact ⟨e, rfl⟩

theorem viable_of_append {more : List Token} (viable : Viable (front ++ more)) :
    Viable front := by
  obtain ⟨behind, shape⟩ := viable
  exact ⟨more.map Token.terminal ++ behind, by simpa using shape⟩

/-- Where an integer has to come, a sign can. -/
theorem viable_sign (awaits : AwaitsInteger front) (minus : t.terminal = .minus) :
    Viable (front ++ [t]) := by
  cases awaits with
  | @literal _ _ _ _ kind name before opens named assigns =>
    have shape := shape_snoc before
      (.initialized name (.of_kind kind) (.integer (.negated 0)))
    exact ⟨[.integer 0, .semicolon], by simpa [opens, named, assigns, minus] using shape⟩
  | @arity _ _ _ _ name before opens named encloses =>
    have shape := shape_snoc before (.function name (.negated 0) .int)
    exact ⟨[.integer 0, .rparen, .arrow, .keyword .int, .semicolon],
      by simpa [opens, named, encloses, minus] using shape⟩

variable {done : List Token} {items : Listing}

theorem begun_awaits (before : Derives.Listing done items) (begun : Begun front .integer) :
    AwaitsInteger (done ++ front) := by
  cases begun with
  | initializer opens named assigns => exact .literal (listing_shape before) opens named assigns
  | arity opened =>
    obtain ⟨opens, named, encloses⟩ := opened
    exact .arity (listing_shape before) opens named encloses

/-- Whole items and the beginning of one more can be gone on with. -/
theorem begun_viable (before : Derives.Listing done items) (begun : Begun front what) :
    Viable (done ++ front) := by
  by_cases integer : what = .integer
  · subst integer
    exact viable_of_append (viable_sign (t := made .minus) (begun_awaits before begun) rfl)
  · obtain ⟨u, meets, small⟩ := exists_admitted what
    obtain ⟨more, i, derived⟩ :=
      begun_completed begun meets small fun same => absurd same integer
    have shape := shape_snoc (listing_shape before) (item_shape derived)
    exact ⟨(u :: more).map Token.terminal, by simpa using shape⟩

theorem terminals_made (terminals : List Terminal) :
    (terminals.map made).map Token.terminal = terminals := by
  simp [made, Function.comp_def]

/-- With the token at fault nothing can be gone on with, but for a sign where an
integer has to come. -/
theorem viable_at_fault (failed : listing (front ++ t :: rest) = .error (.unexpected what (some t)) rest)
    (viable : Viable (front ++ [t])) : what = .integer ∧ t.terminal = .minus := by
  obtain ⟨more, shape⟩ := viable
  by_contra other
  have leaves : Leaves (.unexpected what (some t)) (more.map made) :=
    fun same minus => absurd ⟨same, minus⟩ other
  obtain ⟨taken, split, -, again⟩ := lasting_listing _ _ _ failed
  obtain rfl : front ++ [t] = taken := List.append_cancel_right ((by simpa using split))
  have whole : Shape.Listing ((front ++ [t] ++ more.map made).map Token.terminal) := by
    rwa [List.map_append, terminals_made]
  have unread := again _ leaves
  rw [← List.append_nil (_ ++ _)] at unread
  obtain ⟨e, refused⟩ := shape_refused whole (by simp) unread
  cases refused

/-- Behind the end of the text or without more tokens, what was read is no listing. -/
theorem unshaped_at_end (failed : listing (front ++ rest) = .error (.unexpected what found) left)
    (ends : ∀ t ∈ rest.head?, t.terminal = .eof) :
    ¬ Shape.Listing (front.map Token.terminal) := by
  intro shape
  obtain ⟨e, refused⟩ := shape_refused shape ends failed
  cases refused

theorem literal_token_shape (literal : LiteralToken taken t) :
    Shape.Literal (taken.map Token.terminal) := by
  cases literal with
  | string quoted => simpa [quoted] using Shape.Literal.string _
  | integer digits => simpa [digits] using Shape.Literal.integer (.plain _)
  | signed minus digits => simpa [minus, digits] using Shape.Literal.integer (.negated _)

/-- A string as a number of parameters is not refused, but unexpected. -/
private theorem string_for_arity {value : String} (opened : Opened .function front)
    (quoted : t.terminal = .string value) :
    listing (front ++ t :: rest) = .error (.unexpected .integer (some t)) rest := by
  cases opened with
  | @opened word name opening _ opens named encloses =>
    refine listing_fails (by simp [opens]) ?_
    obtain ⟨terminal, span, line⟩ := word
    obtain ⟨terminal, span, line⟩ := name
    obtain ⟨terminal, span, line⟩ := opening
    obtain ⟨terminal, span, line⟩ := t
    subst opens named encloses quoted
    rfl

/-- A literal that is refused is one that the shape of a listing has there. -/
theorem refused_viable {e : Located LiteralError} (before : Derives.Listing done items)
    (begun : Begun front .integer) (literal : LiteralToken taken t)
    (failed : listing (done ++ (front ++ (taken ++ rest))) = .error (.refused e) rest) :
    Viable (done ++ front ++ taken) := by
  have listed := listing_shape before
  cases begun with
  | @initializer _ _ _ kind name opens named assigns =>
    have shape :=
      shape_snoc listed (.initialized name (.of_kind kind) (literal_token_shape literal))
    exact ⟨[.semicolon], by simpa [opens, named, assigns] using shape⟩
  | arity opened =>
    have shape : Shape.Integer (taken.map Token.terminal) := by
      cases literal with
      | string quoted =>
        rw [listing_segment before] at failed
        have unexpected := (string_for_arity opened quoted).symm.trans (map_eq_error_iff.mp failed)
        cases unexpected
      | integer digits => simpa [digits] using Shape.Integer.plain _
      | signed minus digits => simpa [minus, digits] using Shape.Integer.negated _
    cases opened with
    | @opened _ _ _ name opens named encloses =>
      have whole := shape_snoc listed (.function name shape .int)
      exact ⟨[.rparen, .arrow, .keyword .int, .semicolon],
        by simpa [opens, named, encloses] using whole⟩

/-! ## Faults -/

/-- Where something else had to come, what was read before is the beginning of a listing
by its shape, and with the token that came it is none any more. The one token that may
be at fault in its place is a sign where an integer has to come, without digits behind
it. Tokens that are read but for the value of a literal begin a listing by their shape
with that literal, and whatever comes behind it, the literal is refused. -/
theorem fault_at_first_impossible (tokens rest : List Token) :
    (∀ what found, listing tokens = .error (.unexpected what found) rest →
      ∃ front, tokens = front ++ (found.toList ++ rest) ∧ (found = none → rest = []) ∧
        Viable front ∧
        (∀ t ∈ found, Viable (front ++ [t]) ↔
          t.terminal = .minus ∧ AwaitsInteger front ∧ NoDigits rest) ∧
        ((∀ t ∈ found, t.terminal = .eof) → ¬ Shape.Listing (front.map Token.terminal))) ∧
    ∀ error t, listing tokens = .error (.refused ⟨error, t⟩) rest →
      ∃ front literal, tokens = front ++ (literal ++ rest) ∧ LiteralToken literal t ∧
        AwaitsInteger front ∧ Viable (front ++ literal) ∧
        ∀ text more, Listing.read text (front ++ (literal ++ more)) =
          .rejected ⟨.literal error, t⟩ := by
  constructor
  · intro what found failed
    obtain ⟨done, items, taken, rfl, before, halt⟩ := listing_halts failed
    cases halt with
    | @found front rest _ t begun =>
      have split : done ++ (front ++ [t] ++ rest) = (done ++ front) ++ t :: rest := by simp
      rw [split] at failed ⊢
      refine ⟨done ++ front, rfl, nofun, begun_viable before begun, ?_, fun ends => ?_⟩
      · rintro _ ⟨rfl⟩
        obtain ⟨taken, -, leaves, -⟩ := lasting_listing _ _ _ failed
        constructor
        · intro viable
          obtain ⟨rfl, minus⟩ := viable_at_fault failed viable
          exact ⟨minus, begun_awaits before begun, leaves rfl minus⟩
        · rintro ⟨minus, awaits, -⟩
          exact viable_sign awaits minus
      · exact unshaped_at_end failed (by simpa using ends t rfl)
    | missing begun =>
      refine ⟨done ++ taken, by simp, fun _ => rfl, begun_viable before begun, nofun, fun _ => ?_⟩
      rw [← List.append_assoc] at failed
      exact unshaped_at_end failed (by simp)
  · intro error t failed
    obtain ⟨done, items, taken, rfl, before, halt⟩ := listing_halts failed
    cases halt with
    | @refused front literal _ _ _ begun token =>
      have split : done ++ (front ++ literal ++ rest) = (done ++ front) ++ (literal ++ rest) := by
        simp
      refine ⟨done ++ front, literal, split, token, begun_awaits before begun, ?_, ?_⟩
      · exact refused_viable before begun token (by rwa [List.append_assoc] at failed)
      · intro text more
        obtain ⟨taken, same, -, again⟩ := lasting_listing _ _ _ failed
        obtain rfl : done ++ (front ++ literal) = taken :=
          List.append_cancel_right (by simpa using same)
        refine read_eq_rejected_iff.mpr ⟨.refused ⟨error, t⟩, more, ?_, rfl⟩
        simpa using again more trivial

/-- The tokens of `int int`. -/
def doubled : List Token :=
  [⟨.keyword .int, ⟨0, 3⟩, 1⟩, ⟨.keyword .int, ⟨4, 7⟩, 1⟩]

/-- The tokens of `fn f(-1`. -/
def negative : List Token :=
  [⟨.keyword .function, ⟨0, 2⟩, 1⟩, ⟨.identifier "f", ⟨3, 4⟩, 1⟩, ⟨.lparen, ⟨4, 5⟩, 1⟩,
    ⟨.minus, ⟨5, 6⟩, 1⟩, ⟨.integer 1, ⟨6, 7⟩, 1⟩]

/-- No listing starts with `int int`, although one starts with `int`; and one starts
with `fn f(-1` by its shape, but none that is read. -/
theorem doubled_word_impossible :
    (listing doubled = .error (.unexpected .identifier (some ⟨.keyword .int, ⟨4, 7⟩, 1⟩)) [] ∧
      Viable [⟨.keyword .int, ⟨0, 3⟩, 1⟩] ∧ ¬ Viable doubled) ∧
    listing negative = .error (.refused ⟨.negativeArity, ⟨.integer 1, ⟨5, 7⟩, 1⟩⟩) [] ∧
      Viable negative ∧ ∀ text more, Listing.read text (negative ++ more) =
        .rejected ⟨.literal .negativeArity, ⟨.integer 1, ⟨5, 7⟩, 1⟩⟩ := by
  constructor
  · have failed : listing doubled =
        .error (.unexpected .identifier (some ⟨.keyword .int, ⟨4, 7⟩, 1⟩)) [] :=
      (listing_cons (by simp)).trans rfl
    obtain ⟨front, split, -, viable, exact, -⟩ := (fault_at_first_impossible _ _).1 _ _ failed
    obtain ⟨rfl, -⟩ : [⟨.keyword .int, ⟨0, 3⟩, 1⟩] = front ∧ _ := List.append_inj' split rfl
    refine ⟨failed, viable, fun goes => ?_⟩
    cases ((exact _ rfl).mp goes).1
  · have failed : listing negative =
        .error (.refused ⟨.negativeArity, ⟨.integer 1, ⟨5, 7⟩, 1⟩⟩) [] :=
      (listing_cons (by simp)).trans rfl
    obtain ⟨front, literal, split, -, -, viable, again⟩ :=
      (fault_at_first_impossible _ _).2 _ _ failed
    rw [List.append_nil] at split
    refine ⟨failed, split ▸ viable, fun text more => ?_⟩
    rw [split, List.append_assoc]
    exact again text more

end DeclListing.ViablePrefixes
