import DeclListing.Proofs.BegunItems

/-! What a fault asks for can come. Where a reader fails for want of a token, a token
of the kind that it names and some more make a listing out of what was read before.
There is one exception: behind the equals sign of a kind that takes no integer the
reader of integers asks for one all the same, and then no integer helps. -/
namespace DeclListing.ExpectedTokens
open Reader ListingGrammarExactness BegunItems

variable {tokens rest front head : List Token} {t u closing arrow result stop : Token}
  {what : Expectation}

/-- What a terminal must be to meet an expectation. -/
theorem admits_iff {t : Terminal} : what.admits t = true ↔
    match what with
    | .semicolon => t = .semicolon
    | .lparen => t = .lparen
    | .rparen => t = .rparen
    | .arrow => t = .arrow
    | .identifier => ∃ name, t = .identifier name
    | .integer => ∃ magnitude, t = .integer magnitude
    | .valueKind => ∃ kind : ValueKind, t = .keyword kind.keyword := by
  cases what with
  | valueKind =>
    simp [Expectation.admits, Option.isSome_iff_exists, ValueKind.ofTerminal?_eq_some_iff]
  | _ => cases t <;> simp [Expectation.admits]

/-- A declaration up to its equals sign, of a kind that takes no integer. -/
def TakesNoInteger (front : List Token) : Prop :=
  ∃ before word t equal, ∃ kind : ValueKind, front = before ++ [word, t, equal] ∧
    word.terminal = .keyword kind.keyword ∧ equal.terminal = .equal ∧ kind.admits .integer = false

/-- A token made by hand. -/
def made (terminal : Terminal) : Token :=
  { terminal, span := ⟨0, 0⟩, line := 0 }

/-- A word that starts an item is that of a kind, or starts another item. -/
theorem keyword_cases (first : Keyword) :
    (∃ kind : ValueKind, first = kind.keyword) ∨ first = .function ∨ first = .reference ∨
      first = .call := by
  cases first with
  | int => exact .inl ⟨.int, rfl⟩
  | str => exact .inl ⟨.str, rfl⟩
  | intOrStr => exact .inl ⟨.intOrStr, rfl⟩
  | undefined => exact .inl ⟨.undefined, rfl⟩
  | function => exact .inr (.inl rfl)
  | reference => exact .inr (.inr (.inl rfl))
  | call => exact .inr (.inr (.inr rfl))

/-- A counted function is declared by a result and the end. -/
theorem counted_item {kind : ValueKind} (counted : Counted front)
    (closes : closing.terminal = .rparen) (points : arrow.terminal = .arrow)
    (ends : result.terminal = .keyword kind.keyword) (stops : stop.terminal = .semicolon) :
    ∃ i, Derives.Item (front ++ [closing, arrow, result, stop]) i := by
  obtain ⟨⟨opens, named, encloses⟩, derived⟩ := counted
  exact ⟨_, .function opens (.identifier named) encloses derived closes points ends (.of_kind kind)
    stops⟩

/-- An opened call is ended behind its arguments. -/
theorem call_item {found : List (Located String)} (opened : Opened .call head)
    (derived : Derives.Arguments tokens found) (closes : closing.terminal = .rparen)
    (stops : stop.terminal = .semicolon) :
    ∃ i, Derives.Item (head ++ (tokens ++ [closing, stop])) i := by
  obtain ⟨opens, named, encloses⟩ := opened
  exact ⟨_, .call opens (.identifier named) encloses derived closes stops⟩

/-- A name ends a list of names behind a comma. -/
theorem separated_names {name : String} (separated : Separated tokens)
    (named : t.terminal = .identifier name) : ∃ found, Derives.Names (tokens ++ [t]) found := by
  induction separated with
  | none => exact ⟨_, .last (.identifier named)⟩
  | more first separates _ ih =>
    obtain ⟨found, derived⟩ := ih
    exact ⟨_, .more (.identifier first) separates derived⟩

/-- Digits of value zero are the integer zero. -/
private theorem zero_integer (digits : u.terminal = .integer 0) : Derives.Integer [u] 0 :=
  .plain digits

private theorem function_completed (opened : Opened .function head) :
    ∃ more i, Derives.Item (head ++ more) i := by
  have counted : Counted (head ++ [made (.integer 0)]) :=
    @Counted.counted _ _ 0 opened (zero_integer rfl)
  obtain ⟨i, derived⟩ := @counted_item _ (made .rparen) (made .arrow) (made (.keyword .int))
    (made .semicolon) .int counted rfl rfl rfl rfl
  exact ⟨_, i, by rwa [List.append_assoc] at derived⟩

private theorem call_completed (opened : Opened .call head) :
    ∃ more i, Derives.Item (head ++ more) i :=
  ⟨_, @call_item _ _ (made .rparen) (made .semicolon) _ opened .none rfl rfl⟩

/-- Tokens that begin an item go on to one with any token that is asked for, but for
a number that is too large and an integer that the kind does not take. -/
theorem begun_completed (begun : Begun front what) (meets : what.admits u.terminal = true)
    (small : ∀ magnitude, u.terminal = .integer magnitude → magnitude = 0)
    (taken : what = .integer → ¬ TakesNoInteger front) :
    ∃ more i, Derives.Item (front ++ u :: more) i := by
  have meant := admits_iff.mp meets
  cases begun with
  | start =>
    obtain ⟨kind, opens⟩ := meant
    exact ⟨[made (.identifier "x"), made .semicolon], _,
      .plain opens (.of_kind kind) (.identifier rfl) rfl⟩
  | @name word first opens =>
    obtain ⟨name, named⟩ := meant
    rcases keyword_cases first with ⟨kind, rfl⟩ | rfl | rfl | rfl
    · exact ⟨[made .semicolon], _, .plain opens (.of_kind kind) (.identifier named) rfl⟩
    · have opened : Opened .function [word, u, made .lparen] := .opened opens named rfl
      obtain ⟨more, i, derived⟩ := function_completed opened
      exact ⟨made .lparen :: more, i, derived⟩
    · exact ⟨[made .semicolon], _, .reference opens (.identifier named) rfl⟩
    · have opened : Opened .call [word, u, made .lparen] := .opened opens named rfl
      obtain ⟨more, i, derived⟩ := call_completed opened
      exact ⟨made .lparen :: more, i, derived⟩
  | @initializer word t equal kind name opens named assigns =>
    obtain ⟨magnitude, digits⟩ := meant
    obtain rfl := small magnitude digits
    -- Only here can a token meet what is asked for and be refused all the same.
    have admitted : kind.admits (Literal.integer 0).sort = true := by
      by_contra refused
      exact taken rfl
        ⟨[], word, t, equal, kind, rfl, opens, assigns, Bool.eq_false_iff.mpr refused⟩
    have literal : Derives.Literal [u] (.integer 0) := .integer (zero_integer digits)
    exact ⟨[made .semicolon], _,
      .initialized opens (.of_kind admitted) (.identifier named) assigns literal rfl⟩
  | valueStop opens named derived =>
    cases derived with
    | absent => exact ⟨[], _, .plain opens (.of_kind _) (.identifier named) meant⟩
    | present assigns literal admitted =>
      exact ⟨[], _,
        .initialized opens (.of_kind admitted) (.identifier named) assigns literal meant⟩
  | referenceStop opens named => exact ⟨[], _, .reference opens (.identifier named) meant⟩
  | opening opens which named =>
    rcases which with rfl | rfl
    · exact function_completed (.opened opens named meant)
    · exact call_completed (.opened opens named meant)
  | arity opened =>
    obtain ⟨magnitude, digits⟩ := meant
    obtain rfl := small magnitude digits
    have counted : Counted (front ++ [u]) := @Counted.counted _ _ 0 opened (zero_integer digits)
    obtain ⟨i, derived⟩ := @counted_item _ (made .rparen) (made .arrow) (made (.keyword .int))
      (made .semicolon) .int counted rfl rfl rfl rfl
    exact ⟨_, i, by rwa [List.append_assoc] at derived⟩
  | arityClosing counted =>
    exact ⟨_, @counted_item _ u (made .arrow) (made (.keyword .int)) (made .semicolon) .int
      counted meant rfl rfl rfl⟩
  | arrow counted closes =>
    obtain ⟨i, derived⟩ := @counted_item _ _ u (made (.keyword .int)) (made .semicolon) .int
      counted closes meant rfl rfl
    exact ⟨_, i, by rwa [List.append_assoc]⟩
  | result counted closes points =>
    obtain ⟨kind, ends⟩ := meant
    obtain ⟨i, derived⟩ := @counted_item _ _ _ u (made .semicolon) kind counted closes points
      ends rfl
    exact ⟨_, i, by rwa [List.append_assoc]⟩
  | functionStop counted closes points ends =>
    obtain ⟨i, derived⟩ := counted_item counted closes points ends meant
    exact ⟨[], i, by rwa [List.append_assoc]⟩
  | argument opened separated =>
    obtain ⟨name, named⟩ := meant
    obtain ⟨found, derived⟩ := separated_names separated named
    obtain ⟨i, derived⟩ := @call_item _ _ (made .rparen) (made .semicolon) _ opened (.some derived)
      rfl rfl
    exact ⟨_, i, by simpa using derived⟩
  | argumentsClosing opened derived =>
    obtain ⟨i, derived⟩ := @call_item _ _ u (made .semicolon) _ opened (.some derived) meant rfl
    exact ⟨_, i, by rwa [List.append_assoc]⟩
  | callStop opened derived closes =>
    obtain ⟨i, derived⟩ := call_item opened derived closes meant
    exact ⟨[], i, by simpa using derived⟩

/-- For whatever is asked, there is a token that meets it. -/
theorem exists_admitted (what : Expectation) : ∃ u : Token, what.admits u.terminal = true ∧
    ∀ magnitude, u.terminal = .integer magnitude → magnitude = 0 := by
  cases what with
  | semicolon => exact ⟨made .semicolon, rfl, nofun⟩
  | lparen => exact ⟨made .lparen, rfl, nofun⟩
  | rparen => exact ⟨made .rparen, rfl, nofun⟩
  | arrow => exact ⟨made .arrow, rfl, nofun⟩
  | identifier => exact ⟨made (.identifier "x"), rfl, nofun⟩
  | integer =>
    refine ⟨made (.integer 0), rfl, ?_⟩
    rintro magnitude ⟨⟩
    rfl
  | valueKind => exact ⟨made (.keyword .int), rfl, nofun⟩

private theorem keyword_inj {kind kind' : ValueKind} (same : kind.keyword = kind'.keyword) :
    kind = kind' := by
  cases kind <;> cases kind' <;> first | rfl | cases same

/-- Behind the equals sign of a kind that takes no integer, no integer makes an item. -/
theorem integer_not_taken {word equal : Token} {kind : ValueKind} {magnitude : UInt64} {i : Item}
    {segment more : List Token} (opens : word.terminal = .keyword kind.keyword)
    (assigns : equal.terminal = .equal) (refuses : kind.admits .integer = false)
    (digits : u.terminal = .integer magnitude)
    (split : word :: t :: equal :: u :: more = segment ++ rest) : ¬ Derives.Item segment i := by
  intro derived
  cases derived with
  | plain _ _ _ stops | reference _ _ stops =>
    simp only [List.cons_append, List.cons.injEq] at split
    obtain ⟨-, -, rfl, -⟩ := split
    rw [assigns] at stops
    cases stops
  | function _ _ encloses | call _ _ encloses =>
    simp only [List.cons_append, List.cons.injEq] at split
    obtain ⟨-, -, rfl, -⟩ := split
    rw [assigns] at encloses
    cases encloses
  | initialized opens' initializes _ _ literal =>
    simp only [List.cons_append, List.cons.injEq] at split
    obtain ⟨rfl, -, -, split⟩ := split
    rw [opens, Terminal.keyword.injEq] at opens'
    obtain ⟨other, rfl, admitted, -⟩ := Derives.initializes_iff.mp initializes
    obtain rfl := keyword_inj opens'
    cases literal with
    | integer =>
      rw [Literal.sort, refuses] at admitted
      cases admitted
    | string quoted =>
      obtain ⟨rfl, -⟩ := List.cons.inj split
      rw [digits] at quoted
      cases quoted

/-- An integer is asked for behind an equals sign, or as a number of parameters. -/
theorem begun_integer (begun : Begun front .integer) :
    (∃ word t equal, ∃ kind : ValueKind, front = [word, t, equal] ∧
      word.terminal = .keyword kind.keyword ∧ equal.terminal = .equal) ∨
    Opened .function front := by
  cases begun with
  | initializer opens _ assigns => exact .inl ⟨_, _, _, _, rfl, opens, assigns⟩
  | arity opened => exact .inr opened

/-- Where an item of a kind that takes no integer was begun, no integer goes on
to an item. -/
theorem begun_refuses {segment more : List Token} {i : Item} {done : List Token}
    (begun : Begun front .integer) (refuses : TakesNoInteger (done ++ front))
    (meets : Expectation.integer.admits u.terminal = true)
    (split : front ++ u :: more = segment ++ rest) : ¬ Derives.Item segment i := by
  obtain ⟨magnitude, digits⟩ := admits_iff.mp meets
  obtain ⟨before, word, t, equal, kind, same, opens, assigns, refuses⟩ := refuses
  rcases begun_integer begun with ⟨word', t', equal', kind', rfl, -, -⟩ | ⟨-, -, encloses⟩
  · obtain ⟨-, same⟩ := List.append_inj' same rfl
    simp only [List.cons.injEq, and_true] at same
    obtain ⟨rfl, rfl, rfl⟩ := same
    exact integer_not_taken opens assigns refuses digits split
  · obtain ⟨-, same⟩ := List.append_inj' same rfl
    simp only [List.cons.injEq, and_true] at same
    obtain ⟨-, -, rfl⟩ := same
    rw [assigns] at encloses
    cases encloses

/-- Whole items and one more are a listing. -/
theorem listing_snoc {done segment : List Token} {items : Listing} {i : Item}
    (before : Derives.Listing done items) (derived : Derives.Item segment i) :
    listing (done ++ segment) = .ok (items ++ [i]) [] := by
  have nothing : listing [] = .ok [] [] := by rw [listing]
  have last : listing (segment ++ []) = .ok [i] [] := by
    rw [listing_item derived]
    exact map_eq_ok_iff.mpr ⟨[], nothing, rfl⟩
  rw [List.append_nil] at last
  rw [listing_segment before]
  exact map_eq_ok_iff.mpr ⟨[i], last, rfl⟩

/-- A listing that starts with whole items and goes on with something goes on
with an item. -/
theorem item_follows {done : List Token} {items found : Listing}
    (before : Derives.Listing done items) (goes : t.terminal ≠ .eof)
    (read : listing (done ++ t :: head) = .ok found rest) :
    ∃ segment more i, t :: head = segment ++ more ∧ Derives.Item segment i := by
  rw [listing_segment before] at read
  obtain ⟨later, inner, -⟩ := map_eq_ok_iff.mp read
  rw [listing_cons goes] at inner
  obtain ⟨i, more, step, -⟩ := bind_eq_ok_iff.mp inner
  obtain ⟨segment, split, derived⟩ := item_sound step
  exact ⟨segment, more, i, split, derived⟩

/-- Tokens that are read for an integer start with a word. -/
private theorem begun_word (begun : Begun front .integer) :
    ∃ word others, front = word :: others ∧ word.terminal ≠ .eof := by
  rcases begun_integer begun with ⟨word, t, equal, kind, rfl, opens, -⟩ | ⟨opens, -, -⟩
  · exact ⟨word, _, rfl, by simp [opens]⟩
  · exact ⟨_, _, rfl, by simp [opens]⟩

private theorem begun_goes_on {done : List Token} {items : Listing}
    (before : Derives.Listing done items) (begun : Begun front what)
    (taken : ¬ (what = .integer ∧ TakesNoInteger (done ++ front))) :
    ∃ u more items, what.admits u.terminal = true ∧
      ∀ text, Listing.read text (done ++ front ++ u :: more) = .items items := by
  obtain ⟨u, meets, small⟩ := exists_admitted what
  have open_kind : what = .integer → ¬ TakesNoInteger front := by
    rintro rfl ⟨first, word, t, equal, kind, rfl, facts⟩
    exact taken ⟨rfl, done ++ first, word, t, equal, kind, (List.append_assoc ..).symm, facts⟩
  obtain ⟨more, i, derived⟩ := begun_completed begun meets small open_kind
  have whole := listing_snoc before derived
  rw [← List.append_assoc] at whole
  exact ⟨u, more, _, meets, fun text => read_eq_items_iff.mpr ⟨[], whole⟩⟩

private theorem begun_stuck {done more : List Token} {items found : Listing}
    (before : Derives.Listing done items) (begun : Begun front .integer)
    (refuses : TakesNoInteger (done ++ front))
    (meets : Expectation.integer.admits u.terminal = true) (text : List Char) :
    Listing.read text (done ++ front ++ u :: more) ≠ .items found := by
  intro read
  obtain ⟨rest, read⟩ := read_eq_items_iff.mp read
  obtain ⟨word, others, first, goes⟩ := begun_word begun
  rw [List.append_assoc, first, List.cons_append] at read
  obtain ⟨segment, left, i, split, derived⟩ := item_follows before goes read
  rw [← List.cons_append, ← first] at split
  exact begun_refuses begun refuses meets split derived

/-- Where something else had to come, a token that meets what is asked for makes a
listing of the tokens before it, with some more behind it; this fails where an integer
is asked for behind the equals sign of a kind that takes none, and nowhere else. -/
theorem expected_token_exact {found : Option Token}
    (read : listing tokens = .error (.unexpected what found) rest) :
    ∃ front, tokens = front ++ (found.toList ++ rest) ∧ (found = none → rest = []) ∧
      ((∃ u more items, what.admits u.terminal = true ∧
          ∀ text, Listing.read text (front ++ u :: more) = .items items) ↔
        ¬ (what = .integer ∧ TakesNoInteger front)) := by
  obtain ⟨done, items, taken, rfl, before, halt⟩ := listing_halts read
  obtain ⟨front, begun, split, ended⟩ : ∃ front, Begun front what ∧
      taken ++ rest = front ++ (found.toList ++ rest) ∧ (found = none → rest = []) := by
    cases halt with
    | found t begun => exact ⟨_, begun, by simp, nofun⟩
    | missing begun => exact ⟨_, begun, by simp, fun _ => rfl⟩
  refine ⟨done ++ front, by rw [split, List.append_assoc], ended, ?_, begun_goes_on before begun⟩
  rintro ⟨u, more, items, meets, goes⟩ ⟨rfl, refuses⟩
  exact begun_stuck before begun refuses meets [] (goes [])

/-- The tokens of `int x`. -/
def unended : List Token :=
  [⟨.keyword .int, ⟨0, 3⟩, 1⟩, ⟨.identifier "x", ⟨4, 5⟩, 1⟩]

/-- Behind `int x` the semicolon that is asked for can come. -/
theorem missing_semicolon_can_come :
    listing unended = .error (.unexpected .semicolon none) [] ∧
      ∃ u more items, u.terminal = .semicolon ∧
        ∀ text, Listing.read text (unended ++ u :: more) = .items items := by
  have read : listing unended = .error (.unexpected .semicolon none) [] :=
    (listing_cons (by simp)).trans rfl
  obtain ⟨front, split, -, exact⟩ := expected_token_exact read
  obtain ⟨u, more, items, meets, goes⟩ := exact.mpr nofun
  rw [Option.toList_none, List.append_nil, List.append_nil] at split
  rw [← split] at goes
  exact ⟨read, u, more, items, admits_iff.mp meets, goes⟩

/-- The tokens of `str s =`. -/
def unnumbered : List Token :=
  [⟨.keyword .str, ⟨0, 3⟩, 1⟩, ⟨.identifier "s", ⟨4, 5⟩, 1⟩, ⟨.equal, ⟨6, 7⟩, 1⟩]

/-- Behind `str s =` an integer is asked for, and none can come. -/
theorem integer_asked_for_in_vain :
    ¬ ∀ tokens rest what found, listing tokens = .error (.unexpected what found) rest →
      ∃ front u more items, tokens = front ++ (found.toList ++ rest) ∧
        what.admits u.terminal = true ∧
        ∀ text, Listing.read text (front ++ u :: more) = .items items := by
  intro claimed
  have read : listing (unnumbered ++ [⟨.semicolon, ⟨8, 9⟩, 1⟩]) =
      .error (.unexpected .integer (some ⟨.semicolon, ⟨8, 9⟩, 1⟩)) [] :=
    (listing_cons (by simp)).trans rfl
  obtain ⟨front, u, more, items, split, meets, goes⟩ := claimed _ _ _ _ read
  obtain ⟨rfl, -⟩ := List.append_inj' split rfl
  have begun : Begun unnumbered .integer := @Begun.initializer _ _ _ .str _ rfl rfl rfl
  have refuses : TakesNoInteger unnumbered := ⟨[], _, _, _, .str, rfl, rfl, rfl, rfl⟩
  exact begun_stuck .nothing begun refuses meets [] (goes [])

end DeclListing.ExpectedTokens
