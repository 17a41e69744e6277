import DeclListing.Proofs.ListingGrammarExactness

/-! A fault is found as soon as it is there. What comes behind the token at which
reading stopped is not looked at, so the same tokens with anything else behind them
stop there with the same fault. There is one exception, the sign that is no integer's:
it was told from one that is by the token behind it. Where the tokens ran out, nothing
may come behind. -/
namespace DeclListing.LastingFaults
open Reader ListingGrammarExactness

variable {α β γ : Type} {tokens rest taken : List Token} {t : Token} {fault : Fault}
  {what : Expectation}

/-- The next token is not the digits of an integer. -/
def NoDigits (more : List Token) : Prop :=
  ∀ u ∈ more.head?, ∀ magnitude, u.terminal ≠ .integer magnitude

/-- What may come behind the tokens that a fault took, for the fault to stay. -/
def Leaves : Fault → List Token → Prop
  | .unexpected _ none, more => more = []
  | .unexpected what (some t), more => what = .integer → t.terminal = .minus → NoDigits more
  | .refused _, _ => True

/-- What was read is read again whatever comes behind the tokens it was read from. -/
def Prompt (r : Reader α) : Prop :=
  ∀ tokens a rest, r tokens = .ok a rest →
    ∃ taken, tokens = taken ++ rest ∧ ∀ more, r (taken ++ more) = .ok a more

/-- A fault is found again whatever it leaves open behind the tokens that it took. -/
def Lasting (r : Reader α) : Prop :=
  ∀ tokens fault rest, r tokens = .error fault rest →
    ∃ taken, tokens = taken ++ rest ∧ Leaves fault rest ∧
      ∀ more, Leaves fault more → r (taken ++ more) = .error fault more

theorem leaves_nothing (fault : Fault) : Leaves fault [] := by
  rcases fault with ⟨what, _ | t⟩ | e
  · rfl
  · intro _ _ u listed
    cases listed
  · trivial

theorem leaves_unexpected (other : what ≠ .integer) (more : List Token) :
    Leaves (.unexpected what (some t)) more :=
  fun same => absurd same other

/-- A reader that misses a token where there is none takes one before it finds any
other fault. -/
theorem ran_out {r : Reader α} (ran : r [] = .error (.unexpected what none) [])
    (again : ∀ more, Leaves fault more → r more = .error fault more) :
    fault = .unexpected what none := by
  have same := again [] (leaves_nothing fault)
  rw [ran] at same
  cases same
  rfl

theorem Lasting.bind {r : Reader α} {f : α → Reader β} (prompt : Prompt r) (first : Lasting r)
    (next : ∀ a, Lasting (f a)) : Lasting (r >>= f) := by
  intro tokens fault rest failed
  rcases bind_eq_error_iff.mp failed with failed | ⟨a, middle, read, later⟩
  · obtain ⟨taken, split, leaves, again⟩ := first _ _ _ failed
    exact ⟨taken, split, leaves, fun more left => bind_eq_error_iff.mpr (.inl (again more left))⟩
  · obtain ⟨front, rfl, reads⟩ := prompt _ _ _ read
    obtain ⟨taken, rfl, leaves, again⟩ := next a _ _ _ later
    refine ⟨front ++ taken, (List.append_assoc ..).symm, leaves, fun more left => ?_⟩
    rw [List.append_assoc]
    exact bind_eq_error_iff.mpr (.inr ⟨a, _, reads _, again more left⟩)

theorem lasting_pure (a : α) : Lasting (pure a : Reader α) := by
  intro tokens fault rest failed
  cases failed

theorem lasting_throw (e : Located LiteralError) : Lasting (throw (.refused e) : Reader α) := by
  intro tokens fault rest failed
  cases failed
  exact ⟨[], rfl, trivial, fun more _ => rfl⟩

theorem Prompt.map {r : Reader α} {f : α → β} (prompt : Prompt r) : Prompt (f <$> r) := by
  intro tokens b rest read
  obtain ⟨a, inner, rfl⟩ := map_eq_ok_iff.mp read
  obtain ⟨taken, split, again⟩ := prompt _ _ _ inner
  exact ⟨taken, split, fun more => map_eq_ok_iff.mpr ⟨a, again more, rfl⟩⟩

theorem Lasting.map {r : Reader α} {f : α → β} (lasting : Lasting r) : Lasting (f <$> r) := by
  intro tokens fault rest failed
  obtain ⟨taken, split, leaves, again⟩ := lasting _ _ _ (map_eq_error_iff.mp failed)
  exact ⟨taken, split, leaves, fun more left => map_eq_error_iff.mpr (again more left)⟩

theorem prompt_take (what : Expectation) (value? : Terminal → Option α) :
    Prompt (take what value?) := by
  intro tokens a rest read
  obtain ⟨rfl, means⟩ := take_eq_ok_iff.mp read
  exact ⟨[a.token], rfl, fun more => take_eq_ok_iff.mpr ⟨rfl, means⟩⟩

theorem lasting_take (other : what ≠ .integer) (value? : Terminal → Option α) :
    Lasting (take what value?) := by
  intro tokens fault rest failed
  cases tokens with
  | nil =>
    cases failed
    exact ⟨[], rfl, rfl, by rintro more rfl; rfl⟩
  | cons t tail =>
    simp only [take] at failed
    split at failed
    · cases failed
    · rename_i means
      cases failed
      exact ⟨[t], rfl, leaves_unexpected other _, fun more _ => by simp [take, means]⟩

/-- A token goes on to what is read behind it. -/
theorem lasting_token {value? : Terminal → Option α} {f : Located α → Reader β}
    (other : what ≠ .integer) (next : ∀ a, Lasting (f a)) : Lasting (take what value? >>= f) :=
  .bind (prompt_take what value?) (lasting_take other value?) next

/-- A reader may look at the token behind what it takes, where that token is taken next
or is at fault. -/
theorem lasting_stop {r : Reader α} {value? : Terminal → Option β} {g : α → Located β → γ}
    (other : what ≠ .integer)
    (looks : ∀ tokens a rest, r tokens = .ok a rest → ∃ taken, tokens = taken ++ rest ∧
      ∀ more, more.head? = rest.head? → r (taken ++ more) = .ok a more)
    (first : Lasting r) :
    Lasting (r >>= fun a => take what value? >>= fun b => pure (g a b)) := by
  intro tokens fault rest failed
  rcases bind_eq_error_iff.mp failed with failed | ⟨a, middle, read, later⟩
  · obtain ⟨taken, split, leaves, again⟩ := first _ _ _ failed
    exact ⟨taken, split, leaves, fun more left => bind_eq_error_iff.mpr (.inl (again more left))⟩
  · obtain ⟨front, rfl, reads⟩ := looks _ _ _ read
    have stop : Lasting (take what value? >>= fun b => pure (g a b)) :=
      lasting_token other fun _ => lasting_pure _
    obtain ⟨taken, rfl, leaves, again⟩ := stop _ _ _ later
    refine ⟨front ++ taken, (List.append_assoc ..).symm, leaves, fun more left => ?_⟩
    rw [List.append_assoc]
    refine bind_eq_error_iff.mpr (.inr ⟨a, _, reads _ ?_, again more left⟩)
    -- The token that was looked at is the one at fault, or none was left.
    cases taken with
    | cons t taken => rfl
    | nil =>
      have none : fault = .unexpected what none :=
        ran_out (r := take what value? >>= fun b => pure (g a b)) rfl again
      rw [none] at leaves left
      rw [show more = [] from left, show rest = [] from leaves]

/-- Where a first token decides on a reader that misses a token where there is none,
that token is taken. -/
theorem prompt_at {r : Reader α} (inner : Reader α) {a : α} {tail : List Token}
    (ran : inner [] = .error (.unexpected what none) []) (prompt : Prompt inner)
    (same : ∀ more, r (t :: more) = inner (t :: more)) (read : r (t :: tail) = .ok a rest) :
    ∃ taken, t :: tail = taken ++ rest ∧ ∀ more, r (taken ++ more) = .ok a more := by
  rw [same] at read
  obtain ⟨taken, split, again⟩ := prompt _ _ _ read
  cases taken with
  | nil =>
    have nothing := again []
    rw [List.append_nil, ran] at nothing
    cases nothing
  | cons u taken =>
    obtain ⟨rfl, rfl⟩ := List.cons.inj split
    exact ⟨t :: taken, rfl, fun more => (same _).trans (again more)⟩

theorem lasting_at {r : Reader α} (inner : Reader α) {tail : List Token}
    (ran : inner [] = .error (.unexpected what none) []) (lasting : Lasting inner)
    (same : ∀ more, r (t :: more) = inner (t :: more)) (failed : r (t :: tail) = .error fault rest) :
    ∃ taken, t :: tail = taken ++ rest ∧ Leaves fault rest ∧
      ∀ more, Leaves fault more → r (taken ++ more) = .error fault more := by
  rw [same] at failed
  obtain ⟨taken, split, leaves, again⟩ := lasting _ _ _ failed
  cases taken with
  | nil =>
    rw [ran_out ran again] at leaves
    rw [show rest = [] from leaves] at split
    cases split
  | cons u taken =>
    obtain ⟨rfl, rfl⟩ := List.cons.inj split
    exact ⟨t :: taken, rfl, leaves, fun more left => (same _).trans (again more left)⟩

theorem prompt_fitted (value : Int) (token : Token) : Prompt (fitted value token) := by
  intro tokens n rest read
  obtain ⟨same, placed, rfl⟩ := fitted_eq_ok_iff.mp read
  exact ⟨[], rfl, fun more => fitted_eq_ok_iff.mpr ⟨same, placed, rfl⟩⟩

theorem lasting_fitted (value : Int) (token : Token) : Lasting (fitted value token) := by
  intro tokens fault rest failed
  unfold fitted at failed
  split at failed
  · cases failed
  · rename_i large
    cases failed
    exact ⟨[], rfl, trivial, fun more _ => if_neg large⟩

theorem prompt_integer : Prompt integer := by
  intro tokens n rest read
  unfold integer at read
  split at read
  · obtain ⟨taken, rfl, again⟩ := prompt_fitted _ _ _ _ _ read
    exact ⟨_ :: _ :: taken, rfl, again⟩
  · obtain ⟨taken, rfl, again⟩ := prompt_fitted _ _ _ _ _ read
    exact ⟨_ :: taken, rfl, again⟩
  · cases read
  · cases read

theorem lasting_integer : Lasting integer := by
  intro tokens fault rest failed
  unfold integer at failed
  split at failed
  · obtain ⟨taken, rfl, leaves, again⟩ := lasting_fitted _ _ _ _ _ failed
    exact ⟨_ :: _ :: taken, rfl, leaves, again⟩
  · obtain ⟨taken, rfl, leaves, again⟩ := lasting_fitted _ _ _ _ _ failed
    exact ⟨_ :: taken, rfl, leaves, again⟩
  · rename_i t rest signed plain
    cases failed
    have leaves : Leaves (.unexpected .integer (some t)) rest := by
      intro _ minus u head magnitude digits
      obtain ⟨more, rfl⟩ := List.head?_eq_some_iff.mp head
      obtain ⟨terminal, span, line⟩ := t
      obtain ⟨terminal, digitSpan, digitLine⟩ := u
      subst minus digits
      exact signed _ _ _ _ _ _ rfl rfl
    refine ⟨[t], rfl, leaves, fun more left => ?_⟩
    rw [List.cons_append, List.nil_append, integer]
    · rintro sign signLine value digits line others rfl rfl
      exact left rfl rfl _ rfl value rfl
    · rintro value digits line rfl
      exact plain _ _ _ rfl
  · cases failed
    exact ⟨[], rfl, rfl, by rintro more rfl; rfl⟩

/-- A literal that does not start with a string is an integer. -/
private theorem literal_cases (t : Token) :
    (∃ value, ∀ more, literal (t :: more) = .ok ⟨.string value, t⟩ more) ∨
      ∀ more, literal (t :: more) = (Located.map Literal.integer <$> integer) (t :: more) := by
  obtain ⟨terminal, span, line⟩ := t
  cases terminal with
  | string value => exact .inl ⟨value, fun _ => rfl⟩
  | _ => exact .inr fun _ => rfl

theorem prompt_literal : Prompt literal := by
  intro tokens value rest read
  cases tokens with
  | nil => cases read
  | cons t tail =>
    rcases literal_cases t with ⟨string, quoted⟩ | digits
    · rw [quoted] at read
      cases read
      exact ⟨[t], rfl, quoted⟩
    · exact prompt_at (Located.map Literal.integer <$> integer) rfl prompt_integer.map digits read

theorem lasting_literal : Lasting literal := by
  intro tokens fault rest failed
  cases tokens with
  | nil =>
    cases failed
    exact ⟨[], rfl, rfl, by rintro more rfl; rfl⟩
  | cons t tail =>
    rcases literal_cases t with ⟨string, quoted⟩ | digits
    · rw [quoted] at failed
      cases failed
    · exact lasting_at (Located.map Literal.integer <$> integer) rfl lasting_integer.map digits failed

theorem lasting_names : Lasting names := by
  intro tokens fault rest failed
  fun_induction names tokens with
  | case1 => cases failed
  | case2 name span line commaSpan commaLine tail fault after read ih =>
    cases failed
    obtain ⟨taken, rfl, leaves, again⟩ := ih read
    refine ⟨_ :: _ :: taken, rfl, leaves, fun more left => ?_⟩
    rw [List.cons_append, List.cons_append, names, again more left]
  | case3 => cases failed
  | case4 t rest _ other =>
    cases failed
    refine ⟨[t], rfl, leaves_unexpected (by decide) _, fun more _ => ?_⟩
    rw [List.cons_append, List.nil_append, names]
    · rintro name span line _ _ _ rfl
      exact absurd rfl (other name span line)
    · exact other
  | case5 =>
    cases failed
    exact ⟨[], rfl, rfl, by rintro more rfl; rfl⟩

/-- The token behind the last name decides that no more names come. -/
theorem names_look : ∀ tokens found rest, names tokens = .ok found rest →
    ∃ taken, tokens = taken ++ rest ∧
      ∀ more, more.head? = rest.head? → names (taken ++ more) = .ok found more := by
  intro tokens found rest read
  obtain ⟨⟨taken, rfl, derived⟩, stops⟩ := names_eq_ok_iff.mp read
  exact ⟨taken, rfl, fun more same =>
    names_eq_ok_iff.mpr ⟨⟨taken, rfl, derived⟩, same ▸ stops⟩⟩

theorem prompt_arguments : Prompt arguments := by
  intro tokens found rest read
  obtain ⟨taken, closing, rfl, derived, closes⟩ := arguments_eq_ok_iff.mp read
  refine ⟨taken ++ [closing], by simp, fun more => ?_⟩
  exact arguments_eq_ok_iff.mpr ⟨taken, closing, by simp, derived, closes⟩

theorem lasting_arguments : Lasting arguments := by
  intro tokens fault rest failed
  let some : Reader (List (Located String)) :=
    names >>= fun args => punctuation .rparen .rparen >>= fun _ => pure args
  have inner : Lasting some := lasting_stop (by decide) names_look lasting_names
  cases tokens with
  | nil =>
    cases failed
    exact ⟨[], rfl, rfl, by rintro more rfl; rfl⟩
  | cons t tail =>
    by_cases closes : t.terminal = .rparen
    · obtain ⟨terminal, span, line⟩ := t
      subst closes
      cases failed
    · refine lasting_at some rfl inner (fun more => ?_) failed
      rw [arguments]
      rintro span line _ ⟨rfl, rfl⟩
      exact closes rfl

/-! ## Items -/

/-- The token behind a declared name decides whether there is an initializer. -/
theorem initializer_looks (kind : ValueKind) : ∀ tokens info rest,
    initializer kind tokens = .ok info rest → ∃ taken, tokens = taken ++ rest ∧
      ∀ more, more.head? = rest.head? → initializer kind (taken ++ more) = .ok info more := by
  intro tokens info rest read
  unfold initializer at read
  split at read
  · rename_i span line tail
    obtain ⟨value, middle, inner, checked⟩ := bind_eq_ok_iff.mp read
    obtain ⟨taken, rfl, again⟩ := prompt_literal _ _ _ inner
    split at checked
    · rename_i admitted
      obtain ⟨rfl, rfl⟩ := pure_eq_ok_iff.mp checked
      refine ⟨⟨.equal, span, line⟩ :: taken, rfl, fun more _ => ?_⟩
      refine bind_eq_ok_iff.mpr ⟨value, more, again more, ?_⟩
      rw [if_pos admitted]
      rfl
    · cases checked
  · rename_i absent
    cases read
    refine ⟨[], rfl, fun more same => ?_⟩
    rw [List.nil_append, initializer]
    rintro span line tail rfl
    obtain ⟨others, rfl⟩ := List.head?_eq_some_iff.mp same.symm
    exact absent span line others rfl

theorem lasting_initializer (kind : ValueKind) : Lasting (initializer kind) := by
  intro tokens fault rest failed
  unfold initializer at failed
  split at failed
  · have checked : Lasting (literal >>= fun value =>
        if kind.admits value.value.sort then pure (kind.infoWith value.value)
        else throw (.refused ⟨.kindMismatch kind value.value.sort, value.token⟩)) := by
      refine .bind prompt_literal lasting_literal fun value => ?_
      split
      · exact lasting_pure _
      · exact lasting_throw _
    obtain ⟨taken, rfl, leaves, again⟩ := checked _ _ _ failed
    exact ⟨_ :: taken, rfl, leaves, again⟩
  · cases failed

theorem lasting_value_declaration : Lasting valueDeclaration := by
  refine lasting_token (by decide) fun kind => ?_
  refine lasting_token (by decide) fun name => ?_
  exact lasting_stop (by decide) (initializer_looks kind.value) (lasting_initializer kind.value)

theorem prompt_arity (n : Located Int64) : Prompt (arity n) := by
  intro tokens params rest read
  obtain ⟨same, rfl⟩ := arity_eq_ok_iff.mp read
  exact ⟨[], rfl, fun more => arity_eq_ok_iff.mpr ⟨same, rfl⟩⟩

theorem lasting_arity (n : Located Int64) : Lasting (arity n) := by
  unfold arity
  split
  · exact lasting_throw _
  · split
    · exact lasting_throw _
    · exact lasting_pure _

theorem lasting_function_declaration : Lasting functionDeclaration := by
  refine lasting_token (by decide) fun name => ?_
  refine lasting_token (by decide) fun opening => ?_
  refine .bind prompt_integer lasting_integer fun n => ?_
  refine .bind (prompt_arity n) (lasting_arity n) fun params => ?_
  refine lasting_token (by decide) fun closing => ?_
  refine lasting_token (by decide) fun arrow => ?_
  refine lasting_token (by decide) fun result => ?_
  exact lasting_token (by decide) fun stop => lasting_pure _

theorem lasting_reference : Lasting reference := by
  refine lasting_token (by decide) fun name => ?_
  exact lasting_token (by decide) fun stop => lasting_pure _

theorem lasting_call : Lasting call := by
  refine lasting_token (by decide) fun callee => ?_
  refine lasting_token (by decide) fun opening => ?_
  refine .bind prompt_arguments lasting_arguments fun args => ?_
  exact lasting_token (by decide) fun stop => lasting_pure _

/-- An item that does not start with the word of another starts with a kind. -/
private theorem item_cases (t : Token) :
    (t.terminal = .keyword .function ∨ t.terminal = .keyword .reference ∨
      t.terminal = .keyword .call) ∨ ∀ more, item (t :: more) = valueDeclaration (t :: more) := by
  obtain ⟨terminal, span, line⟩ := t
  cases terminal with
  | keyword first => cases first <;> simp [item]
  | _ => exact .inr fun _ => rfl

theorem lasting_item : Lasting item := by
  intro tokens fault rest failed
  cases tokens with
  | nil =>
    cases failed
    exact ⟨[], rfl, rfl, by rintro more rfl; rfl⟩
  | cons word tail =>
    rcases item_cases word with (opens | opens | opens) | opens
    · rw [item_dispatch.1 opens] at failed
      obtain ⟨taken, rfl, leaves, again⟩ := lasting_function_declaration _ _ _ failed
      exact ⟨word :: taken, rfl, leaves, fun more left =>
        (item_dispatch.1 opens).trans (again more left)⟩
    · rw [item_dispatch.2.1 opens] at failed
      obtain ⟨taken, rfl, leaves, again⟩ := lasting_reference _ _ _ failed
      exact ⟨word :: taken, rfl, leaves, fun more left =>
        (item_dispatch.2.1 opens).trans (again more left)⟩
    · rw [item_dispatch.2.2.1 opens] at failed
      obtain ⟨taken, rfl, leaves, again⟩ := lasting_call _ _ _ failed
      exact ⟨word :: taken, rfl, leaves, fun more left =>
        (item_dispatch.2.2.1 opens).trans (again more left)⟩
    · exact lasting_at valueDeclaration rfl lasting_value_declaration opens failed

/-- A listing that cannot be read is found at fault in the same place, whatever the
fault leaves open behind it. -/
theorem lasting_listing : Lasting listing := by
  intro tokens fault rest failed
  fun_induction listing tokens with
  | case1 => cases failed
  | case2 => cases failed
  | case3 t tail goes fault after step =>
    cases failed
    obtain ⟨taken, split, leaves, again⟩ := lasting_item _ _ _ step
    cases taken with
    | nil =>
      -- Without a token taken, there was none to begin with.
      obtain rfl := ran_out (r := item) rfl again
      rw [show rest = [] from leaves] at split
      cases split
    | cons u taken =>
      obtain ⟨rfl, rfl⟩ := List.cons.inj split
      exact ⟨t :: taken, rfl, leaves, fun more left => listing_fails goes (again more left)⟩
  | case4 t tail goes i after step inner last later ih =>
    cases failed
    obtain ⟨segment, split, derived⟩ := item_sound step
    obtain ⟨taken, rfl, leaves, again⟩ := ih later
    refine ⟨segment ++ taken, by rw [split, List.append_assoc], leaves, fun more left => ?_⟩
    rw [List.append_assoc, listing_item derived]
    exact map_eq_error_iff.mpr (again more left)
  | case5 => cases failed

end DeclListing.LastingFaults
