import DeclListing.Proofs.FaultPlaces

/-! Reading one listing after another. One call takes the tokens up to the end of
the text, or up to the one that its error is about; no call passes over the end of
the text. Every call on some tokens takes one, so there are never more answers than
tokens before the tokens have run out. -/
namespace DeclListing.ListingCalls
open Reader ListingGrammarExactness BegunItems FaultPlaces

variable {tokens rest front : List Token} {t sign : Token} {fault : Fault} {items : Listing}
  {text : List Char}

/-- The token that an error names for `t` behind other tokens: it starts where a sign
directly before it does. -/
def withSign (front : List Token) (t : Token) : Token :=
  match front.getLast? with
  | some sign =>
    if sign.terminal = .minus then { t with span := ⟨sign.span.start, t.span.stop⟩ } else t
  | none => t

/-- Behind settled tokens there is no sign to start at. -/
theorem with_sign_settled (settled : Settled front) : withSign front t = t := by
  unfold withSign
  split
  · rename_i sign last
    rw [if_neg (settled.unsigned sign last)]
  · rfl

theorem with_sign_snoc (minus : sign.terminal = .minus) :
    withSign (front ++ [sign]) t = { t with span := ⟨sign.span.start, t.span.stop⟩ } := by
  simp only [withSign, List.getLast?_concat, if_pos minus]

/-- A listing that is read ends with the first end of the text, or with the tokens. -/
theorem listing_takes (read : listing tokens = .ok items rest) :
    (∃ front ends, tokens = front ++ ends :: rest ∧ Plain front ∧ ends.terminal = .eof) ∨
      Plain tokens ∧ rest = [] := by
  fun_induction listing tokens generalizing items with
  | case1 =>
    cases read
    exact .inr ⟨by simp [Plain], rfl⟩
  | case2 t tail ends =>
    cases read
    exact .inl ⟨[], t, rfl, by simp [Plain], ends⟩
  | case3 => cases read
  | case4 => cases read
  | case5 t tail more i after step found last inner ih =>
    cases read
    obtain ⟨segment, split, derived⟩ := item_sound step
    have plain := (item_settled derived).plain
    rw [split]
    rcases ih inner with ⟨front, ends, rfl, also, eof⟩ | ⟨also, ran⟩
    · refine .inl ⟨segment ++ front, ends, by simp, ?_, eof⟩
      exact List.forall_mem_append.mpr ⟨plain, also⟩
    · exact .inr ⟨List.forall_mem_append.mpr ⟨plain, also⟩, ran⟩

/-- The error of a listing is about the last token that was taken, with its sign, or
about the end of the text where the tokens have run out. -/
theorem rejection_takes {e : Located SyntaxError} (failed : listing tokens = .error fault rest)
    (worded : fault.inText? text = some e) :
    (∃ front t, tokens = front ++ t :: rest ∧ Plain front ∧ e.token = withSign front t) ∨
      Plain tokens ∧ rest = [] ∧
        e.token = ⟨.eof, ⟨Text.byteLength text, Text.byteLength text⟩, 0⟩ := by
  rcases listing_halts_settled failed with ⟨front, t, what, settled, rfl, rfl⟩ |
    ⟨what, settled, rfl, rfl⟩ | ⟨front, literal, t, error, settled, token, rfl, rfl⟩
  · refine .inl ⟨front, t, rfl, settled.plain, ?_⟩
    rw [with_sign_settled settled]
    simp only [Fault.inText?] at worded
    split at worded
    · cases worded
      rfl
    · obtain ⟨got, -, rfl⟩ := Option.map_eq_some_iff.mp worded
      rfl
  · cases worded
    exact .inr ⟨settled.plain, rfl, rfl⟩
  · cases worded
    cases token with
    | string | integer =>
      exact .inl ⟨front, _, rfl, settled.plain, (with_sign_settled settled).symm⟩
    | @signed sign t _ minus digits =>
      -- The sign was taken before the digits, so it belongs to what stands before them.
      have plain : Plain (front ++ [sign]) :=
        List.forall_mem_append.mpr ⟨settled.plain, by simp [minus]⟩
      exact .inl ⟨front ++ [sign], t, by simp, plain, (with_sign_snoc minus).symm⟩

/-- A call on some tokens takes one. -/
theorem remainder_lt (left : tokens ≠ []) :
    (Listing.remainder (listing tokens)).length < tokens.length := by
  have ran : ([] : List Token).length < tokens.length := List.length_pos_iff.mpr left
  cases read : listing tokens with
  | ok items rest =>
    rcases listing_takes read with ⟨front, ends, rfl, -, -⟩ | ⟨-, rfl⟩
    · simp [Listing.remainder]
      omega
    · exact ran
  | error fault rest =>
    cases listing_fault read with
    | found | refused | signed =>
      simp [Listing.remainder]
      omega
    | missing => exact ran

/-- Where no tokens are left, every call answers an empty listing. -/
theorem read_times_nil (n : Nat) :
    Listing.readTimes text n [] = List.replicate n (.items []) := by
  have nothing : listing [] = .ok [] [] := by rw [listing]
  induction n with
  | zero => rfl
  | succ n ih =>
    rw [Listing.readTimes, nothing, List.replicate_succ]
    exact congrArg _ ih

/-- Behind as many calls as there are tokens, every call answers an empty listing. -/
theorem read_times_drop (n : Nat) {calls : Nat} (enough : tokens.length ≤ calls) :
    (Listing.readTimes text n tokens).drop calls = List.replicate (n - calls) (.items []) := by
  induction n generalizing tokens calls with
  | zero => simp [Listing.readTimes]
  | succ n ih =>
    by_cases ran : tokens = []
    · rw [ran, read_times_nil, List.drop_replicate]
    · have shorter := remainder_lt ran
      obtain ⟨calls, rfl⟩ : ∃ k, calls = k + 1 := ⟨calls - 1, by omega⟩
      rw [Listing.readTimes, List.drop_succ_cons, Nat.add_sub_add_right]
      exact ih (by omega)

/-- What a call takes is told by its answer, and calls in a row come to an end. With
items, the tokens are taken up to and with the first end of the text, or all of them
when there is none. With an error, they are taken up to and with the token of the
error, which may start at the sign before it, or all of them when they ran out; no
end of the text is among those before. A call on some tokens takes one, and after as
many calls as there were tokens, every call answers an empty listing. -/
theorem listing_call_exact (text : List Char) (tokens : List Token) :
    let rest := Listing.remainder (listing tokens)
    (∀ items, Listing.read text tokens = .items items →
      (∃ front ends, tokens = front ++ ends :: rest ∧ Plain front ∧ ends.terminal = .eof) ∨
        Plain tokens ∧ rest = []) ∧
    (∀ e, Listing.read text tokens = .rejected e →
      (∃ front t, tokens = front ++ t :: rest ∧ Plain front ∧ e.token = withSign front t) ∨
        Plain tokens ∧ rest = [] ∧
          e.token = ⟨.eof, ⟨Text.byteLength text, Text.byteLength text⟩, 0⟩) ∧
    (tokens ≠ [] → rest.length < tokens.length) ∧
    ∀ n, (Listing.readTimes text n tokens).drop tokens.length =
      List.replicate (n - tokens.length) (.items []) := by
  intro rest
  refine ⟨fun items read => ?_, fun e rejected => ?_, remainder_lt, fun n => ?_⟩
  · obtain ⟨left, read⟩ := read_eq_items_iff.mp read
    have same : rest = left := congrArg Listing.remainder read
    rw [same]
    exact listing_takes read
  · obtain ⟨fault, left, failed, worded⟩ := read_eq_rejected_iff.mp rejected
    have same : rest = left := congrArg Listing.remainder failed
    rw [same]
    exact rejection_takes failed worded
  · exact read_times_drop n (Nat.le_refl _)

end DeclListing.ListingCalls
