import DeclListing.Text.Slice

/-!
Character boundaries: the byte positions between the characters of a text. They
are where a text can be cut, so a slice is there exactly when both its ends are
boundaries and stand in order (`slice?_isSome_iff`).
-/

namespace DeclListing.Text

/-- The byte positions before, between and behind the characters of a text. -/
def IsBoundary (cs : List Char) (position : Nat) : Prop :=
  ∃ before after, cs = before ++ after ∧ byteLength before = position

/-- The byte positions inside the characters of a text. -/
def InsideCharacter (cs : List Char) (position : Nat) : Prop :=
  ∃ before c after, cs = before ++ c :: after ∧ byteLength before < position ∧
    position < byteLength before + c.utf8Size

/-- Where the line starts that goes on behind a text: behind its last line feed,
or at its start if it has none. -/
def lineStart (before : List Char) : Nat :=
  byteLength (before.reverse.dropWhile (· ≠ '\n')).reverse

variable {cs ds before after : List Char} {n start stop : Nat}

theorem byteLength_eq_zero_iff : byteLength cs = 0 ↔ cs = [] := by
  cases cs with
  | nil => simp
  | cons c cs =>
    have wide := c.utf8Size_pos
    simp only [byteLength_cons, reduceCtorEq, iff_false]
    omega

/-- A cut before position `n` gives the part of the text that takes `n` bytes. -/
theorem takeBytes?_eq_some_iff :
    takeBytes? cs n = some before ↔ ∃ after, cs = before ++ after ∧ byteLength before = n := by
  constructor
  · intro cut
    fun_induction takeBytes? cs n generalizing before with
    | case1 cs => cases cut; exact ⟨cs, rfl, rfl⟩
    | case2 => cases cut
    | case3 c cs n fits ih =>
      obtain ⟨tail, inner, rfl⟩ := Option.map_eq_some_iff.mp cut
      obtain ⟨after, rfl, length⟩ := ih inner
      refine ⟨after, rfl, ?_⟩
      rw [byteLength_cons, length]
      omega
    | case4 => cases cut
  · rintro ⟨after, rfl, rfl⟩
    exact takeBytes?_append before after

/-- A cut behind position `n` gives what follows `n` bytes of the text. -/
theorem dropBytes?_eq_some_iff :
    dropBytes? cs n = some after ↔ ∃ before, cs = before ++ after ∧ byteLength before = n := by
  constructor
  · intro cut
    fun_induction dropBytes? cs n with
    | case1 cs => cases cut; exact ⟨[], rfl, rfl⟩
    | case2 => cases cut
    | case3 c cs n fits ih =>
      obtain ⟨before, rfl, length⟩ := ih cut
      refine ⟨c :: before, rfl, ?_⟩
      rw [byteLength_cons, length]
      omega
    | case4 => cases cut
  · rintro ⟨before, rfl, rfl⟩
    exact dropBytes?_append before after

/-- A slice is the middle of a text in three parts. -/
theorem slice?_eq_some_iff :
    slice? cs start stop = some ds ↔ ∃ before after, cs = before ++ (ds ++ after) ∧
      byteLength before = start ∧ start + byteLength ds = stop := by
  constructor
  · intro cut
    unfold slice? at cut
    split at cut
    · obtain ⟨tail, dropped, taken⟩ := Option.bind_eq_some_iff.mp cut
      obtain ⟨before, rfl, rfl⟩ := dropBytes?_eq_some_iff.mp dropped
      obtain ⟨after, rfl, length⟩ := takeBytes?_eq_some_iff.mp taken
      exact ⟨before, after, rfl, rfl, by omega⟩
    · cases cut
  · rintro ⟨before, after, rfl, rfl, rfl⟩
    rw [← List.append_assoc]
    exact slice?_append before ds after

/-- Of two beginnings of a text the shorter is one of the longer. -/
theorem prefix_of_byteLength_le {front back : List Char} (same : before ++ after = front ++ back)
    (le : byteLength before ≤ byteLength front) : ∃ middle, front = before ++ middle := by
  rcases List.append_eq_append_iff.mp same with ⟨middle, longer, -⟩ | ⟨middle, shorter, -⟩
  · exact ⟨middle, longer⟩
  · rw [shorter, byteLength_append] at le
    have empty : middle = [] := byteLength_eq_zero_iff.mp (by omega)
    exact ⟨[], by simp [shorter, empty]⟩

/-- A stretch of the first part of a text is the same whatever follows that part. -/
theorem slice?_append_left (inside : stop ≤ byteLength cs) :
    slice? (cs ++ ds) start stop = slice? cs start stop := by
  ext1 lexeme
  rw [slice?_eq_some_iff, slice?_eq_some_iff]
  constructor
  · rintro ⟨before, after, split, rfl, rfl⟩
    rw [← List.append_assoc] at split
    obtain ⟨middle, rfl⟩ := prefix_of_byteLength_le split.symm (by simpa using inside)
    exact ⟨before, middle, List.append_assoc .., rfl, rfl⟩
  · rintro ⟨before, after, rfl, rfl, rfl⟩
    exact ⟨before, after ++ ds, by simp, rfl, rfl⟩

/-- A stretch of a text is there exactly when both its ends are boundaries and
stand in order. -/
theorem slice?_isSome_iff :
    (slice? cs start stop).isSome = true ↔
      start ≤ stop ∧ IsBoundary cs start ∧ IsBoundary cs stop := by
  rw [Option.isSome_iff_exists]
  constructor
  · rintro ⟨ds, cut⟩
    obtain ⟨before, after, rfl, rfl, rfl⟩ := slice?_eq_some_iff.mp cut
    refine ⟨by omega, ⟨before, _, rfl, rfl⟩, before ++ ds, after, ?_, ?_⟩
    · rw [List.append_assoc]
    · rw [byteLength_append]
  · rintro ⟨ordered, ⟨before, after, split, rfl⟩, ⟨front, back, rfl, rfl⟩⟩
    obtain ⟨middle, rfl⟩ := prefix_of_byteLength_le split.symm ordered
    refine ⟨middle, slice?_eq_some_iff.mpr ⟨before, back, ?_, rfl, ?_⟩⟩
    · rw [List.append_assoc]
    · rw [byteLength_append]

theorem IsBoundary.le_byteLength (boundary : IsBoundary cs n) : n ≤ byteLength cs := by
  obtain ⟨before, after, rfl, rfl⟩ := boundary
  simp

/-- A character lies on one side of a boundary. -/
theorem InsideCharacter.not_boundary (inside : InsideCharacter cs n) : ¬ IsBoundary cs n := by
  obtain ⟨before, c, after, rfl, above, below⟩ := inside
  rintro ⟨front, back, split, rfl⟩
  obtain ⟨middle, rfl⟩ := prefix_of_byteLength_le split (Nat.le_of_lt above)
  cases middle with
  | nil => simp at above
  | cons d middle =>
    rw [List.append_assoc] at split
    obtain ⟨rfl, -⟩ := List.cons.inj (List.append_cancel_left split)
    simp only [byteLength_append, byteLength_cons] at below
    omega

/-- A position in a text is a boundary, or else inside a character. -/
theorem boundary_or_inside (within : n ≤ byteLength cs) :
    IsBoundary cs n ∨ InsideCharacter cs n := by
  induction cs generalizing n with
  | nil =>
    rw [byteLength_nil, Nat.le_zero] at within
    exact .inl ⟨[], [], rfl, within.symm⟩
  | cons c cs ih =>
    rw [byteLength_cons] at within
    by_cases first : n < c.utf8Size
    · by_cases start : n = 0
      · exact .inl ⟨[], c :: cs, rfl, start.symm⟩
      · exact .inr ⟨[], c, cs, rfl, Nat.pos_of_ne_zero start, by simpa using first⟩
    · rcases ih (n := n - c.utf8Size) (by omega) with
        ⟨before, after, rfl, length⟩ | ⟨before, d, after, rfl, above, below⟩
      · exact .inl ⟨c :: before, after, rfl, by rw [byteLength_cons]; omega⟩
      · exact .inr ⟨c :: before, d, after, rfl, by rw [byteLength_cons]; omega,
          by rw [byteLength_cons]; omega⟩

/-- A stretch of a text is not there when it ends before it starts, when the text ends
before, or when one of its ends is inside a character. -/
theorem slice?_eq_none_iff :
    slice? cs start stop = none ↔ stop < start ∨ byteLength cs < stop ∨
      InsideCharacter cs start ∨ InsideCharacter cs stop := by
  rw [← Option.isSome_eq_false_iff.trans Option.isNone_iff_eq_none, ← Bool.not_eq_true,
    slice?_isSome_iff]
  constructor
  · intro refused
    by_cases ordered : start ≤ stop
    · by_cases within : stop ≤ byteLength cs
      · rcases boundary_or_inside (Nat.le_trans ordered within) with starts | inside
        · rcases boundary_or_inside within with stops | inside
          · exact absurd ⟨ordered, starts, stops⟩ refused
          · exact .inr (.inr (.inr inside))
        · exact .inr (.inr (.inl inside))
      · exact .inr (.inl (Nat.not_le.mp within))
    · exact .inl (Nat.not_le.mp ordered)
  · rintro reasons ⟨ordered, starts, stops⟩
    rcases reasons with crossed | beyond | inside | inside
    · exact absurd ordered (Nat.not_le.mpr crossed)
    · exact absurd stops.le_byteLength (Nat.not_le.mpr beyond)
    · exact inside.not_boundary starts
    · exact inside.not_boundary stops

/-- The part up to the last line feed and the last line make up a text. -/
theorem lineStart_add_lastLine (before : List Char) :
    lineStart before + byteLength (lastLine before) = byteLength before := by
  have whole := congrArg List.reverse
    (List.takeWhile_append_dropWhile (p := fun c => decide (c ≠ '\n')) (l := before.reverse))
  rw [List.reverse_append, List.reverse_reverse] at whole
  rw [lineStart, lastLine, ← byteLength_append, whole]

/-- What has no line feed goes on the last line. -/
theorem lastLine_append (cs : List Char) (plain : '\n' ∉ ds) :
    lastLine (cs ++ ds) = lastLine cs ++ ds := by
  have all : ∀ c ∈ ds.reverse, decide (c ≠ '\n') = true := by
    intro c listed
    simp only [ne_eq, decide_eq_true_eq]
    rintro rfl
    exact plain (List.mem_reverse.mp listed)
  rw [lastLine, List.reverse_append, List.takeWhile_append_of_pos all, List.reverse_append,
    List.reverse_reverse]
  rfl

/-- At a boundary the column counts the bytes since the line started, which is
no later. -/
theorem column?_of_boundary (boundary : IsBoundary cs n) :
    ∃ before, takeBytes? cs n = some before ∧ lineStart before ≤ n ∧
      column? cs n = some (n - lineStart before + 1) := by
  obtain ⟨before, after, rfl, rfl⟩ := boundary
  have parts := lineStart_add_lastLine before
  refine ⟨before, takeBytes?_append before after, by omega, ?_⟩
  rw [column?, takeBytes?_append, Option.map_some, ← parts, Nat.add_sub_cancel_left]

end DeclListing.Text
