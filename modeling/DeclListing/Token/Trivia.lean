import DeclListing.Text.Slice

/-!
What may stand between two lexemes: blanks, and comments from `//` up to the end
of the line. `split` takes all of it from the front of a text; nothing is lost
(`split_append`), and what is left starts with neither a blank nor a comment
(`split_rest_stable`).
-/

namespace DeclListing.Trivia

/-- The characters that separate lexemes and mean nothing. -/
def isBlank (c : Char) : Bool :=
  c = ' ' || c = '\t' || c = '\r' || c = '\n'

/-- Splits a text after the blanks and comments it starts with. Inside a
comment everything is taken up to a line feed, which is a blank again. A slash
that is not followed by another one starts no comment. -/
def splitFrom : Bool → List Char → List Char × List Char
  | _, [] => ([], [])
  | true, c :: cs =>
    let (gap, rest) := splitFrom (c ≠ '\n') cs
    (c :: gap, rest)
  | false, c :: cs =>
    if isBlank c then
      let (gap, rest) := splitFrom false cs
      (c :: gap, rest)
    else if c = '/' ∧ cs.head? = some '/' then
      let (gap, rest) := splitFrom true cs
      (c :: gap, rest)
    else ([], c :: cs)

/-- The blanks and comments at the front of a text, and what follows them. -/
def split (cs : List Char) : List Char × List Char :=
  splitFrom false cs

/-- Splitting loses nothing. -/
theorem splitFrom_append (inComment : Bool) (cs : List Char) :
    (splitFrom inComment cs).1 ++ (splitFrom inComment cs).2 = cs := by
  induction cs generalizing inComment with
  | nil => cases inComment <;> rfl
  | cons c cs ih =>
    cases inComment with
    | true => simp [splitFrom, ih]
    | false =>
      simp only [splitFrom]
      split
      · simp [ih]
      · split <;> simp [ih]

theorem split_append (cs : List Char) : (split cs).1 ++ (split cs).2 = cs :=
  splitFrom_append false cs

/-- The remainder is no longer than the text. -/
theorem length_split_le (cs : List Char) : (split cs).2.length ≤ cs.length := by
  have h := congrArg List.length (split_append cs)
  simp at h
  omega

/-- The remainder has no blanks and comments at its front. -/
theorem splitFrom_rest_stable (inComment : Bool) (cs : List Char) :
    splitFrom false (splitFrom inComment cs).2 = ([], (splitFrom inComment cs).2) := by
  induction cs generalizing inComment with
  | nil => cases inComment <;> rfl
  | cons c cs ih =>
    cases inComment with
    | true => simpa [splitFrom] using ih _
    | false =>
      by_cases hb : isBlank c = true
      · simpa [splitFrom, hb] using ih false
      · by_cases hs : c = '/' ∧ cs.head? = some '/'
        · simp only [splitFrom, hs, and_self, if_true]
          exact ih true
        · simp [splitFrom, hb, hs]

theorem split_rest_stable (cs : List Char) : split (split cs).2 = ([], (split cs).2) :=
  splitFrom_rest_stable false cs

end DeclListing.Trivia
