import DeclListing.Text.Unprintable

/-!
Quoted characters and strings, as messages show them. A quoted text holds no
control character (`quoted_not_isControl`): those, and all others that are not
printable, are written as escapes.
-/

namespace DeclListing.Text

/-- The digits of a number in base sixteen, in lower case and without leading
zeros. -/
def hexDigits (n : Nat) : List Char :=
  if n < 16 then [Nat.digitChar n] else hexDigits (n / 16) ++ [Nat.digitChar (n % 16)]

/-- How a character is written between quotes of the given sort. Five
characters have short escapes and so has the quote itself; other unprintable
characters are given by number. -/
def escaped (quote c : Char) : List Char :=
  if c = '\x00' then ['\\', '0']
  else if c = '\t' then ['\\', 't']
  else if c = '\r' then ['\\', 'r']
  else if c = '\n' then ['\\', 'n']
  else if c = '\\' then ['\\', '\\']
  else if c = quote then ['\\', quote]
  else if isUnprintable c then ['\\', 'u', '{'] ++ hexDigits c.toNat ++ ['}']
  else [c]

/-- A text between double quotes. -/
def quoted (cs : List Char) : List Char :=
  '"' :: cs.flatMap (escaped '"') ++ ['"']

/-- A string between double quotes. -/
def quote (s : String) : String :=
  String.ofList (quoted s.toList)

/-- A character between single quotes. -/
def quoteChar (c : Char) : String :=
  String.ofList ('\'' :: escaped '\'' c ++ ['\''])

private theorem digitChar_not_isControl {n : Nat} (h : n < 16) :
    isControl (Nat.digitChar n) = false := by
  have all : ∀ m : Fin 16, isControl (Nat.digitChar m) = false := by decide
  exact all ⟨n, h⟩

private theorem hexDigits_not_isControl (n : Nat) : ∀ c ∈ hexDigits n, isControl c = false := by
  fun_induction hexDigits n with
  | case1 n h => simp [digitChar_not_isControl h]
  | case2 n h ih =>
    intro c hc
    rcases List.mem_append.mp hc with hc | hc
    · exact ih c hc
    · rw [List.mem_singleton.mp hc]
      exact digitChar_not_isControl (Nat.mod_lt n (by decide))

/-- What is written for a character holds no control character. -/
theorem escaped_not_isControl {quote c : Char} (hq : isControl quote = false) :
    ∀ d ∈ escaped quote c, isControl d = false := by
  intro d hd
  have zero : isControl '0' = false := by decide
  have backslash : isControl '\\' = false := by decide
  have letters : isControl 't' = false ∧ isControl 'r' = false ∧ isControl 'n' = false ∧
      isControl 'u' = false ∧ isControl '{' = false ∧ isControl '}' = false := by decide
  obtain ⟨ht, hr, hn, hu, ho, hc⟩ := letters
  unfold escaped at hd
  repeat' split at hd
  all_goals simp only [List.mem_append, List.mem_cons, List.not_mem_nil, or_false] at hd
  · rcases hd with rfl | rfl <;> assumption
  · rcases hd with rfl | rfl <;> assumption
  · rcases hd with rfl | rfl <;> assumption
  · rcases hd with rfl | rfl <;> assumption
  · rcases hd with rfl | rfl <;> assumption
  · rcases hd with rfl | rfl <;> assumption
  · rcases hd with ((rfl | rfl | rfl) | hd) | rfl
    any_goals assumption
    exact hexDigits_not_isControl _ d hd
  · rename_i printable
    subst hd
    exact Bool.eq_false_iff.mpr fun h => printable (isUnprintable_of_isControl h)

/-- A quoted text holds no control character. -/
theorem quoted_not_isControl (cs : List Char) : ∀ d ∈ quoted cs, isControl d = false := by
  have hq : isControl '"' = false := by decide
  intro d hd
  simp only [quoted, List.cons_append, List.mem_cons, List.mem_append, List.mem_flatMap,
    List.not_mem_nil, or_false] at hd
  rcases hd with rfl | ⟨c, -, hd⟩ | rfl
  · exact hq
  · exact escaped_not_isControl hq d hd
  · exact hq

end DeclListing.Text
