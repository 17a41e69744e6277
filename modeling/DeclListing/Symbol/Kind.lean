/-!
The five kinds a symbol can have, their tags in numeric records and their
names. `ofCode?_eq_some_iff` says that reading a tag inverts writing it.
-/

namespace DeclListing

/-- What sort of thing a symbol is. -/
inductive Kind where
  | function
  | int
  | str
  | intOrStr
  | undefined
  deriving DecidableEq, Repr, Inhabited

namespace Kind

/-- The tag of a kind in a numeric record. -/
def code : Kind → Int32
  | function => -5
  | int => -4
  | str => -3
  | intOrStr => -2
  | undefined => -1

/-- The kind with a given tag, if there is one. -/
def ofCode? (code : Int32) : Option Kind :=
  if code = -5 then some function
  else if code = -4 then some int
  else if code = -3 then some str
  else if code = -2 then some intOrStr
  else if code = -1 then some undefined
  else none

/-- The word for a kind, in listings and in messages. -/
def name : Kind → String
  | function => "function"
  | int => "int"
  | str => "str"
  | intOrStr => "int_or_str"
  | undefined => "undefined"

/-- The kind with a given name, if there is one. -/
def ofName? (name : String) : Option Kind :=
  [function, int, str, intOrStr, undefined].find? (·.name == name)

@[simp]
theorem ofCode?_code (k : Kind) : ofCode? k.code = some k := by
  cases k <;> rfl

/-- A tag stands for a kind exactly when it is the tag of that kind. -/
theorem ofCode?_eq_some_iff {c : Int32} {k : Kind} : ofCode? c = some k ↔ c = k.code := by
  constructor
  · intro h
    unfold ofCode? at h
    repeat' split at h
    all_goals first | (cases h; assumption) | cases h
  · rintro rfl
    exact ofCode?_code k

end Kind

end DeclListing
