import DeclListing.Symbol.Record

/-!
Symbol tables: names with their information, each name once. The first
declaration of a name wins; later ones are refused and change nothing.

The entries of a table stand in the order in which they were added, and no two
have one name. `get?` finds the entry of a name; the other questions are asked
through it.
-/

namespace DeclListing

/-- A name with what was declared about it. -/
structure Entry where
  /-- The declared name. -/
  name : String := ""
  /-- What was declared. -/
  info : SymbolInfo := {}
  deriving DecidableEq, Repr, Inhabited

/-- The entry with the information of a numeric record. The name must not be
empty; that is settled before the record is looked at. -/
def Entry.ofRecord (name : String) (r : Record) : Except RecordError Entry :=
  if name = "" then .error .emptyName else r.toInfo.map fun info => { name, info }

/-- The declared names with their information, in the order of declaration. -/
structure SymbolTable where
  /-- The entries, oldest first. -/
  entries : List Entry := []
  /-- No name is declared twice. -/
  distinct : (entries.map Entry.name).Nodup := by simp

namespace SymbolTable

/-- The table without entries. -/
def empty : SymbolTable := {}

/-- The entry of a name. -/
def get? (t : SymbolTable) (name : String) : Option Entry :=
  t.entries.find? (·.name == name)

/-- Whether a name is declared. -/
def contains (t : SymbolTable) (name : String) : Bool :=
  (t.get? name).isSome

/-- What was declared about a name. -/
def info? (t : SymbolTable) (name : String) : Option SymbolInfo :=
  (t.get? name).map Entry.info

/-- What was declared about a name, as a numeric record; for an absent name,
`Record.notFound`. Only `contains` tells an absent name from an `undefined`
one. -/
def record (t : SymbolTable) (name : String) : Record :=
  match t.info? name with
  | some info => info.toRecord
  | none => .notFound

/-- The number of declared names. -/
def size (t : SymbolTable) : Nat :=
  t.entries.length

/-- Whether nothing is declared. -/
def isEmpty (t : SymbolTable) : Bool :=
  t.entries.isEmpty

/-- The declared names, oldest first. -/
def names (t : SymbolTable) : List String :=
  t.entries.map Entry.name

theorem contains_iff_mem_names {t : SymbolTable} {name : String} :
    t.contains name = true ↔ name ∈ t.names := by
  simp [contains, get?, names]

/-- An entry of a table is what its name is looked up as. -/
theorem get?_of_mem {t : SymbolTable} {e : Entry} (listed : e ∈ t.entries) :
    t.get? e.name = some e := by
  obtain ⟨front, back, split⟩ := List.append_of_mem listed
  have distinct := t.distinct
  rw [split, List.map_append, List.map_cons, List.nodup_append] at distinct
  have earlier : ∀ f ∈ front, ¬ (f.name == e.name) = true := by
    intro f member same
    exact distinct.2.2 _ (List.mem_map_of_mem member) _ (by simp) (beq_iff_eq.mp same)
  rw [get?, split, List.find?_append, List.find?_eq_none.mpr earlier]
  simp

/-- The table with one more entry, whose name must be new. -/
def push (t : SymbolTable) (e : Entry) (fresh : e.name ∉ t.names) : SymbolTable where
  entries := t.entries ++ [e]
  distinct := by
    rw [List.map_append, List.nodup_append]
    refine ⟨t.distinct, by simp, ?_⟩
    intro a ha b hb hab
    simp only [List.map_cons, List.map_nil, List.mem_singleton] at hb
    exact fresh (hb ▸ hab ▸ ha)

/-- Adds an entry unless its name is taken. There is no answer, and the table
stays as it is, when the name is taken. -/
def add? (t : SymbolTable) (e : Entry) : Option SymbolTable :=
  if taken : e.name ∈ t.names then none else some (t.push e taken)

@[simp]
theorem push_entries (t : SymbolTable) (e : Entry) (fresh : e.name ∉ t.names) :
    (t.push e fresh).entries = t.entries ++ [e] := rfl

end SymbolTable

end DeclListing
