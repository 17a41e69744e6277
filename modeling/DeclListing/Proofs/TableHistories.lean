import Mathlib.Data.Set.Card
import DeclListing.Symbol.Table

/-! Any history of additions to a symbol table. An addition has an entry or none,
and one that has an entry is answered by whether the name was new. The table that
is reached holds the entries whose addition was answered so, oldest first; of a
name, that is the first entry with it that was ever offered. -/
namespace DeclListing.TableHistories

/-- A way to add to a table. -/
inductive Addition where
  /-- A name with what is declared about it. -/
  | plain (name : String) (info : SymbolInfo)
  /-- The default entry, whose name is the empty one. -/
  | default
  /-- A name with the fields of a numeric record. -/
  | ofRecord (name : String) (record : Record)

/-- The entry that an addition offers, or why it has none. -/
def Addition.entry : Addition → Except RecordError Entry
  | plain name info => .ok { name, info }
  | default => .ok {}
  | ofRecord name record => Entry.ofRecord name record

/-- What an addition is answered: whether its entry was added, or why it has
none. -/
abbrev Answer := Except RecordError Bool

/-- Adds to a table: the answer, and the table from then on. -/
def add (t : SymbolTable) (a : Addition) : Answer × SymbolTable :=
  match a.entry with
  | .error e => (.error e, t)
  | .ok e =>
    match t.add? e with
    | some more => (.ok true, more)
    | none => (.ok false, t)

/-- The table that a history of additions to another one reaches. -/
def reached (t : SymbolTable) (history : List Addition) : SymbolTable :=
  history.foldl (fun t a => (add t a).2) t

/-- The additions of a history, each with its answer. -/
def answered (t : SymbolTable) : List Addition → List (Addition × Answer)
  | [] => []
  | a :: later => (a, (add t a).1) :: answered (add t a).2 later

/-- The entry of an addition, if it was answered that it was added. -/
def succeeded? : Addition × Answer → Option Entry
  | (a, .ok true) => a.entry.toOption
  | _ => none

/-- The entries that a history of additions to a new table added, in order. -/
def succeeded (history : List Addition) : List Entry :=
  (answered .empty history).filterMap succeeded?

/-- The entries that the additions of a history offered, in order. -/
def offered (history : List Addition) : List Entry :=
  history.filterMap fun a => a.entry.toOption

/-- What an addition comes to: it has no entry, the name of its entry is taken,
or the entry is put behind the others. -/
theorem add_cases (t : SymbolTable) (a : Addition) :
    (∃ e, a.entry = .error e ∧ add t a = (.error e, t)) ∨
    (∃ e, a.entry = .ok e ∧ e.name ∈ t.names ∧ add t a = (.ok false, t)) ∨
    ∃ e, ∃ fresh : e.name ∉ t.names, a.entry = .ok e ∧ add t a = (.ok true, t.push e fresh) := by
  unfold add
  cases offer : a.entry with
  | error e => exact .inl ⟨e, rfl, rfl⟩
  | ok e =>
    by_cases taken : e.name ∈ t.names
    · exact .inr (.inl ⟨e, rfl, taken, by simp [SymbolTable.add?, taken]⟩)
    · exact .inr (.inr ⟨e, taken, rfl, by simp [SymbolTable.add?, taken]⟩)

/-- An addition that has an entry is answered by whether its name is new. -/
theorem add_answer (t : SymbolTable) (a : Addition) :
    (add t a).1 = a.entry.map fun e => decide (e.name ∉ t.names) := by
  rcases add_cases t a with ⟨e, offer, step⟩ | ⟨e, offer, taken, step⟩ | ⟨e, fresh, offer, step⟩
  · rw [step, offer]
    rfl
  · rw [step, offer, Except.map, decide_eq_false (not_not_intro taken)]
  · rw [step, offer, Except.map, decide_eq_true fresh]

/-- An addition changes a table only where it is answered that it did. -/
theorem unchanged_of_refused (t : SymbolTable) (a : Addition) :
    (add t a).1 = .ok true ∨ (add t a).2 = t := by
  rcases add_cases t a with ⟨e, -, step⟩ | ⟨e, -, -, step⟩ | ⟨e, fresh, -, step⟩
  · exact .inr (by rw [step])
  · exact .inr (by rw [step])
  · exact .inl (by rw [step])

theorem reached_snoc (t : SymbolTable) (history : List Addition) (a : Addition) :
    reached t (history ++ [a]) = (add (reached t history) a).2 :=
  List.foldl_append

theorem reached_append (t : SymbolTable) (history later : List Addition) :
    reached t (history ++ later) = reached (reached t history) later :=
  List.foldl_append

theorem answered_snoc (t : SymbolTable) (history : List Addition) (a : Addition) :
    answered t (history ++ [a]) = answered t history ++ [(a, (add (reached t history) a).1)] := by
  induction history generalizing t with
  | nil => rfl
  | cons b history ih => exact congrArg ((b, (add t b).1) :: ·) (ih _)

/-- The table that is reached holds what was added. -/
theorem entries_reached (history : List Addition) :
    (reached .empty history).entries = succeeded history := by
  induction history using List.reverseRecOn with
  | nil => rfl
  | append_singleton history a ih =>
    rw [reached_snoc, succeeded, answered_snoc, List.filterMap_append, ← succeeded, ← ih]
    rcases add_cases (reached .empty history) a with ⟨e, offer, step⟩ | ⟨e, offer, -, step⟩ |
        ⟨e, fresh, offer, step⟩
    · simp [step, succeeded?]
    · simp [step, succeeded?]
    · simp [step, succeeded?, offer, Except.toOption]

/-- The entry of a name is the first that was offered with it. An entry whose
name was taken stands behind one of that name, so it is not the first. -/
theorem first_offered (history : List Addition) (name : String) :
    (reached .empty history).get? name = (offered history).find? (·.name == name) := by
  induction history using List.reverseRecOn with
  | nil => rfl
  | append_singleton history a ih =>
    rw [reached_snoc, offered, List.filterMap_append, List.find?_append, ← offered, ← ih]
    rcases add_cases (reached .empty history) a with ⟨e, offer, step⟩ | ⟨e, offer, taken, step⟩ |
        ⟨e, fresh, offer, step⟩
    · simp [step, offer, Except.toOption]
    · by_cases same : e.name = name
      · have found : ((reached .empty history).get? name).isSome = true := by
          rw [← same]
          exact SymbolTable.contains_iff_mem_names.mpr taken
        obtain ⟨first, known⟩ := Option.isSome_iff_exists.mp found
        simp [step, known]
      · simp [step, offer, Except.toOption, same]
    · simp [step, offer, Except.toOption, SymbolTable.get?, List.find?_append]

/-- As many names are found as there are entries. -/
theorem names_found (t : SymbolTable) : {name | t.contains name = true}.encard = t.size := by
  have found : {name | t.contains name = true} = (t.names.toFinset : Set String) := by
    ext name
    simp [SymbolTable.contains_iff_mem_names]
  have distinct : t.names.Nodup := t.distinct
  have count : t.names.toFinset.card = t.size := by
    rw [List.toFinset_card_of_nodup distinct, SymbolTable.names, List.length_map, SymbolTable.size]
  rw [found, Set.encard_coe_eq_coe_finsetCard, count]

/-- Of every name, the first addition counts. Behind any history, an addition is
answered that it was made exactly when its entry is there and no entry of that name
was added before, and otherwise it makes no difference to anything later. A name is
found exactly when an entry of that name was added, and what is said about it is
said by the first entry of that name that was offered. There are as many names as
entries were added. -/
theorem first_addition_counts (history : List Addition) (a : Addition) :
    let t := reached .empty history
    let first name := (offered history).find? (·.name == name)
    (add t a).1 =
        a.entry.map (fun e => decide (∀ earlier ∈ succeeded history, earlier.name ≠ e.name)) ∧
      ((add t a).1 = .ok true ∨
        ∀ later, reached .empty (history ++ a :: later) = reached .empty (history ++ later)) ∧
      (∀ name,
        (t.contains name = true ↔ ∃ e ∈ succeeded history, e.name = name) ∧
        t.get? name = first name ∧ (∀ e ∈ t.get? name, e.name = name) ∧
        t.info? name = (first name).map Entry.info ∧
        t.record name = ((first name).map fun e => e.info.toRecord).getD .notFound) ∧
      t.size = (succeeded history).length ∧
      {name | t.contains name = true}.encard = t.size ∧ (t.isEmpty = true ↔ t.size = 0) := by
  intro t first
  have entries : t.entries = succeeded history := entries_reached history
  have named (name : String) : name ∈ t.names ↔ ∃ e ∈ succeeded history, e.name = name := by
    rw [SymbolTable.names, entries, List.mem_map]
  refine ⟨?_, ?_, fun name => ⟨?_, ?_, ?_, ?_, ?_⟩, ?_, names_found t, ?_⟩
  · have fresh (e : Entry) :
        e.name ∉ t.names ↔ ∀ earlier ∈ succeeded history, earlier.name ≠ e.name := by
      simp [named]
    rw [add_answer]
    exact congrArg (Except.map · a.entry) (funext fun e => decide_eq_decide.mpr (fresh e))
  · refine (unchanged_of_refused t a).imp_right fun unchanged later => ?_
    rw [reached_append, reached_append]
    exact congrArg (reached · later) unchanged
  · rw [SymbolTable.contains_iff_mem_names, named]
  · exact first_offered history name
  · intro e found
    have holds := List.find?_some (Option.mem_def.mp found)
    exact beq_iff_eq.mp holds
  · exact congrArg (Option.map Entry.info) (first_offered history name)
  · have known : t.info? name = (first name).map Entry.info :=
      congrArg (Option.map Entry.info) (first_offered history name)
    rw [SymbolTable.record, known]
    cases first name <;> rfl
  · rw [SymbolTable.size, entries]
  · rw [SymbolTable.isEmpty, SymbolTable.size, List.isEmpty_iff, List.length_eq_zero_iff]

end DeclListing.TableHistories
