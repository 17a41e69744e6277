import DeclListing.Check.Verdict
import DeclListing.Proofs.ReaderParametricity

/-! Tokens moved to other places of a text. A reader does not see that tokens were
moved: it reads the same items, whose names are moved along, or comes to the same
fault at the moved token. The wording of a fault shows a stretch of the text, so
it is kept where the moved token has the same stretch in the other text. -/
namespace DeclListing
open ReaderParametricity Correspondence

/-- A way to move tokens. -/
structure Relocation where
  /-- Where a byte position goes. -/
  place : Nat → Nat
  /-- Where a line goes. -/
  line : Nat → Nat

namespace Relocation

variable {α β : Type} {m : Relocation} {text other : List Char}

/-- A token that was moved. -/
def token (m : Relocation) (t : Token) : Token where
  terminal := t.terminal
  span := ⟨m.place t.span.start, m.place t.span.stop⟩
  line := m.line t.line

/-- A value whose token was moved. -/
def located (m : Relocation) (x : Located α) : Located α :=
  ⟨x.value, m.token x.token⟩

/-- An item whose names were moved. -/
def item (m : Relocation) : Item → Item
  | .declaration name info => .declaration (m.located name) info
  | .reference name => .reference (m.located name)
  | .call callee args => .call (m.located callee) (args.map m.located)

/-- A fault whose token was moved. -/
def fault (m : Relocation) : Fault → Fault
  | .unexpected what found => .unexpected what (found.map m.token)
  | .refused error => .refused (m.located error)

/-- What reading comes to when all tokens were moved. -/
def read (m : Relocation) : Read Listing → Read Listing
  | .ok items rest => .ok (items.map m.item) (rest.map m.token)
  | .error e rest => .error (m.fault e) (rest.map m.token)

/-- A reading whose tokens were moved. -/
def reading (m : Relocation) : Reading → Reading
  | .items items => .items (items.map m.item)
  | .rejected e => .rejected (m.located e)
  | .unreadable => .unreadable

/-- A rejection whose token was moved. -/
def rejection (m : Relocation) : Rejection → Rejection
  | .lexical e => .lexical (m.located e)
  | .syntactic e => .syntactic (m.located e)
  | .unreadable => .unreadable

/-- Tokens correspond to what they are moved to. -/
def correspondence (m : Relocation) : Correspondence where
  Tokens t u := u = m.token t
  terminal := by
    rintro t _ rfl
    rfl
  signed := by
    rintro sign t _ _ rfl rfl
    rfl

private theorem map_of_graph {R : α → β → Prop} {f : α → β} {xs : List α} {ys : List β}
    (graph : ∀ a b, R a b → b = f a) (all : List.Forall₂ R xs ys) : ys = xs.map f := by
  induction all with
  | nil => rfl
  | cons head _ ih => rw [List.map_cons, graph _ _ head, ih]

private theorem located_of_same (x y : Located α) (same : m.correspondence.SameLocated x y) :
    y = m.located x := by
  obtain ⟨value, token⟩ := y
  obtain ⟨rfl, moved⟩ := same
  exact congrArg (Located.mk x.value) moved

private theorem item_of_same (i j : Item) (same : m.correspondence.SameItem i j) :
    j = m.item i := by
  cases same with
  | declaration info name => rw [located_of_same _ _ name, item]
  | reference name => rw [located_of_same _ _ name, item]
  | call callee args => rw [located_of_same _ _ callee, map_of_graph located_of_same args, item]

private theorem fault_of_same (e f : Fault) (same : m.correspondence.SameFault e f) :
    f = m.fault e := by
  cases same with
  | missing what => rfl
  | found what moved => exact congrArg (fun t => Fault.unexpected what (some t)) moved
  | refused error => rw [located_of_same _ _ error, fault]

/-- Moved tokens are read as the listing with its names moved. -/
theorem listing_moved (m : Relocation) (tokens : List Token) :
    Reader.listing (tokens.map m.token) = m.read (Reader.listing tokens) := by
  have pairs : List.Forall₂ m.correspondence.Tokens tokens (tokens.map m.token) :=
    List.forall₂_map_right_iff.mpr (List.forall₂_same.mpr fun _ _ => rfl)
  have same := listing_alike pairs
  generalize Reader.listing tokens = r, Reader.listing (tokens.map m.token) = s at same ⊢
  cases same with
  | ok items rest =>
    rw [read, map_of_graph item_of_same items, map_of_graph (fun _ _ moved => moved) rest]
  | error faults rest =>
    rw [read, fault_of_same _ _ faults, map_of_graph (fun _ _ moved => moved) rest]

/-- A text has a fault's token at the same stretch as another text has the moved
one. Where no token was left, there is nothing to show. -/
def Shows (m : Relocation) (text other : List Char) : Fault → Prop
  | .unexpected _ none => False
  | .unexpected _ (some t) =>
    Text.slice? other (m.place t.span.start) (m.place t.span.stop) =
      Text.slice? text t.span.start t.span.stop
  | .refused _ => True

/-- A fault whose token is shown alike is the same error, moved. -/
theorem in_text_moved {e : Fault} (shows : m.Shows text other e) :
    (m.fault e).inText? other = (e.inText? text).map m.located := by
  cases e with
  | refused error => rfl
  | unexpected what found =>
    cases found with
    | none => exact shows.elim
    | some t =>
      simp only [fault, Option.map_some, Fault.inText?, token]
      split
      · rfl
      · rw [show Text.slice? other _ _ = _ from shows, Option.map_map]
        rfl

/-- Reading moved tokens comes to the same listing or the same error, moved. -/
theorem of_read_moved {r : Read Listing}
    (shows : ∀ e rest, r = .error e rest → m.Shows text other e) :
    Reading.ofRead other (m.read r) = m.reading (Reading.ofRead text r) := by
  cases r with
  | ok items rest => rfl
  | error e rest =>
    simp only [read, Reading.ofRead, in_text_moved (shows e rest rfl)]
    cases e.inText? text <;> rfl

theorem outcome_moved {r : Read Listing}
    (shows : ∀ e rest, r = .error e rest → m.Shows text other e) :
    (Reading.ofRead other (m.read r)).outcome =
      ((Reading.ofRead text r).outcome.mapError m.rejection).map (List.map m.item) := by
  rw [of_read_moved shows]
  cases Reading.ofRead text r <;> rfl

end Relocation

end DeclListing
