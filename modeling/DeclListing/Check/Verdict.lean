import DeclListing.Check.Checker
import DeclListing.Listing.Reader
import DeclListing.Token.Stream

/-!
From a text to a report. The text is read as tokens, the tokens as a listing,
and the listing is checked. A fault in the first two ends it; the problems of a
listing that can be read stand in its report.
-/

namespace DeclListing

/-- Why a text cannot be checked. -/
inductive Rejection where
  /-- A stretch of it is no lexeme. -/
  | lexical (error : Located LexError)
  /-- Its tokens are no listing. -/
  | syntactic (error : Located SyntaxError)
  /-- Its tokens are no listing and do not fit the text. -/
  | unreadable
  deriving DecidableEq, Repr

/-- What is said about a text, with what happened on the way. -/
structure Verdict where
  /-- The report, or why there is none. -/
  outcome : Except Rejection Report
  /-- What happened, in order. -/
  events : List Event

/-- Reads and checks a text. -/
def checkText (text : String) : Verdict :=
  match tokensOf text with
  | .error e => { outcome := .error (.lexical e), events := [] }
  | .ok tokens =>
    let lexed : Event := .lexed tokens.length
    match Listing.read text.toList tokens with
    | .rejected e => { outcome := .error (.syntactic e), events := [lexed] }
    | .unreadable => { outcome := .error .unreadable, events := [lexed] }
    | .items items =>
      let report := Listing.check items
      { outcome := .ok report, events := lexed :: .parsed items.length :: report.events }

/-- The items of a reading, or why there are none. -/
def Reading.outcome : Reading → Except Rejection Listing
  | items listing => .ok listing
  | rejected e => .error (.syntactic e)
  | unreadable => .error .unreadable

/-- The listing of a text, or why it has none. -/
def readText (text : String) : Except Rejection Listing :=
  match tokensOf text with
  | .error e => .error (.lexical e)
  | .ok tokens => (Listing.read text.toList tokens).outcome

theorem Reading.outcome_eq_ok_iff {reading : Reading} {items : Listing} :
    reading.outcome = .ok items ↔ reading = .items items := by
  cases reading <;> simp [outcome]

/-- A check answers for the listing of the text. -/
theorem checkText_outcome (text : String) :
    (checkText text).outcome = (readText text).map Listing.check := by
  unfold checkText readText
  cases tokensOf text with
  | error e => rfl
  | ok tokens =>
    dsimp only
    cases Listing.read text.toList tokens <;> rfl

theorem checkText_eq_ok_iff {text : String} {report : Report} :
    (checkText text).outcome = .ok report ↔
      ∃ items, readText text = .ok items ∧ report = items.check := by
  rw [checkText_outcome]
  cases readText text <;> simp [Except.map, eq_comm]

theorem checkText_eq_error_iff {text : String} {rejection : Rejection} :
    (checkText text).outcome = .error rejection ↔ readText text = .error rejection := by
  rw [checkText_outcome]
  cases readText text <;> simp [Except.map]

theorem readText_eq_ok_iff {text : String} {items : Listing} :
    readText text = .ok items ↔
      ∃ tokens, tokensOf text = .ok tokens ∧ Listing.read text.toList tokens = .items items := by
  unfold readText
  cases tokensOf text with
  | error e => simp
  | ok tokens => simp [Reading.outcome_eq_ok_iff]

end DeclListing
