import DeclListing.Proofs.LineAccounts

/-! A lexer is a cursor over the results of a text. However single steps, readings up
to the next fault and readings to the end follow each other, every answer is cut out
of the one stream of results that single steps give, from where the answer before it
stopped. The stream is said without the lexer: the answers before the end, and the
token of the end, which comes again and again. -/
namespace DeclListing.LexerCursor
open LexerTiling LineAccounts TokenGrammarExactness

/-- The results of a text: tokens and faults, and then its end. -/
structure ResultStream where
  /-- The results before the end. -/
  before : List LexResult
  /-- The token of the end. -/
  last : Token
  /-- Nothing before the end is the end. -/
  more : ∀ r ∈ before, Lexer.isEnd r = false
  /-- The end is one. -/
  ends : last.terminal = .eof

/-- All results, with the end as the last one. -/
def ResultStream.results (s : ResultStream) : List LexResult :=
  s.before ++ [.ok s.last]

variable {s : ResultStream} {k m n : Nat} {l : Lexer} {r : LexResult}
  {step : Lexer.Step} {steps : List Lexer.Step} {a b : Lexer.Answer}
  {answers others : List Lexer.Answer} {tokens front front' : List Token}
  {back back' : List LexResult} {e e' : Located LexError}

/-- `Moves s k step a m`: with the cursor in front of the `k`-th result, the step is
answered by `a` and leaves the cursor in front of the `m`-th. Behind the last result
there is only the end to be answered, or no token at all. -/
inductive Moves (s : ResultStream) : Nat → Lexer.Step → Lexer.Answer → Nat → Prop where
  | next {k : Nat} {r : LexResult} :
      s.results[k]? = some r → Moves s k .next (.next r) (k + 1)
  | nextAtEnd : Moves s s.results.length .next (.next (.ok s.last)) s.results.length
  | tokens {k : Nat} {tokens : List Token} :
      k < s.results.length → s.results.drop k = tokens.map .ok →
      Moves s k .tokenize (.tokenize (.ok tokens)) s.results.length
  | fault {k : Nat} {front : List Token} {e : Located LexError} {back : List LexResult} :
      s.results.drop k = front.map .ok ++ .error e :: back →
      Moves s k .tokenize (.tokenize (.error e)) (k + front.length + 1)
  | tokensAtEnd : Moves s s.results.length .tokenize (.tokenize (.ok [])) s.results.length
  | drain {k : Nat} :
      k < s.results.length → Moves s k .drain (.drain (s.results.drop k)) s.results.length
  | drainAtEnd : Moves s s.results.length .drain (.drain [.ok s.last]) s.results.length

/-- `Follows s k steps answers m`: from the `k`-th result on, the steps are answered
so, one behind the other, and leave the cursor in front of the `m`-th. -/
inductive Follows (s : ResultStream) : Nat → List Lexer.Step → List Lexer.Answer → Nat → Prop where
  | nothing {k : Nat} : Follows s k [] [] k
  | step {k m n : Nat} {step : Lexer.Step} {a : Lexer.Answer} {steps : List Lexer.Step}
      {answers : List Lexer.Answer} :
      Moves s k step a m → Follows s m steps answers n →
      Follows s k (step :: steps) (a :: answers) n

theorem split_at_fault
    (same : front.map .ok ++ .error e :: back = front'.map .ok ++ .error e' :: back') :
    front = front' ∧ e = e' := by
  induction front generalizing front' with
  | nil =>
    cases front' with
    | nil => simpa using (List.cons.inj same).1
    | cons t front' => simp at same
  | cons t front ih =>
    cases front' with
    | nil => simp at same
    | cons u front' =>
      obtain ⟨first, later⟩ := List.cons.inj same
      obtain ⟨rfl, rfl⟩ := ih later
      exact ⟨congrArg (· :: front) (Except.ok.inj first), rfl⟩

theorem no_fault_among_tokens : tokens.map .ok ≠ front.map .ok ++ .error e :: back := by
  intro same
  have among : Except.error e ∈ tokens.map (.ok : Token → LexResult) := by
    rw [same]
    simp
  obtain ⟨t, -, other⟩ := List.mem_map.mp among
  cases other

theorem tokens_of_results (same : tokens.map (.ok : Token → LexResult) = front.map .ok) :
    tokens = front :=
  (List.map_inj_right fun _ _ => Except.ok.inj).mp same

/-- What is read up to the first fault is settled by the results. -/
theorem up_to_fault_unique {results : List LexResult}
    {first second : Except (Located LexError) (List Token)}
    (one : UpToFault results first) (other : UpToFault results second) : first = second := by
  cases first with
  | ok tokens =>
    cases second with
    | ok more => exact congrArg _ (tokens_of_results (one.symm.trans other))
    | error e =>
      obtain ⟨front, back, split⟩ := other
      exact absurd (one.symm.trans split) no_fault_among_tokens
  | error e =>
    obtain ⟨front, back, split⟩ := one
    cases second with
    | ok tokens => exact absurd (other.symm.trans split) no_fault_among_tokens
    | error e' =>
      obtain ⟨front', back', split'⟩ := other
      exact congrArg _ (split_at_fault (split.symm.trans split')).2

/-- The end is the last result, and no other is one. -/
theorem end_iff_last (here : s.results[k]? = some r) :
    Lexer.isEnd r = true ↔ k + 1 = s.results.length := by
  rw [ResultStream.results, List.length_append, List.length_singleton, Nat.add_right_cancel_iff]
  by_cases before : k < s.before.length
  · rw [ResultStream.results, List.getElem?_append_left before] at here
    have other := s.more r (List.mem_of_getElem? here)
    simp only [other, Bool.false_eq_true, false_iff]
    omega
  · rw [ResultStream.results, List.getElem?_append_right (by omega)] at here
    obtain ⟨inside, rfl⟩ := List.getElem?_eq_some_iff.mp here
    have place : k = s.before.length := by simp at inside; omega
    simp [Lexer.isEnd, s.ends, place]

/-- The end stands behind every place before it. -/
theorem end_behind (inside : k < s.results.length) : .ok s.last ∈ s.results.drop k := by
  have within : k ≤ s.before.length := by
    rw [ResultStream.results, List.length_append, List.length_singleton] at inside
    omega
  rw [ResultStream.results, List.drop_append_of_le_length within]
  simp

/-- A fault is not the last result. -/
theorem fault_before_end (split : s.results.drop k = front.map .ok ++ .error e :: back) :
    k + front.length + 1 < s.results.length := by
  have here : s.results[k + front.length]? = some (.error e) := by
    rw [← List.getElem?_drop, split, List.getElem?_append_right (by simp)]
    simp
  have inside := (List.getElem?_eq_some_iff.mp here).1
  have other : k + front.length + 1 ≠ s.results.length := by
    intro last
    cases (end_iff_last here).mpr last
  omega

theorem drop_here (here : s.results[k]? = some r) :
    s.results.drop k = r :: s.results.drop (k + 1) := by
  obtain ⟨inside, rfl⟩ := List.getElem?_eq_some_iff.mp here
  exact List.drop_eq_getElem_cons inside

/-- A step moves the cursor in one way only. -/
theorem moves_unique (first : Moves s k step a m) (second : Moves s k step b n) :
    a = b ∧ m = n := by
  cases first with
  | next here =>
    cases second with
    | next here' =>
      obtain rfl := Option.some.inj (here.symm.trans here')
      exact ⟨rfl, rfl⟩
    | nextAtEnd => simp at here
  | nextAtEnd =>
    cases second with
    | next here => simp at here
    | nextAtEnd => exact ⟨rfl, rfl⟩
  | tokens inside split =>
    cases second with
    | tokens _ split' =>
      obtain rfl := tokens_of_results (split.symm.trans split')
      exact ⟨rfl, rfl⟩
    | fault split' => exact absurd (split.symm.trans split') no_fault_among_tokens
    | tokensAtEnd => exact absurd inside (Nat.lt_irrefl _)
  | fault split =>
    cases second with
    | tokens _ split' => exact absurd (split'.symm.trans split) no_fault_among_tokens
    | fault split' =>
      obtain ⟨rfl, rfl⟩ := split_at_fault (split.symm.trans split')
      exact ⟨rfl, rfl⟩
    | tokensAtEnd => simp at split
  | tokensAtEnd =>
    cases second with
    | tokens inside => exact absurd inside (Nat.lt_irrefl _)
    | fault split => simp at split
    | tokensAtEnd => exact ⟨rfl, rfl⟩
  | drain inside =>
    cases second with
    | drain => exact ⟨rfl, rfl⟩
    | drainAtEnd => exact absurd inside (Nat.lt_irrefl _)
  | drainAtEnd =>
    cases second with
    | drain inside => exact absurd inside (Nat.lt_irrefl _)
    | drainAtEnd => exact ⟨rfl, rfl⟩

theorem follows_unique (first : Follows s k steps answers m)
    (second : Follows s k steps others n) : answers = others ∧ m = n := by
  induction first generalizing others n with
  | nothing =>
    cases second
    exact ⟨rfl, rfl⟩
  | step move _ ih =>
    cases second with
    | step move' later =>
      obtain ⟨rfl, rfl⟩ := moves_unique move move'
      obtain ⟨rfl, rfl⟩ := ih later
      exact ⟨rfl, rfl⟩

/-- The end of the text is among the results that an answer gives. -/
def GivesEnd (a : Lexer.Answer) : Prop :=
  ∃ r ∈ resultsOf a, Lexer.isEnd r = true

/-- A step reaches the place behind the last result by answering the end, and stays
there. -/
theorem moves_end (move : Moves s k step a m) :
    m = s.results.length ↔ k = s.results.length ∨ GivesEnd a := by
  have last : Lexer.isEnd (.ok s.last) = true := by simp [Lexer.isEnd, s.ends]
  cases move with
  | next here =>
    have inside := (List.getElem?_eq_some_iff.mp here).1
    simp only [GivesEnd, resultsOf, List.mem_singleton, exists_eq_left, end_iff_last here]
    omega
  | tokens inside split =>
    have given : GivesEnd (.tokenize (.ok _)) := ⟨_, split ▸ end_behind inside, last⟩
    simp [given]
  | fault split =>
    have before := fault_before_end split
    simp only [GivesEnd, resultsOf, List.mem_singleton, exists_eq_left, Lexer.isEnd,
      Bool.false_eq_true, or_false]
    omega
  | drain inside =>
    have given : GivesEnd (.drain _) := ⟨_, end_behind inside, last⟩
    simp [given]
  | nextAtEnd | tokensAtEnd | drainAtEnd => simp

theorem follows_end (follows : Follows s k steps answers m) :
    m = s.results.length ↔ k = s.results.length ∨ ∃ a ∈ answers, GivesEnd a := by
  induction follows with
  | nothing => simp
  | step move _ ih => rw [ih, moves_end move]; simp [or_assoc]

/-! ## The lexer as a cursor -/

/-- A lexer stands at a place of the stream: the results from there on are those that
it still has to give, or it has answered the end and answers it again. -/
inductive Stands (s : ResultStream) : Nat → Lexer → Prop where
  | inside {k : Nat} {l : Lexer} :
      l.finished = false → k < s.results.length → l.drain.1 = s.results.drop k → Stands s k l
  | atEnd {l : Lexer} :
      l.finished = true → l.next = (.ok s.last, l) → Stands s s.results.length l

private theorem next_at_end (l : Lexer) :
    (atEnd l).next = (.ok (Lexer.endToken (atEnd l).offset (atEnd l).line), atEnd l) := by
  have again : atEnd (atEnd l) = atEnd l := by simp [atEnd, Text.lineFeeds]
  rw [next_end .nothing, again]

/-- One step gives the result at the cursor and goes on behind it; behind the last
result it gives the end again and changes nothing. -/
theorem next_stands (stands : Stands s k l) :
    (s.results[k]? = some l.next.1 ∧ Stands s (k + 1) l.next.2) ∨
      k = s.results.length ∧ l.finished = true ∧ l.next = (.ok s.last, l) := by
  cases stands with
  | atEnd finished again => exact .inr ⟨rfl, finished, again⟩
  | inside unfinished inside rest =>
    left
    -- Only the end of the text leads behind the last result; anything else has more behind it.
    rcases next_stretch l with ⟨trivia, step⟩ | ⟨gap, written, left, part⟩
    · rw [drain_end (by rw [step]; rfl)] at rest
      have here : s.results[k]? = some l.next.1 := by rw [← List.head?_drop, ← rest]; rfl
      have reached := (end_iff_last here).mp (by rw [step]; rfl)
      have last : .ok s.last = l.next.1 := by
        have among := end_behind inside
        rwa [← rest, List.mem_singleton] at among
      refine ⟨here, ?_⟩
      rw [reached]
      apply Stands.atEnd
      · rw [step]
        rfl
      · rw [last, step]
        exact next_at_end l
    · rw [drain_more part.notEnd] at rest
      have here : s.results[k]? = some l.next.1 := by rw [← List.head?_drop, ← rest]; rfl
      have more : k + 1 ≠ s.results.length := by
        intro last
        rw [← end_iff_last here, part.notEnd] at last
        cases last
      refine ⟨here, .inside (part.finished.trans unfinished) (by omega) ?_⟩
      rw [← List.tail_drop, ← rest]
      rfl

/-- Reading up to the next fault gives the tokens before the end, or the fault. -/
theorem tokenize_moves (stands : Stands s k l) :
    ∃ m, Moves s k .tokenize (.tokenize l.tokenize.1) m ∧ Stands s m l.tokenize.2 := by
  fun_induction Lexer.tokenize l generalizing k with
  | case1 l finished =>
    cases stands with
    | inside unfinished => simp [finished] at unfinished
    | atEnd _ again => exact ⟨_, .tokensAtEnd, .atEnd finished again⟩
  | case2 l unfinished e after step =>
    rcases next_stands stands with ⟨here, behind⟩ | ⟨-, finished, -⟩
    · rw [step] at here behind
      have split : s.results.drop k =
          ([] : List Token).map .ok ++ .error e :: s.results.drop (k + 1) := drop_here here
      exact ⟨k + 1, .fault split, behind⟩
    · exact absurd finished unfinished
  | case3 l unfinished t after step tokens last read ih =>
    rcases next_stands stands with ⟨here, behind⟩ | ⟨-, finished, -⟩
    · rw [step] at here behind
      have inside := (List.getElem?_eq_some_iff.mp here).1
      obtain ⟨m, move, behind⟩ := ih behind
      rw [read] at move behind
      refine ⟨m, ?_, behind⟩
      -- The answer to the rest is a move from behind this token, which stands in front of it.
      generalize place : k + 1 = next at move
      cases move with
      | @tokens _ later _ split =>
        subst place
        have all : s.results.drop k = (t :: later).map .ok := by
          rw [drop_here here, split]
          rfl
        exact .tokens inside all
      | @fault _ front _ _ split =>
        subst place
        have moved : k + 1 + front.length + 1 = k + (t :: front).length + 1 := by simp; omega
        rw [moved]
        exact .fault (by rw [drop_here here, split]; rfl)
      | tokensAtEnd =>
        have all : s.results.drop k = [t].map .ok := by
          rw [drop_here here, place]
          simp
        exact .tokens inside all
    · exact absurd finished unfinished

theorem drain_reaches_end (stands : Stands s k l) : Stands s s.results.length l.drain.2 := by
  fun_induction Lexer.drain l generalizing k with
  | case1 l ends =>
    rcases next_stands stands with ⟨here, behind⟩ | ⟨rfl, -, again⟩
    · rwa [(end_iff_last here).mp ends] at behind
    · rwa [again]
  | case2 l more results last read ih =>
    rcases next_stands stands with ⟨-, behind⟩ | ⟨-, -, again⟩
    · have reached := ih behind
      rwa [read] at reached
    · simp [again, Lexer.isEnd, s.ends] at more

/-- Reading to the end gives all results from the cursor on. -/
theorem drain_moves (stands : Stands s k l) :
    Moves s k .drain (.drain l.drain.1) s.results.length := by
  cases stands with
  | inside _ inside rest =>
    rw [rest]
    exact .drain inside
  | atEnd _ again =>
    rw [drain_end (by rw [again]; simp [Lexer.isEnd, s.ends]), again]
    exact .drainAtEnd

/-- Every step moves the cursor. -/
theorem step_moves (stands : Stands s k l) (step : Lexer.Step) :
    ∃ m, Moves s k step (l.step step).1 m ∧ Stands s m (l.step step).2 := by
  cases step with
  | next =>
    rcases next_stands stands with ⟨here, behind⟩ | ⟨rfl, -, again⟩
    · exact ⟨k + 1, .next here, behind⟩
    · rw [Lexer.step, again]
      exact ⟨_, .nextAtEnd, stands⟩
  | tokenize => exact tokenize_moves stands
  | drain => exact ⟨_, drain_moves stands, drain_reaches_end stands⟩

theorem run_follows (steps : List Lexer.Step) (stands : Stands s k l) :
    ∃ m, Follows s k steps (l.run steps) m := by
  induction steps generalizing k l with
  | nil => exact ⟨k, .nothing⟩
  | cons step steps ih =>
    obtain ⟨m, move, behind⟩ := step_moves stands step
    obtain ⟨n, later⟩ := ih behind
    exact ⟨n, .step move later⟩

/-- Single steps to the end of a text give a stream of results. -/
theorem drain_stream (l : Lexer) : ∃ s : ResultStream, s.results = l.drain.1 := by
  apply drain_induction (motive := fun _ results => ∃ s : ResultStream, s.results = results)
  · intro l _
    exact ⟨{ before := [], last := _, more := by simp, ends := rfl }, rfl⟩
  · rintro l gap written rest _ part ⟨s, rfl⟩
    refine ⟨{ s with before := l.next.1 :: s.before, more := ?_ }, rfl⟩
    exact List.forall_mem_cons.mpr ⟨part.notEnd, s.more⟩

/-- A lexer is a cursor over the results that single steps give from the start of the
text to its end. Any steps in any order are answered as the cursor moves, and in no
other way; the cursor is behind the last result exactly when the end has been
answered. In particular, reading a text as tokens comes to all its results, or to
the first fault among them. -/
theorem lexer_cursor_exact (text : String) :
    ∃ s : ResultStream,
      (Lexer.ofText text).run (List.replicate s.results.length .next) = s.results.map .next ∧
      (∀ steps answers, (Lexer.ofText text).run steps = answers ↔
        ∃ k, Follows s 0 steps answers k ∧
          (k = s.results.length ↔ ∃ a ∈ answers, GivesEnd a)) ∧
      ∀ outcome, tokensOf text = outcome ↔ UpToFault s.results outcome := by
  obtain ⟨s, stream⟩ := drain_stream (.ofText text)
  have nonempty : 0 < s.results.length := by simp [ResultStream.results]
  have start : Stands s 0 (.ofText text) := .inside rfl nonempty stream.symm
  refine ⟨s, ?_, fun steps answers => ⟨?_, ?_⟩, fun outcome => ⟨?_, fun read => ?_⟩⟩
  · rw [stream]
    exact drain_steps _
  · rintro rfl
    obtain ⟨k, follows⟩ := run_follows steps start
    refine ⟨k, follows, (follows_end follows).trans (or_iff_right ?_)⟩
    omega
  · rintro ⟨k, follows, -⟩
    obtain ⟨m, answered⟩ := run_follows steps start
    exact (follows_unique answered follows).1
  · rintro rfl
    rw [stream]
    exact tokenize_drain _ rfl
  · have answered := tokenize_drain (.ofText text) rfl
    rw [← stream] at answered
    exact up_to_fault_unique answered read

end DeclListing.LexerCursor
