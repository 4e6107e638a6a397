import FilterQuery.Proofs.Query.Descending

/-
  This file takes the runs of reading a query apart into
  moves.

  Key definitions include:
    * `FilterQuery.State.Reaches`
    * `FilterQuery.State.Fails`
    * `FilterQuery.State.Outcome`

  Key theorems include:
    * `FilterQuery.State.Reaches.run_append`
    * `FilterQuery.State.Fails.run`
    * `FilterQuery.State.reaches_or_fails`
    * `FilterQuery.Registry.outcome_parseLexemes`

  A run either reads all its lexemes by moves, or stops at
  one of them.  What comes after that lexeme is never looked
  at.
-/

------------------------------------------------------------
-- Reaching A State
------------------------------------------------------------

namespace FilterQuery

namespace State

variable {R : Registry}

/- Moves from one state to another that read the lexemes. -/
inductive Reaches
    (R : Registry) :
    State → List Lexeme → State → Prop
  | refl
      (st : State) :
      Reaches R st [] st
  | step
      {st st' st'' : State}
      {x : Lexeme}
      {xs : List Lexeme}
      (hMove : Moves R st x st')
      (hMore : Reaches R st' xs st'') :
      Reaches R st (x :: xs) st''

namespace Reaches

/- One move reads one lexeme. -/
theorem single
    {st st' : State}
    {x : Lexeme}
    (hMove : Moves R st x st') :
    Reaches R st [x] st' :=
  .step hMove (.refl st')

/- Moves can be continued by moves. -/
theorem trans
    {st st' st'' : State}
    {xs ys : List Lexeme}
    (hFirst : Reaches R st xs st')
    (hSecond : Reaches R st' ys st'') :
    Reaches R st (xs ++ ys) st'' := by
  induction hFirst with
  | refl =>
      exact hSecond
  | step hMove _ ih =>
      exact .step hMove (ih hSecond)

/- Moves pass through a state behind each lexeme. -/
theorem split
    {st st' : State}
    {xs ys : List Lexeme}
    (hReaches : Reaches R st (xs ++ ys) st') :
    ∃ middle,
      Reaches R st xs middle ∧ Reaches R middle ys st' := by
  induction xs generalizing st with
  | nil =>
      exact ⟨st, .refl st, hReaches⟩
  | cons x xs ih =>
      cases hReaches with
      | step hMove hMore =>
          rcases ih hMore with ⟨middle, hFirst, hSecond⟩
          exact ⟨middle, .step hMove hFirst, hSecond⟩

/- A run goes on from the state that was reached. -/
theorem run_append
    {st st' : State}
    {xs : List Lexeme}
    (hReaches : Reaches R st xs st')
    (ys : List Lexeme) :
    run R st (xs ++ ys) = run R st' ys := by
  induction hReaches with
  | refl =>
      rfl
  | step hMove _ ih =>
      rw [List.cons_append, run, step_of_moves hMove]
      exact ih

/- A run that reads everything finishes in the state. -/
theorem run
    {st st' : State}
    {xs : List Lexeme}
    (hReaches : Reaches R st xs st') :
    State.run R st xs = (st'.finish, []) := by
  have hRun := hReaches.run_append []
  rw [List.append_nil] at hRun
  exact hRun

end Reaches

end State

end FilterQuery

------------------------------------------------------------
-- Stopping
------------------------------------------------------------

namespace FilterQuery

namespace State

variable {R : Registry}

/-
  Reading the lexemes from the state stops at one of them
  with the error.
-/
inductive Fails
    (R : Registry)
    (st : State) :
    List Lexeme → ParseError → Prop
  | intro
      {st' : State}
      {xs ys : List Lexeme}
      {x : Lexeme}
      {halt : Halt}
      (hReaches : Reaches R st xs st')
      (hStop : Stops R st' x halt) :
      Fails R st (xs ++ x :: ys) halt.error

/- A run ends where it stops. -/
theorem run_of_stops
    {st st' : State}
    {xs : List Lexeme}
    {x : Lexeme}
    {halt : Halt}
    (hReaches : Reaches R st xs st')
    (hStop : Stops R st' x halt)
    (ys : List Lexeme) :
    run R st (xs ++ x :: ys) =
      (.error halt.error,
        if halt.consumed then ys else x :: ys) := by
  rw [hReaches.run_append, run, step_of_stops hStop]

namespace Fails

/- Stopping at a lexeme is an outcome of the run. -/
theorem run
    {st : State}
    {xs : List Lexeme}
    {e : ParseError}
    (hFails : Fails R st xs e) :
    (State.run R st xs).1 = .error e := by
  cases hFails with
  | intro hReaches hStop =>
      rw [run_of_stops hReaches hStop]

/- What follows the lexeme does not matter. -/
theorem append
    {st : State}
    {xs : List Lexeme}
    {e : ParseError}
    (hFails : Fails R st xs e)
    (ys : List Lexeme) :
    Fails R st (xs ++ ys) e := by
  cases hFails with
  | intro hReaches hStop =>
      rw [List.append_assoc, List.cons_append]
      exact .intro hReaches hStop

/- Moves may come before stopping. -/
theorem of_reaches
    {st st' : State}
    {xs ys : List Lexeme}
    {e : ParseError}
    (hReaches : Reaches R st xs st')
    (hFails : Fails R st' ys e) :
    Fails R st (xs ++ ys) e := by
  cases hFails with
  | intro hMore hStop =>
      rw [← List.append_assoc]
      exact .intro (hReaches.trans hMore) hStop

/- One move may come before stopping. -/
theorem of_moves
    {st st' : State}
    {x : Lexeme}
    {xs : List Lexeme}
    {e : ParseError}
    (hMove : Moves R st x st')
    (hFails : Fails R st' xs e) :
    Fails R st (x :: xs) e :=
  of_reaches (.single hMove) hFails

/- Stopping at the first lexeme. -/
theorem here
    {st : State}
    {x : Lexeme}
    {halt : Halt}
    (hStop : Stops R st x halt)
    (xs : List Lexeme) :
    Fails R st (x :: xs) halt.error :=
  .intro (.refl st) hStop

end Fails

/- Every run reads all lexemes or stops at one. -/
theorem reaches_or_fails
    (R : Registry)
    (st : State)
    (xs : List Lexeme) :
    (∃ st', Reaches R st xs st') ∨
      ∃ e, Fails R st xs e := by
  induction xs generalizing st with
  | nil =>
      exact Or.inl ⟨st, .refl st⟩
  | cons x xs ih =>
      rcases moves_or_stops R st x with
        ⟨st', hMove⟩ | ⟨halt, hStop⟩
      · rcases ih st' with ⟨st'', hReaches⟩ | ⟨e, hFails⟩
        · exact Or.inl ⟨st'', .step hMove hReaches⟩
        · exact Or.inr ⟨e, hFails.of_moves hMove⟩
      · exact Or.inr ⟨halt.error, .here hStop xs⟩

end State

end FilterQuery

------------------------------------------------------------
-- Outcomes
------------------------------------------------------------

namespace FilterQuery

namespace State

/- The tree at the end, or what is missing there. -/
theorem finish_cases (st : State) :
    (∃ n, st.finish = .ok n) ∨
      st.finish = .error (.unexpectedEnd st.expected) := by
  unfold finish
  split
  · exact Or.inl ⟨_, rfl⟩
  · exact Or.inr rfl

/-
  What can become of a query: it is read to its end, which
  completes a tree or comes too early, or reading stops.
-/
inductive Outcome
    (R : Registry)
    (xs : List Lexeme) :
    Except ParseError Node → Prop
  | parsed
      {st : State}
      {n : Node}
      (hReaches : Reaches R .start xs st)
      (hFinish : st.finish = .ok n) :
      Outcome R xs (.ok n)
  | unfinished
      {st : State}
      (hReaches : Reaches R .start xs st)
      (hFinish :
        st.finish = .error (.unexpectedEnd st.expected)) :
      Outcome R xs (.error (.unexpectedEnd st.expected))
  | stopped
      {st : State}
      {before after : List Lexeme}
      {x : Lexeme}
      {halt : Halt}
      {e : ParseError}
      (hSplit : xs = before ++ x :: after)
      (hReaches : Reaches R .start before st)
      (hStop : Stops R st x halt)
      (hError : halt.error = e) :
      Outcome R xs (.error e)

end State

namespace Registry

variable {R : Registry}

/- Every query has such an outcome. -/
theorem outcome_parseLexemes
    (R : Registry)
    (xs : List Lexeme) :
    State.Outcome R xs (R.parseLexemes xs) := by
  rw [parseLexemes_eq_run]
  rcases State.reaches_or_fails R .start xs with
    ⟨st, hReaches⟩ | ⟨e, hFails⟩
  · rw [hReaches.run]
    rcases st.finish_cases with ⟨n, hFinish⟩ | hFinish
    · rw [hFinish]
      exact .parsed hReaches hFinish
    · rw [hFinish]
      exact .unfinished hReaches hFinish
  · rw [hFails.run]
    cases hFails with
    | intro hReaches hStop =>
        exact .stopped rfl hReaches hStop rfl

/- A query that is parsed is read to its end. -/
theorem reaches_of_parseLexemes
    {xs : List Lexeme}
    {n : Node}
    (hParse : R.parseLexemes xs = .ok n) :
    ∃ st,
      State.Reaches R .start xs st ∧ st.finish = .ok n := by
  have hOutcome := R.outcome_parseLexemes xs
  rw [hParse] at hOutcome
  cases hOutcome with
  | parsed hReaches hFinish =>
      exact ⟨_, hReaches, hFinish⟩

end Registry

end FilterQuery
