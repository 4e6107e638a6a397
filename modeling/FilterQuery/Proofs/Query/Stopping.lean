import FilterQuery.Proofs.Query.Faults
import Mathlib

/-
  This file proves that parsing fails fast: nothing behind the
  place of an error has a part in it.

  Key definitions include:
    * `FilterQuery.Registry.progress`
    * `FilterQuery.ParseError.culprit?`

  Key theorems include:
    * `FilterQuery.State.Stops.of_culprit`
    * `FilterQuery.State.Stops.refuses`
    * `FilterQuery.Registry.error_of_prefix`
    * `FilterQuery.Registry.length_le_progress`
    * `FilterQuery.Registry.starts_of_parseLexemes`
    * `FilterQuery.Registry.parseLexemes_fails_fast`

  An error is found at one lexeme.  The lexeme of a token that
  is not allowed, or of an unknown symbol, is looked at and
  not read; the last lexeme of a comparison that is refused
  has been read, and the one behind it has not been looked at.
-/

------------------------------------------------------------
-- Progress
------------------------------------------------------------

namespace FilterQuery

/- The lexemes that are left end the lexemes of the query. -/
theorem State.left_suffix
    (R : Registry)
    (st : State)
    (xs : List Lexeme) :
    (st.run R xs).2 <:+ xs := by
  induction xs generalizing st with
  | nil =>
      exact List.suffix_refl []
  | cons x xs ih =>
      rw [run]
      cases hStep : st.step R x with
      | ok st' =>
          exact (ih st').trans (List.suffix_cons x xs)
      | error halt =>
          cases hConsumed : halt.consumed with
          | true => simp [hConsumed]
          | false => simp [hConsumed]

namespace Registry

/- How many lexemes have been read when parsing ends. -/
def progress
    (R : Registry)
    (xs : List Lexeme) :
    Nat :=
  (Descent.query R xs 0).position

variable {R : Registry}

/- What a run leaves is the query without what was read. -/
theorem left_eq_drop
    (R : Registry)
    (xs : List Lexeme) :
    (State.start.run R xs).2 = xs.drop (R.progress xs) :=
  congrArg Prod.snd (Descent.query_eq_run R xs 0)

/- No more lexemes are read than there are. -/
theorem progress_le_length
    (R : Registry)
    (xs : List Lexeme) :
    R.progress xs ≤ xs.length :=
  (Descent.query R xs 0).inside (Nat.zero_le _)

/- What is read and what is left add up. -/
theorem progress_eq
    (R : Registry)
    (xs : List Lexeme) :
    R.progress xs =
      xs.length - (State.start.run R xs).2.length := by
  have hInside := R.progress_le_length xs
  rw [left_eq_drop, List.length_drop]
  omega

/- A query is read to its end by moves. -/
theorem progress_of_reaches
    {st : State}
    {xs : List Lexeme}
    (hReaches : State.Reaches R .start xs st) :
    R.progress xs = xs.length := by
  rw [progress_eq, hReaches.run]
  rfl

/- A lexeme that ends parsing counts if it was consumed. -/
theorem progress_of_stops
    {st : State}
    {before : List Lexeme}
    {x : Lexeme}
    {halt : Halt}
    (hReaches : State.Reaches R .start before st)
    (hStop : State.Stops R st x halt)
    (after : List Lexeme) :
    R.progress (before ++ x :: after) =
      before.length + if halt.consumed then 1 else 0 := by
  rw [progress_eq, State.run_of_stops hReaches hStop,
    List.length_append, List.length_cons]
  by_cases hConsumed : halt.consumed = true
  · simp only [if_pos hConsumed]
    omega
  · simp only [if_neg hConsumed, List.length_cons]
    omega

/- What is read of a query is read in front of more. -/
theorem length_le_progress
    {st : State}
    {xs : List Lexeme}
    (hReaches : State.Reaches R .start xs st)
    (ys : List Lexeme) :
    xs.length ≤ R.progress (xs ++ ys) := by
  have hLeft := (State.left_suffix R st ys).length_le
  rw [progress_eq, hReaches.run_append, List.length_append]
  omega

end Registry

namespace Descent

/- The lexemes from a position on are parsed by themselves. -/
theorem query_result
    (R : Registry)
    (xs : List Lexeme)
    (start : Nat) :
    (query R xs start).result =
      R.parseLexemes (xs.drop start) := by
  rw [Registry.parseLexemes_eq_run, query_eq_run]

/- They are read as far as they are by themselves. -/
theorem query_position
    (R : Registry)
    {xs : List Lexeme}
    {start : Nat}
    (hInside : start ≤ xs.length) :
    (query R xs start).position =
      start + R.progress (xs.drop start) := by
  have hStart := (query R xs start).advances
  have hEnd := (query R xs start).inside hInside
  rw [Registry.progress_eq, query_eq_run]
  simp only [List.length_drop]
  omega

end Descent

end FilterQuery

------------------------------------------------------------
-- Tokens That Are Not Read
------------------------------------------------------------

namespace FilterQuery

/-
  The token that an error is found at, and where it starts:
  a token that is not allowed, or an unknown symbol.
-/
def ParseError.culprit? : ParseError → Option (Token × Nat)
| .unexpectedToken _ got position => some (got, position)
| .invalidNode position (.unknownOperator symbol) =>
    some (.operator symbol, position)
| _ => none

/- Such an error names the place of its token. -/
theorem ParseError.position?_of_culprit
    {e : ParseError}
    {t : Token}
    {position : Nat}
    (hCulprit : e.culprit? = some (t, position)) :
    e.position? = some position := by
  unfold culprit? at hCulprit
  split at hCulprit
  · cases hCulprit
    rfl
  · cases hCulprit
    rfl
  · cases hCulprit

/- No token by itself makes a comparison impossible. -/
theorem Comparison.culprit?_of_ofParts
    {operator : Operator}
    {selector : String}
    {arguments : List String}
    {cause : NodeError}
    (hRefused :
      ofParts operator selector arguments = .error cause)
    (position : Nat) :
    (ParseError.invalidNode position cause).culprit? =
      none := by
  cases ofParts_eq_error_iff.mp hRefused <;> rfl

namespace State

variable {R : Registry}

/- Such an error is found at its token, which is not read. -/
theorem Stops.of_culprit
    {st : State}
    {x : Lexeme}
    {halt : Halt}
    {t : Token}
    {position : Nat}
    (hStop : Stops R st x halt)
    (hCulprit : halt.error.culprit? = some (t, position)) :
    halt.consumed = false ∧
      x.token = t ∧ x.start = position := by
  cases hStop with
  | unexpected _ =>
      cases hCulprit
      exact ⟨rfl, rfl, rfl⟩
  | unknownSymbol hToken _ =>
      cases hCulprit
      exact ⟨rfl, hToken, rfl⟩
  | single _ hRefused | closeList _ hRefused =>
      rw [Comparison.culprit?_of_ofParts hRefused] at hCulprit
      cases hCulprit

end State

end FilterQuery

------------------------------------------------------------
-- Comparisons That Are Refused
------------------------------------------------------------

namespace FilterQuery

variable {R : Registry}

/- A head and arguments that are refused are to blame. -/
theorem Head.Holds.blames
    {head : Head}
    {xs ys : List Lexeme}
    {arguments : List String}
    {cause : NodeError}
    (hHead : head.Holds R xs)
    (hArguments : Arguments ys arguments)
    (hRefused :
      Comparison.ofParts head.operator head.selector
        arguments = .error cause) :
    ∃ w : Written,
      w.Spells (xs ++ ys) ∧
        R.Blames w (.invalidNode head.start cause) := by
  cases hHead with
  | intro hSelector hSymbol hKnown =>
      have hSpells :=
        Written.Spells.intro hSelector hSymbol hArguments
      refine ⟨_, hSpells, ?_⟩
      rw [← Registry.fault?_eq_some_iff]
      exact Registry.fault?_of_ofParts_error hKnown
        hArguments.ne_nil hRefused

/- The error due to a comparison is at one of its lexemes. -/
theorem Registry.Blames.starts
    {w : Written}
    {xs : List Lexeme}
    {e : ParseError}
    {place : Nat}
    (hBlames : R.Blames w e)
    (hSpells : w.Spells xs)
    (hPlace : e.position? = some place) :
    ∃ x ∈ xs, x.start = place := by
  cases hSpells with
  | @intro x y _ _ _ _ _ _ _ =>
      cases hBlames with
      | unknownOperator _ =>
          cases hPlace
          exact ⟨y, by simp, rfl⟩
      | blankSelector _ _ | tooManyArguments _ _ _ _ =>
          cases hPlace
          exact ⟨x, by simp, rfl⟩

/-
  Where no token by itself is to blame, the lexeme ends a
  comparison that is, and has been read.
-/
theorem State.Stops.refuses
    {st : State}
    {xs : List Lexeme}
    {x : Lexeme}
    {halt : Halt}
    (hHolds : st.Holds R xs)
    (hStop : Stops R st x halt)
    (hNone : halt.error.culprit? = none) :
    halt.consumed = true ∧
      ∃ before zs,
        ∃ w : Written,
          xs ++ [x] = before ++ zs ∧
            w.Spells zs ∧ R.Blames w halt.error := by
  rcases hHolds with
    @⟨groups, level, phase, xs, ys, zs, _, _, hPhase⟩
  cases hStop with
  | unexpected _ | unknownSymbol _ _ =>
      cases hNone
  | single hValue hRefused =>
      cases hPhase with
      | symbol hHead =>
          rcases hHead.blames (.single hValue) hRefused with
            ⟨w, hSpells, hBlames⟩
          refine ⟨rfl, xs ++ ys, _, w, ?_, hSpells, hBlames⟩
          simp only [List.append_assoc]
  | closeList hToken hRefused =>
      cases hPhase with
      | argument hHead hOpening hListed hValue =>
          have hValues := hListed.append_values (.one hValue)
          rw [← List.reverse_cons] at hValues
          rcases hHead.blames (.list hOpening hValues hToken)
              hRefused with
            ⟨w, hSpells, hBlames⟩
          refine ⟨rfl, xs ++ ys, _, w, ?_, hSpells, hBlames⟩
          simp only [List.append_assoc, List.cons_append]

end FilterQuery

------------------------------------------------------------
-- What Comes Behind An Error
------------------------------------------------------------

namespace FilterQuery

namespace Registry

variable {R : Registry}

/-
  Where a query stops and no token by itself is to blame, it
  has been read up to the end of a comparison that is.
-/
theorem refuses_of_stops
    {st : State}
    {before : List Lexeme}
    {x : Lexeme}
    {halt : Halt}
    (hReaches : State.Reaches R .start before st)
    (hStop : State.Stops R st x halt)
    (hNone : halt.error.culprit? = none) :
    halt.consumed = true ∧
      ∃ front zs,
        ∃ w : Written,
          before ++ [x] = front ++ zs ∧
            w.Spells zs ∧ R.Blames w halt.error := by
  have hHolds :=
    State.holds_of_reaches State.holds_start hReaches
  have hRefuses := hStop.refuses hHolds hNone
  rwa [List.nil_append] at hRefuses

/- What stops a query stops every query that begins so. -/
theorem error_of_prefix
    {st : State}
    {before ys : List Lexeme}
    {x : Lexeme}
    {halt : Halt}
    (hReaches : State.Reaches R .start before st)
    (hStop : State.Stops R st x halt)
    (hPrefix : before ++ [x] <+: ys) :
    R.parseLexemes ys = .error halt.error ∧
      R.progress ys =
        before.length + if halt.consumed then 1 else 0 := by
  rcases hPrefix with ⟨after, rfl⟩
  rw [List.append_assoc, List.singleton_append]
  constructor
  · rw [parseLexemes_eq_run,
      State.run_of_stops hReaches hStop]
  · exact progress_of_stops hReaches hStop after

/- An error before the end is found where a run stops. -/
theorem stops_of_parseLexemes
    {xs : List Lexeme}
    {e : ParseError}
    (hParse : R.parseLexemes xs = .error e)
    (hInside : ∀ expected, e ≠ .unexpectedEnd expected) :
    ∃ st before x halt,
      before ++ [x] <+: xs ∧
        State.Reaches R .start before st ∧
        State.Stops R st x halt ∧ halt.error = e := by
  have hOutcome := R.outcome_parseLexemes xs
  rw [hParse] at hOutcome
  cases hOutcome with
  | unfinished _ _ =>
      exact absurd rfl (hInside _)
  | @stopped st before after x halt _ hSplit hReaches hStop
      hError =>
      refine ⟨st, before, x, halt, ⟨after, ?_⟩, hReaches,
        hStop, hError⟩
      rw [hSplit, List.append_assoc, List.singleton_append]

/- The place of an error is where a lexeme starts. -/
theorem starts_of_parseLexemes
    {xs : List Lexeme}
    {e : ParseError}
    {place : Nat}
    (hParse : R.parseLexemes xs = .error e)
    (hPlace : e.position? = some place) :
    ∃ x ∈ xs, x.start = place := by
  have hInside : ∀ expected, e ≠ .unexpectedEnd expected := by
    rintro expected rfl
    cases hPlace
  rcases stops_of_parseLexemes hParse hInside with
    ⟨st, before, x, halt, hPrefix, hReaches, hStop, rfl⟩
  cases hCulprit : halt.error.culprit? with
  | some culprit =>
      rcases culprit with ⟨t, position⟩
      have hStart := (hStop.of_culprit hCulprit).2.2
      rw [ParseError.position?_of_culprit hCulprit] at hPlace
      cases hPlace
      exact ⟨x, hPrefix.subset (by simp), hStart⟩
  | none =>
      rcases refuses_of_stops hReaches hStop hCulprit with
        ⟨_, front, zs, w, hFront, hSpells, hBlames⟩
      rw [hFront] at hPrefix
      rcases hBlames.starts hSpells hPlace with
        ⟨z, hz, hStart⟩
      exact ⟨z, hPrefix.subset (by simp [hz]), hStart⟩

/-
  Nothing behind an error has a part in it.  A token that is
  not allowed and an unknown symbol are found without reading
  them, in every query that begins so far in the same way.  A
  comparison that is refused is found right behind its last
  lexeme, in every query that begins with it.  A query that
  ends too early is read to its end, and in front of more it
  is still read to there.
-/
theorem parseLexemes_fails_fast
    (R : Registry)
    (xs : List Lexeme) :
    (∀ e t position,
        R.parseLexemes xs = .error e →
          e.culprit? = some (t, position) →
            ∃ before x,
              before ++ [x] <+: xs ∧
                x.token = t ∧
                x.start = position ∧
                ∀ ys,
                  before ++ [x] <+: ys →
                    R.parseLexemes ys = .error e ∧
                      R.progress ys = before.length) ∧
      (∀ position cause,
        R.parseLexemes xs =
            .error (.invalidNode position cause) →
          (∀ symbol, cause ≠ .unknownOperator symbol) →
            ∃ before zs,
              ∃ w : Written,
                before ++ zs <+: xs ∧
                  w.Spells zs ∧
                  R.Blames w (.invalidNode position cause) ∧
                  ∀ ys,
                    before ++ zs <+: ys →
                      R.parseLexemes ys =
                          .error
                            (.invalidNode position cause) ∧
                        R.progress ys =
                          (before ++ zs).length) ∧
      ∀ expected,
        R.parseLexemes xs = .error (.unexpectedEnd expected) →
          ∀ ys,
            (∃ n, R.parseLexemes (xs ++ ys) = .ok n) ∨
              ∃ e,
                R.parseLexemes (xs ++ ys) = .error e ∧
                  xs.length ≤ R.progress (xs ++ ys) := by
  refine ⟨?_, ?_, ?_⟩
  · intro e t position hParse hCulprit
    have hInside : ∀ expected, e ≠ .unexpectedEnd expected := by
      rintro expected rfl
      cases hCulprit
    rcases stops_of_parseLexemes hParse hInside with
      ⟨st, before, x, halt, hPrefix, hReaches, hStop, rfl⟩
    rcases hStop.of_culprit hCulprit with
      ⟨hConsumed, hToken, hStart⟩
    refine ⟨before, x, hPrefix, hToken, hStart, ?_⟩
    intro ys hSame
    have hError := error_of_prefix hReaches hStop hSame
    rw [hConsumed] at hError
    exact hError
  · intro position cause hParse hKnown
    have hInside :
        ∀ expected,
          ParseError.invalidNode position cause ≠
            .unexpectedEnd expected := nofun
    rcases stops_of_parseLexemes hParse hInside with
      ⟨st, front, x, halt, hPrefix, hReaches, hStop, hHalt⟩
    have hNone : halt.error.culprit? = none := by
      rw [hHalt]
      cases cause with
      | unknownOperator symbol => exact absurd rfl (hKnown _)
      | _ => rfl
    rcases refuses_of_stops hReaches hStop hNone with
      ⟨hConsumed, before, zs, w, hFront, hSpells, hBlames⟩
    rw [hHalt] at hBlames
    rw [hFront] at hPrefix
    refine ⟨before, zs, w, hPrefix, hSpells, hBlames, ?_⟩
    intro ys hSame
    rw [← hFront] at hSame
    have hError := error_of_prefix hReaches hStop hSame
    rw [hConsumed, hHalt] at hError
    rw [← hFront, List.length_append]
    exact hError
  · intro expected hParse ys
    rcases reaches_of_unexpectedEnd hParse with
      ⟨st, hReaches, _⟩
    cases hMore : R.parseLexemes (xs ++ ys) with
    | ok n =>
        exact Or.inl ⟨n, rfl⟩
    | error e =>
        exact Or.inr ⟨e, rfl, length_le_progress hReaches ys⟩

/-
  Whatever follows, `a==1)` is rejected for its parenthesis
  and `a==(1,2)` for its two arguments; `a==` is not rejected
  for anything in it.
-/
theorem parseLexemes_fails_fast_sample :
    (∀ ys,
        [⟨.bare "a", 0, 1⟩, ⟨.operator "==", 1, 3⟩,
            ⟨.bare "1", 3, 4⟩, ⟨.closeParen, 4, 5⟩] <+: ys →
          basic.parseLexemes ys =
            .error
              (.unexpectedToken .connective .closeParen 4)) ∧
      (∀ ys,
        [⟨.bare "a", 0, 1⟩, ⟨.operator "==", 1, 3⟩,
            ⟨.openParen, 3, 4⟩, ⟨.bare "1", 4, 5⟩,
            ⟨.comma, 5, 6⟩, ⟨.bare "2", 6, 7⟩,
            ⟨.closeParen, 7, 8⟩] <+: ys →
          basic.parseLexemes ys =
            .error
              (.invalidNode 0 (.tooManyArguments "==" 2))) ∧
      ∀ ys e,
        basic.parseLexemes
            ([⟨.bare "a", 0, 1⟩, ⟨.operator "==", 1, 3⟩] ++
              ys) =
            .error e →
          2 ≤
            basic.progress
              ([⟨.bare "a", 0, 1⟩, ⟨.operator "==", 1, 3⟩] ++
                ys) := by
  refine ⟨?_, ?_, ?_⟩
  · intro ys hSame
    rcases (basic.parseLexemes_fails_fast
        [⟨.bare "a", 0, 1⟩, ⟨.operator "==", 1, 3⟩,
          ⟨.bare "1", 3, 4⟩, ⟨.closeParen, 4, 5⟩]).1
        (.unexpectedToken .connective .closeParen 4)
        .closeParen 4 (parseLexemes_eq_run basic _) rfl with
      ⟨before, x, hPrefix, _, _, hAll⟩
    have hLength := (hAll _ hPrefix).2
    have hWhole := hPrefix.eq_of_length (by
      rw [List.length_append, ← hLength, progress_eq]
      rfl)
    rw [← hWhole] at hSame
    exact (hAll ys hSame).1
  · intro ys hSame
    rcases (basic.parseLexemes_fails_fast
        [⟨.bare "a", 0, 1⟩, ⟨.operator "==", 1, 3⟩,
          ⟨.openParen, 3, 4⟩, ⟨.bare "1", 4, 5⟩,
          ⟨.comma, 5, 6⟩, ⟨.bare "2", 6, 7⟩,
          ⟨.closeParen, 7, 8⟩]).2.1
        0 (.tooManyArguments "==" 2)
        (parseLexemes_eq_run basic _) nofun with
      ⟨before, zs, w, hPrefix, _, _, hAll⟩
    have hLength := (hAll _ hPrefix).2
    have hWhole :=
      hPrefix.eq_of_length
        (hLength.symm.trans (basic.progress_eq _))
    rw [← hWhole] at hSame
    exact (hAll ys hSame).1
  · intro ys e hParse
    rcases (basic.parseLexemes_fails_fast
        [⟨.bare "a", 0, 1⟩, ⟨.operator "==", 1, 3⟩]).2.2
        .argument (parseLexemes_eq_run basic _) ys with
      ⟨n, hOk⟩ | ⟨_, _, hProgress⟩
    · rw [hParse] at hOk
      cases hOk
    · exact hProgress

end Registry

end FilterQuery
