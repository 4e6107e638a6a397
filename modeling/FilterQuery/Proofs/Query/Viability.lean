import FilterQuery.Proofs.Query.Following
import FilterQuery.Proofs.Query.Prefixes

/-
  This file proves that a token is rejected as soon as it
  cannot be right, and not before.

  Key theorems include:
    * `FilterQuery.State.Holds.viable`
    * `FilterQuery.State.Reaches.not_viable_append`
    * `FilterQuery.State.Reaches.sentence_iff`
    * `FilterQuery.Registry.parseLexemes_blames_first`
-/

------------------------------------------------------------
-- Viable Lexemes
------------------------------------------------------------

namespace FilterQuery

namespace Viable

/- What comes before viable lexemes is viable. -/
theorem of_append
    {xs ys : List Lexeme}
    (hViable : Viable (xs ++ ys)) :
    Viable xs := by
  rcases hViable with ⟨zs, ws, hSentence⟩
  rw [List.append_assoc] at hSentence
  exact ⟨ys ++ zs, ws, hSentence⟩

/- A sentence is viable. -/
theorem of_sentence
    {xs : List Lexeme}
    {ws : List Written}
    (hSentence : Sentence xs ws) :
    Viable xs := by
  refine ⟨[], ws, ?_⟩
  rw [List.append_nil]
  exact hSentence

end Viable

/- A lexeme of the token; its place does not matter. -/
def Token.lexeme (t : Token) : Lexeme :=
  ⟨t, 0, 0⟩

/- A comparison; which one does not matter. -/
def fillerOperand : List Lexeme :=
  [(Token.bare "a").lexeme, (Token.operator "==").lexeme,
    (Token.bare "a").lexeme]

/- The comparison is an operand. -/
theorem written_fillerOperand :
    WrittenOperand fillerOperand :=
  .comparison rfl rfl (.single rfl)

end FilterQuery

------------------------------------------------------------
-- Completing What Was Read
------------------------------------------------------------

namespace FilterQuery

variable {R : Registry}

/- A group that was opened can be closed. -/
theorem Group.Opens.written
    {group : Group}
    {closing : Lexeme}
    {xs ys : List Lexeme}
    {parts : List (List Written)}
    (hOpens : group.Opens xs)
    (hInside : Derives Written.reading .disjunction ys parts)
    (hClosing : closing.token = .closeParen) :
    WrittenOperand (xs ++ (ys ++ [closing])) := by
  cases hOpens with
  | plain hOpening =>
      exact ⟨_, .group hOpening hInside hClosing⟩
  | negated hBang hOpening =>
      exact ⟨_, .negation hBang hOpening hInside hClosing⟩

/- A head and arguments are an operand. -/
theorem Head.Holds.written
    {head : Head}
    {xs ys : List Lexeme}
    {arguments : List String}
    (hHead : head.Holds R xs)
    (hArguments : Arguments ys arguments) :
    WrittenOperand (xs ++ ys) := by
  cases hHead with
  | intro hSelector hSymbol _ =>
      exact .comparison hSelector hSymbol hArguments

/- An operand makes its level a disjunction. -/
theorem Level.Holds.written
    {level : Level}
    {xs ys : List Lexeme}
    (hLevel : level.Holds R xs)
    (hOperand : WrittenOperand ys) :
    ∃ parts,
      Derives Written.reading .disjunction (xs ++ ys)
        parts := by
  rcases hOperand with ⟨ws, hWs⟩
  rcases Reading.Awaits.written hLevel with ⟨ps, qs, hBefore⟩
  exact ⟨_, hBefore.close hWs⟩

/-
  Where an operand is due, an operand leaves the query
  viable: the open groups can still be closed.
-/
theorem Groups.Hold.viable
    {groups : List Group}
    {level : Level}
    {xs ys zs : List Lexeme}
    (hGroups : Groups.Hold R groups xs)
    (hLevel : level.Holds R ys)
    (hOperand : WrittenOperand zs) :
    Viable (xs ++ (ys ++ zs)) := by
  induction hGroups generalizing level ys zs with
  | nil =>
      rcases hLevel.written hOperand with ⟨parts, hParts⟩
      exact Viable.of_sentence ⟨parts, hParts, rfl⟩
  | @cons _ _ us vs ts _ hOuter hOpens ih =>
      rcases hLevel.written hOperand with ⟨parts, hParts⟩
      have hClosing :
          Token.closeParen.lexeme.token = .closeParen := rfl
      have hClosed :=
        ih hOuter (hOpens.written hParts hClosing)
      have hViable :
          Viable (us ++ (vs ++ ts) ++ (ys ++ zs) ++
            [Token.closeParen.lexeme]) := by
        simpa using hClosed
      exact hViable.of_append

/- What was read of an operand can be completed. -/
theorem Phase.Holds.completes
    {phase : Phase}
    {xs : List Lexeme}
    (hPhase : phase.Holds R xs) :
    ∃ ys, WrittenOperand (xs ++ ys) := by
  cases hPhase with
  | operand =>
      exact ⟨fillerOperand, written_fillerOperand⟩
  | @negation bang hBang =>
      rcases written_fillerOperand with ⟨ws, hWs⟩
      exact
        ⟨Token.openParen.lexeme ::
          (fillerOperand ++ [Token.closeParen.lexeme]),
          _, .negation hBang rfl hWs.query rfl⟩
  | selector hSelector =>
      exact
        ⟨[(Token.operator "==").lexeme,
          (Token.bare "a").lexeme],
          .comparison hSelector rfl (.single rfl)⟩
  | symbol hHead =>
      exact ⟨[(Token.bare "a").lexeme],
        hHead.written (.single rfl)⟩
  | list hHead hOpening hListed =>
      have hValue :
          (Token.bare "a").lexeme.token.value? = some "a" :=
        rfl
      have hClosing :
          Token.closeParen.lexeme.token = .closeParen := rfl
      have hValues := hListed.append_values (.one hValue)
      have hOperand :=
        hHead.written (.list hOpening hValues hClosing)
      refine
        ⟨[(Token.bare "a").lexeme,
          Token.closeParen.lexeme], ?_⟩
      simpa using hOperand
  | argument hHead hOpening hListed hValue =>
      have hClosing :
          Token.closeParen.lexeme.token = .closeParen := rfl
      have hValues := hListed.append_values (.one hValue)
      have hOperand :=
        hHead.written (.list hOpening hValues hClosing)
      refine ⟨[Token.closeParen.lexeme], ?_⟩
      simpa using hOperand
  | complete hOperand =>
      refine ⟨[], ?_⟩
      rw [List.append_nil]
      exact .of_derives hOperand

namespace State

/- What a state was read from is viable. -/
theorem Holds.viable
    {st : State}
    {xs : List Lexeme}
    (hHolds : st.Holds R xs) :
    Viable xs := by
  cases hHolds with
  | @intro _ _ _ us vs ts hGroups hLevel hPhase =>
      rcases hPhase.completes with ⟨ys, hOperand⟩
      have hViable :
          Viable ((us ++ (vs ++ ts)) ++ ys) := by
        simpa using hGroups.viable hLevel hOperand
      exact hViable.of_append

/- A token that the state admits leaves it viable. -/
theorem Holds.viable_append
    {st : State}
    {x : Lexeme}
    {xs : List Lexeme}
    (hHolds : st.Holds R xs)
    (hAdmits : st.admits x.token = true) :
    Viable (xs ++ [x]) := by
  rcases moves_or_stops_of_admits (R := R) hAdmits with
    ⟨st', hMove⟩ | ⟨halt, hStop⟩
  · exact (holds_of_moves hHolds hMove).viable
  · -- The grammar allows the token; the registry does not.
    cases hHolds with
    | @intro _ _ _ us vs ts hGroups hLevel hPhase =>
        suffices hOperand :
            ∃ ys, WrittenOperand (ts ++ x :: ys) by
          rcases hOperand with ⟨ys, hOperand⟩
          have hViable :
              Viable ((us ++ (vs ++ ts) ++ [x]) ++ ys) := by
            simpa using hGroups.viable hLevel hOperand
          exact hViable.of_append
        cases hStop with
        | unexpected hToken =>
            rw [hAdmits] at hToken
            cases hToken
        | unknownSymbol hToken _ =>
            cases hPhase with
            | selector hSelector =>
                exact ⟨[(Token.bare "a").lexeme],
                  .comparison hSelector hToken (.single rfl)⟩
        | single hValue _ =>
            cases hPhase with
            | symbol hHead =>
                exact ⟨[], hHead.written (.single hValue)⟩
        | closeList hToken _ =>
            cases hPhase with
            | argument hHead hOpening hListed hValue =>
                have hValues :=
                  hListed.append_values (.one hValue)
                have hOperand :=
                  hHead.written
                    (.list hOpening hValues hToken)
                refine ⟨[], ?_⟩
                simpa using hOperand

end State

end FilterQuery

------------------------------------------------------------
-- Lexemes That Cannot Be Right
------------------------------------------------------------

namespace FilterQuery

variable {R : Registry}

namespace Registry

/- What a registry finds wrong is an invalid comparison. -/
theorem invalidNode_of_fault?
    {w : Written}
    {e : ParseError}
    (hFault : R.fault? w = some e) :
    ∃ position cause, e = .invalidNode position cause := by
  unfold fault? at hFault
  split at hFault
  · cases hFault
    exact ⟨_, _, rfl⟩
  · split at hFault
    · cases hFault
      exact ⟨_, _, rfl⟩
    · split at hFault
      · cases hFault
        exact ⟨_, _, rfl⟩
      · cases hFault

/-
  A sentence is parsed, or rejected for an invalid
  comparison; never for its grammar.
-/
theorem parseLexemes_of_sentence
    {xs : List Lexeme}
    {ws : List Written}
    (hSentence : Sentence xs ws) :
    (∃ n, R.parseLexemes xs = .ok n) ∨
      ∃ position cause,
        R.parseLexemes xs =
          .error (.invalidNode position cause) := by
  cases hFault : ws.findSome? R.fault? with
  | none =>
      rcases means_of_sentence hSentence
          (List.findSome?_eq_none_iff.mp hFault) with
        ⟨n, hMeans⟩
      exact Or.inl ⟨n, parseLexemes_of_means hMeans⟩
  | some e =>
      rcases List.exists_of_findSome?_eq_some hFault with
        ⟨w, _, hw⟩
      rcases invalidNode_of_fault? hw with
        ⟨position, cause, rfl⟩
      exact Or.inr
        ⟨position, cause,
          parseLexemes_of_fault hSentence hFault⟩

end Registry

namespace State

namespace Reaches

/-
  A token that the state does not admit cannot be right,
  whatever comes behind it.
-/
theorem not_viable_append
    {st : State}
    {x : Lexeme}
    {xs : List Lexeme}
    (hReaches : Reaches R .start xs st)
    (hToken : st.admits x.token = false) :
    ¬ Viable (xs ++ [x]) := by
  rintro ⟨ys, ws, hSentence⟩
  rw [List.append_assoc, List.singleton_append] at hSentence
  have hFails : Fails R .start (xs ++ x :: ys) _ :=
    .intro hReaches (.unexpected hToken)
  have hParse := hFails.run
  rw [← Registry.parseLexemes_eq_run] at hParse
  rcases Registry.parseLexemes_of_sentence (R := R)
      hSentence with
    ⟨n, hn⟩ | ⟨position, cause, hError⟩
  · rw [hParse] at hn
    cases hn
  · rw [hParse] at hError
    cases hError

/- A query may end in a state if it is a sentence there. -/
theorem sentence_iff
    {st : State}
    {xs : List Lexeme}
    (hReaches : Reaches R .start xs st) :
    (∃ ws, Sentence xs ws) ↔ ∃ n, st.finish = .ok n := by
  have hHolds := holds_of_reaches holds_start hReaches
  have hParse : R.parseLexemes xs = st.finish := by
    rw [Registry.parseLexemes_eq_run, hReaches.run]
  constructor
  · rintro ⟨ws, hSentence⟩
    rcases st.finish_cases with hOk | hEnd
    · exact hOk
    · rcases Registry.parseLexemes_of_sentence (R := R)
          hSentence with
        ⟨n, hn⟩ | ⟨position, cause, hError⟩
      · exact ⟨n, hParse.symm.trans hn⟩
      · rw [hParse, hEnd] at hError
        cases hError
  · rintro ⟨n, hFinish⟩
    exact (means_of_finish hHolds hFinish).sentence

end Reaches

/- Where the end is expected, it is the end of a sentence. -/
theorem finish_of_admitsEnd
    {st : State}
    (hEnd : st.expected.admitsEnd = true) :
    ∃ n, st.finish = .ok n := by
  rcases st with ⟨groups, level, phase⟩
  cases phase with
  | complete n =>
      cases groups with
      | nil => exact ⟨_, rfl⟩
      | cons group groups => cases hEnd
  | _ => cases hEnd

end State

end FilterQuery

------------------------------------------------------------
-- Blame
------------------------------------------------------------

namespace FilterQuery

namespace Registry

variable {R : Registry}

/- An unexpected token is one that its state stops at. -/
theorem reaches_of_unexpectedToken
    {xs : List Lexeme}
    {expected : Expected}
    {got : Token}
    {position : Nat}
    (hParse :
      R.parseLexemes xs =
        .error (.unexpectedToken expected got position)) :
    ∃ before x after st,
      xs = before ++ x :: after ∧
        State.Reaches R .start before st ∧
        st.admits x.token = false ∧
        st.expected = expected ∧
        x.token = got ∧ x.start = position := by
  have hOutcome := R.outcome_parseLexemes xs
  rw [hParse] at hOutcome
  cases hOutcome with
  | stopped hSplit hReaches hStop hError =>
      cases hStop with
      | unexpected hToken =>
          cases hError
          exact ⟨_, _, _, _, hSplit, hReaches, hToken, rfl,
            rfl, rfl⟩
      | _ => cases hError

/- An unexpected end is where all lexemes have been read. -/
theorem reaches_of_unexpectedEnd
    {xs : List Lexeme}
    {expected : Expected}
    (hParse :
      R.parseLexemes xs = .error (.unexpectedEnd expected)) :
    ∃ st,
      State.Reaches R .start xs st ∧
        st.expected = expected ∧
        ¬ ∃ n, st.finish = .ok n := by
  have hOutcome := R.outcome_parseLexemes xs
  rw [hParse] at hOutcome
  cases hOutcome with
  | unfinished hReaches hFinish =>
      refine ⟨_, hReaches, rfl, ?_⟩
      rintro ⟨n, hn⟩
      rw [hFinish] at hn
      cases hn
  | stopped _ _ hStop hError =>
      cases hStop <;> cases hError

/-
  An unexpected token is the first that cannot be right, and
  all that is expected in its place can be right.  Where the
  query ends too early it can go on, with all that is
  expected, but cannot end.
-/
theorem parseLexemes_blames_first
    (R : Registry)
    (xs : List Lexeme) :
    (∀ expected got position,
      R.parseLexemes xs =
          .error (.unexpectedToken expected got position) →
        ∃ before x after,
          xs = before ++ x :: after ∧
            x.start = position ∧
            x.token = got ∧
            Viable before ∧
            ¬ Viable (before ++ [x]) ∧
            (∀ y : Lexeme,
              expected.admits y.token = true →
                Viable (before ++ [y])) ∧
            (expected.admitsEnd = true →
              ∃ ws, Sentence before ws)) ∧
      ∀ expected,
        R.parseLexemes xs = .error (.unexpectedEnd expected) →
          Viable xs ∧
            (¬ ∃ ws, Sentence xs ws) ∧
            ∀ y : Lexeme,
              expected.admits y.token = true →
                Viable (xs ++ [y]) := by
  constructor
  · intro expected got position hParse
    rcases reaches_of_unexpectedToken hParse with
      ⟨before, x, after, st, hSplit, hReaches, hToken, rfl,
        hGot, hPosition⟩
    have hHolds :=
      State.holds_of_reaches State.holds_start hReaches
    refine ⟨before, x, after, hSplit, hPosition, hGot,
      hHolds.viable, hReaches.not_viable_append hToken, ?_,
      ?_⟩
    · intro y hy
      exact hHolds.viable_append (State.admits_of_expected hy)
    · intro hEnd
      exact hReaches.sentence_iff.mpr
        (State.finish_of_admitsEnd hEnd)
  · intro expected hParse
    rcases reaches_of_unexpectedEnd hParse with
      ⟨st, hReaches, rfl, hOpen⟩
    have hHolds :=
      State.holds_of_reaches State.holds_start hReaches
    refine ⟨hHolds.viable, ?_, ?_⟩
    · intro hSentence
      exact hOpen (hReaches.sentence_iff.mp hSentence)
    · intro y hy
      exact hHolds.viable_append (State.admits_of_expected hy)

/-
  The parenthesis in `a==1)` cannot be right, but the query
  may end before it; and `a==` can go on with an argument.
-/
theorem parseLexemes_blames_sample :
    (∃ before x after,
      [⟨.bare "a", 0, 1⟩, ⟨.operator "==", 1, 3⟩,
          ⟨.bare "1", 3, 4⟩, ⟨.closeParen, 4, 5⟩] =
        before ++ x :: after ∧
          x.start = 4 ∧
          ¬ Viable (before ++ [x]) ∧
          ∃ ws, Sentence before ws) ∧
      (¬ ∃ ws,
        Sentence [⟨.bare "a", 0, 1⟩, ⟨.operator "==", 1, 3⟩]
          ws) ∧
      Viable
        [⟨.bare "a", 0, 1⟩, ⟨.operator "==", 1, 3⟩,
          ⟨.bare "1", 3, 4⟩] := by
  constructor
  · have hToken :=
      (parseLexemes_blames_first basic
        [⟨.bare "a", 0, 1⟩, ⟨.operator "==", 1, 3⟩,
          ⟨.bare "1", 3, 4⟩, ⟨.closeParen, 4, 5⟩]).1
    rcases hToken .connective .closeParen 4
        (parseLexemes_eq_run basic _) with
      ⟨before, x, after, hSplit, hStart, _, _, hNot, _,
        hSentence⟩
    exact ⟨before, x, after, hSplit, hStart, hNot,
      hSentence rfl⟩
  · have hEnd :=
      (parseLexemes_blames_first basic
        [⟨.bare "a", 0, 1⟩, ⟨.operator "==", 1, 3⟩]).2
    rcases hEnd .argument (parseLexemes_eq_run basic _) with
      ⟨_, hOpen, hMore⟩
    exact ⟨hOpen, hMore ⟨.bare "1", 3, 4⟩ rfl⟩

end Registry

end FilterQuery
