import FilterQuery.Proofs.Query.Derivations
import FilterQuery.Proofs.Query.Runs

/-
  This file says what a state knows of the lexemes that have
  been read: they are an unfinished derivation.

  Key definitions include:
    * `FilterQuery.Reading.Awaits`
    * `FilterQuery.Level.Holds`
    * `FilterQuery.Groups.Hold`
    * `FilterQuery.Phase.Holds`
    * `FilterQuery.State.Holds`

  Key theorems include:
    * `FilterQuery.Reading.Awaits.close`
    * `FilterQuery.State.holds_of_moves`
    * `FilterQuery.State.holds_of_reaches`
    * `FilterQuery.Registry.means_of_parseLexemes`

  The lexemes of a state fall into three stretches: the open
  groups, the level inside the innermost of them, and the
  operand that is being read.
-/

------------------------------------------------------------
-- Unfinished Lists
------------------------------------------------------------

namespace FilterQuery

/- Values, each with a comma behind it. -/
inductive Listed : List Lexeme → List String → Prop
  | nil : Listed [] []
  | snoc
      {x comma : Lexeme}
      {value : String}
      {xs : List Lexeme}
      {values : List String}
      (hBefore : Listed xs values)
      (hValue : x.token.value? = some value)
      (hComma : comma.token = .comma) :
      Listed (xs ++ [x, comma]) (values ++ [value])

/- Values may follow an unfinished list. -/
theorem Listed.append_values
    {xs ys : List Lexeme}
    {before after : List String}
    (hListed : Listed xs before)
    (hValues : Values ys after) :
    Values (xs ++ ys) (before ++ after) := by
  induction hListed generalizing ys after with
  | nil =>
      exact hValues
  | snoc _ hValue hComma ih =>
      rw [List.append_assoc, List.append_assoc]
      exact ih (.more hValue hComma hValues)

/-
  Lexemes of a level that waits for an operand: conjunctions,
  each with a comma behind it, and operands of the next one,
  each with a semicolon behind it.
-/
inductive Reading.Awaits
    {α : Type}
    (I : Reading α) :
    List Lexeme → List α → List α → Prop
  | nil : Reading.Awaits I [] [] []
  | operand
      {semicolon : Lexeme}
      {xs ys : List Lexeme}
      {conjunctions operands : List α}
      {a : α}
      (hBefore : I.Awaits xs conjunctions operands)
      (hOperand : Derives I .operand ys [a])
      (hSemicolon : semicolon.token = .semicolon) :
      Reading.Awaits I (xs ++ (ys ++ [semicolon]))
        conjunctions (operands ++ [a])
  | conjunction
      {comma : Lexeme}
      {xs ys : List Lexeme}
      {conjunctions operands : List α}
      {a : α}
      (hBefore : I.Awaits xs conjunctions operands)
      (hOperand : Derives I .operand ys [a])
      (hComma : comma.token = .comma) :
      Reading.Awaits I (xs ++ (ys ++ [comma]))
        (conjunctions ++ [I.join .and (operands ++ [a])]) []

namespace Reading.Awaits

variable {α β : Type}
variable {I : Reading α} {J : Reading β}

/- A conjunction goes on with the operands that wait. -/
theorem append_conjunction
    {xs ys : List Lexeme}
    {conjunctions operands as : List α}
    (hAwaits : I.Awaits xs conjunctions operands)
    (hConjunction : Derives I .conjunction ys as) :
    Derives I .disjunction (xs ++ ys)
      (conjunctions ++ [I.join .and (operands ++ as)]) := by
  induction hAwaits generalizing ys as with
  | nil =>
      exact .oneConjunction hConjunction
  | operand _ hOperand hSemicolon ih =>
      have hMore := ih
        (.moreOperands hOperand hSemicolon hConjunction)
      simpa using hMore
  | conjunction _ hOperand hComma ih =>
      have hMore :=
        (ih (.oneOperand hOperand)).append_conjunction hComma
          hConjunction
      simpa using hMore

/- The operand that was waited for ends the level. -/
theorem close
    {xs ys : List Lexeme}
    {conjunctions operands : List α}
    {a : α}
    (hAwaits : I.Awaits xs conjunctions operands)
    (hOperand : Derives I .operand ys [a]) :
    Derives I .disjunction (xs ++ ys)
      (conjunctions ++ [I.join .and (operands ++ [a])]) :=
  hAwaits.append_conjunction (.oneOperand hOperand)

/- What waits with a meaning also waits as written. -/
theorem written
    {xs : List Lexeme}
    {conjunctions operands : List α}
    (hAwaits : I.Awaits xs conjunctions operands) :
    ∃ ps qs, Written.reading.Awaits xs ps qs := by
  induction hAwaits with
  | nil =>
      exact ⟨[], [], .nil⟩
  | operand _ hOperand hSemicolon ih =>
      rcases ih with ⟨ps, qs, hBefore⟩
      rcases WrittenOperand.of_derives hOperand with ⟨ws, hWs⟩
      exact ⟨_, _, .operand hBefore hWs hSemicolon⟩
  | conjunction _ hOperand hComma ih =>
      rcases ih with ⟨ps, qs, hBefore⟩
      rcases WrittenOperand.of_derives hOperand with ⟨ws, hWs⟩
      exact ⟨_, _, .conjunction hBefore hWs hComma⟩

end Reading.Awaits

end FilterQuery

------------------------------------------------------------
-- Unfinished Queries
------------------------------------------------------------

namespace FilterQuery

/- The lexemes that a level was read from. -/
def Level.Holds
    (R : Registry)
    (level : Level)
    (xs : List Lexeme) : Prop :=
  R.reading.Awaits xs level.conjunctions.reverse
    level.operands.reverse

/- The lexemes that open a group. -/
inductive Group.Opens : Group → List Lexeme → Prop
  | plain
      {opening : Lexeme}
      {outer : Level}
      (hOpening : opening.token = .openParen) :
      Group.Opens ⟨false, outer⟩ [opening]
  | negated
      {bang opening : Lexeme}
      {outer : Level}
      (hBang : bang.token = .bang)
      (hOpening : opening.token = .openParen) :
      Group.Opens ⟨true, outer⟩ [bang, opening]

/-
  The lexemes that open groups were read from, up to the
  innermost opening parenthesis.
-/
inductive Groups.Hold
    (R : Registry) :
    List Group → List Lexeme → Prop
  | nil : Groups.Hold R [] []
  | cons
      {group : Group}
      {groups : List Group}
      {xs ys zs : List Lexeme}
      (hGroups : Groups.Hold R groups xs)
      (hOuter : group.outer.Holds R ys)
      (hOpens : group.Opens zs) :
      Groups.Hold R (group :: groups) (xs ++ (ys ++ zs))

/- The lexemes that the head of a comparison was read from. -/
inductive Head.Holds
    (R : Registry) :
    Head → List Lexeme → Prop
  | intro
      {x y : Lexeme}
      {selector symbol : String}
      {operator : Operator}
      (hSelector : x.token.value? = some selector)
      (hSymbol : y.token = .operator symbol)
      (hKnown : R.get? symbol = some operator) :
      Head.Holds R ⟨operator, selector, x.start⟩ [x, y]

/- The lexemes that the current operand was read from. -/
inductive Phase.Holds
    (R : Registry) :
    Phase → List Lexeme → Prop
  | operand : Phase.Holds R .operand []
  | negation
      {bang : Lexeme}
      (hBang : bang.token = .bang) :
      Phase.Holds R .negation [bang]
  | selector
      {x : Lexeme}
      {selector : String}
      (hSelector : x.token.value? = some selector) :
      Phase.Holds R (.selector selector x.start) [x]
  | symbol
      {head : Head}
      {xs : List Lexeme}
      (hHead : head.Holds R xs) :
      Phase.Holds R (.symbol head) xs
  | list
      {head : Head}
      {opening : Lexeme}
      {xs ys : List Lexeme}
      {arguments : List String}
      (hHead : head.Holds R xs)
      (hOpening : opening.token = .openParen)
      (hListed : Listed ys arguments.reverse) :
      Phase.Holds R (.list head arguments)
        (xs ++ opening :: ys)
  | argument
      {head : Head}
      {opening x : Lexeme}
      {xs ys : List Lexeme}
      {argument : String}
      {arguments : List String}
      (hHead : head.Holds R xs)
      (hOpening : opening.token = .openParen)
      (hListed : Listed ys arguments.reverse)
      (hValue : x.token.value? = some argument) :
      Phase.Holds R (.argument head argument arguments)
        (xs ++ opening :: (ys ++ [x]))
  | complete
      {n : Node}
      {xs : List Lexeme}
      (hOperand : Derives R.reading .operand xs [n]) :
      Phase.Holds R (.complete n) xs

/- The lexemes that a state was read from. -/
inductive State.Holds
    (R : Registry) :
    State → List Lexeme → Prop
  | intro
      {groups : List Group}
      {level : Level}
      {phase : Phase}
      {xs ys zs : List Lexeme}
      (hGroups : Groups.Hold R groups xs)
      (hLevel : level.Holds R ys)
      (hPhase : phase.Holds R zs) :
      State.Holds R ⟨groups, level, phase⟩
        (xs ++ (ys ++ zs))

end FilterQuery

------------------------------------------------------------
-- Finished Parts
------------------------------------------------------------

namespace FilterQuery

variable {R : Registry}

/- The operands of a level mean its conjunction. -/
theorem Level.join_conjunction
    (level : Level)
    (n : Node) :
    R.reading.join .and (level.operands.reverse ++ [n]) =
      level.conjunction n := by
  rw [← List.reverse_cons]
  rfl

namespace Level.Holds

/- Nothing has been read in the empty level. -/
theorem empty : Level.empty.Holds R [] :=
  .nil

/- An operand and a semicolon are added. -/
theorem pushOperand
    {level : Level}
    {semicolon : Lexeme}
    {xs ys : List Lexeme}
    {n : Node}
    (hLevel : level.Holds R xs)
    (hOperand : Derives R.reading .operand ys [n])
    (hSemicolon : semicolon.token = .semicolon) :
    (level.pushOperand n).Holds R
      (xs ++ (ys ++ [semicolon])) := by
  have hMore :=
    Reading.Awaits.operand hLevel hOperand hSemicolon
  rw [← List.reverse_cons] at hMore
  exact hMore

/- An operand and a comma are added. -/
theorem pushConjunction
    {level : Level}
    {comma : Lexeme}
    {xs ys : List Lexeme}
    {n : Node}
    (hLevel : level.Holds R xs)
    (hOperand : Derives R.reading .operand ys [n])
    (hComma : comma.token = .comma) :
    (level.pushConjunction n).Holds R
      (xs ++ (ys ++ [comma])) := by
  have hMore :=
    Reading.Awaits.conjunction hLevel hOperand hComma
  rw [level.join_conjunction, ← List.reverse_cons] at hMore
  exact hMore

/- The last operand makes the level a disjunction. -/
theorem close
    {level : Level}
    {xs ys : List Lexeme}
    {n : Node}
    (hLevel : level.Holds R xs)
    (hOperand : Derives R.reading .operand ys [n]) :
    Derives R.reading .disjunction (xs ++ ys)
      (level.conjunction n :: level.conjunctions).reverse := by
  have hClosed := Reading.Awaits.close hLevel hOperand
  rw [level.join_conjunction, ← List.reverse_cons] at hClosed
  exact hClosed

end Level.Holds

/-
  The last operand of a group and a closing parenthesis make
  the group an operand.
-/
theorem Group.Opens.operand
    {group : Group}
    {level : Level}
    {closing : Lexeme}
    {xs ys zs : List Lexeme}
    {n : Node}
    (hOpens : group.Opens xs)
    (hLevel : level.Holds R ys)
    (hOperand : Derives R.reading .operand zs [n])
    (hClosing : closing.token = .closeParen) :
    Derives R.reading .operand
      (xs ++ ((ys ++ zs) ++ [closing]))
      [group.operand (level.close n)] := by
  have hInside := hLevel.close hOperand
  rw [Level.close]
  cases hOpens with
  | plain hOpening =>
      exact .group hOpening hInside hClosing
  | negated hBang hOpening =>
      exact .negation hBang hOpening hInside hClosing

/- Arguments make a head a comparison. -/
theorem Head.Holds.operand
    {head : Head}
    {xs ys : List Lexeme}
    {arguments : List String}
    {c : Comparison}
    (hHead : head.Holds R xs)
    (hArguments : Arguments ys arguments)
    (hMade :
      Comparison.ofParts head.operator head.selector
        arguments = .ok c) :
    Derives R.reading .operand (xs ++ ys)
      [.comparison c] := by
  cases hHead with
  | intro hSelector hSymbol hKnown =>
      have hSpells :=
        Written.Spells.intro hSelector hSymbol hArguments
      apply Derives.comparison hSpells
      exact (Registry.compares_iff hKnown
        hSpells.ne_nil).mpr ⟨c, hMade, rfl⟩

end FilterQuery

------------------------------------------------------------
-- Reading On
------------------------------------------------------------

namespace FilterQuery

variable {R : Registry}

namespace State

/- Nothing has been read at the start. -/
theorem holds_start : State.start.Holds R [] :=
  .intro .nil .empty .operand

/- A lexeme is added to those of the current operand. -/
theorem Holds.snoc
    {groups : List Group}
    {level : Level}
    {phase : Phase}
    {x : Lexeme}
    {xs ys zs : List Lexeme}
    (hGroups : Groups.Hold R groups xs)
    (hLevel : level.Holds R ys)
    (hPhase : phase.Holds R (zs ++ [x])) :
    Holds R ⟨groups, level, phase⟩
      (xs ++ (ys ++ zs) ++ [x]) := by
  have hNext := Holds.intro hGroups hLevel hPhase
  rw [← List.append_assoc ys, ← List.append_assoc xs]
    at hNext
  exact hNext

/- A lexeme ends the current operand of a level. -/
theorem Holds.nextOperand
    {groups : List Group}
    {level : Level}
    {x : Lexeme}
    {xs ys zs : List Lexeme}
    (hGroups : Groups.Hold R groups xs)
    (hLevel : level.Holds R (ys ++ (zs ++ [x]))) :
    Holds R ⟨groups, level, .operand⟩
      (xs ++ (ys ++ zs) ++ [x]) := by
  have hNext := Holds.intro hGroups hLevel .operand
  rw [List.append_nil, ← List.append_assoc ys,
    ← List.append_assoc xs] at hNext
  exact hNext

/- A group opens where an operand is due. -/
theorem Holds.openGroup
    {groups : List Group}
    {level : Level}
    {negated : Bool}
    {x : Lexeme}
    {xs ys zs : List Lexeme}
    (hGroups : Groups.Hold R groups xs)
    (hLevel : level.Holds R ys)
    (hOpens : Group.Opens ⟨negated, level⟩ (zs ++ [x])) :
    Holds R ⟨⟨negated, level⟩ :: groups, .empty, .operand⟩
      (xs ++ (ys ++ zs) ++ [x]) := by
  have hNext :=
    Holds.intro (.cons hGroups hLevel hOpens) .empty .operand
  rw [List.append_nil, List.append_nil,
    ← List.append_assoc ys, ← List.append_assoc xs] at hNext
  exact hNext

/- A move adds its lexeme to those of the state. -/
theorem holds_of_moves
    {st st' : State}
    {x : Lexeme}
    {xs : List Lexeme}
    (hHolds : st.Holds R xs)
    (hMove : Moves R st x st') :
    st'.Holds R (xs ++ [x]) := by
  rcases hHolds with ⟨hGroups, hLevel, hPhase⟩
  cases hMove with
  | group hToken =>
      cases hPhase
      exact .openGroup hGroups hLevel (.plain hToken)
  | bang hToken =>
      cases hPhase
      exact .snoc hGroups hLevel (.negation hToken)
  | selector hValue =>
      cases hPhase
      exact .snoc hGroups hLevel (.selector hValue)
  | negatedGroup hToken =>
      cases hPhase with
      | negation hBang =>
          exact .openGroup hGroups hLevel
            (.negated hBang hToken)
  | symbol hToken hKnown =>
      cases hPhase with
      | selector hSelector =>
          have hHead :=
            Head.Holds.intro hSelector hToken hKnown
          exact .snoc hGroups hLevel (.symbol hHead)
  | single hValue hMade =>
      cases hPhase with
      | symbol hHead =>
          have hOperand :=
            hHead.operand (.single hValue) hMade
          exact .snoc hGroups hLevel (.complete hOperand)
  | list hToken =>
      cases hPhase with
      | symbol hHead =>
          exact .snoc hGroups hLevel
            (.list hHead hToken .nil)
  | argument hValue =>
      cases hPhase with
      | list hHead hOpening hListed =>
          have hArgument :=
            Phase.Holds.argument hHead hOpening hListed hValue
          rw [← List.cons_append, ← List.append_assoc]
            at hArgument
          exact .snoc hGroups hLevel hArgument
  | nextArgument hToken =>
      cases hPhase with
      | argument hHead hOpening hListed hValue =>
          have hMore := Listed.snoc hListed hValue hToken
          rw [← List.reverse_cons] at hMore
          have hList :=
            Phase.Holds.list hHead hOpening hMore
          refine .snoc hGroups hLevel ?_
          simpa using hList
  | closeList hToken hMade =>
      cases hPhase with
      | argument hHead hOpening hListed hValue =>
          have hValues := hListed.append_values (.one hValue)
          rw [← List.reverse_cons] at hValues
          have hOperand :=
            hHead.operand (.list hOpening hValues hToken)
              hMade
          rw [← List.cons_append, ← List.append_assoc]
            at hOperand
          exact .snoc hGroups hLevel (.complete hOperand)
  | nextOperand hToken =>
      cases hPhase with
      | complete hOperand =>
          exact .nextOperand hGroups
            (hLevel.pushOperand hOperand hToken)
  | nextConjunction hToken =>
      cases hPhase with
      | complete hOperand =>
          exact .nextOperand hGroups
            (hLevel.pushConjunction hOperand hToken)
  | closeGroup hToken =>
      cases hPhase with
      | complete hOperand =>
          cases hGroups with
          | cons hOutside hOuter hOpens =>
              have hGroup :=
                hOpens.operand hLevel hOperand hToken
              have hNext :=
                Holds.intro hOutside hOuter (.complete hGroup)
              simpa using hNext

/- Moves add their lexemes to those of the state. -/
theorem holds_of_reaches
    {st st' : State}
    {xs ys : List Lexeme}
    (hHolds : st.Holds R xs)
    (hReaches : Reaches R st ys st') :
    st'.Holds R (xs ++ ys) := by
  induction hReaches generalizing xs with
  | refl =>
      rw [List.append_nil]
      exact hHolds
  | step hMove _ ih =>
      have hNext := ih (holds_of_moves hHolds hMove)
      rw [List.append_assoc, List.singleton_append] at hNext
      exact hNext

/- A tree that is finished is what was read. -/
theorem means_of_finish
    {st : State}
    {xs : List Lexeme}
    {n : Node}
    (hHolds : st.Holds R xs)
    (hFinish : st.finish = .ok n) :
    R.Means xs n := by
  rcases hHolds with ⟨hGroups, hLevel, hPhase⟩
  cases hPhase with
  | complete hOperand =>
      cases hGroups with
      | nil =>
          cases hFinish
          exact ⟨_, hLevel.close hOperand, rfl⟩
      | cons hOutside hOuter hOpens =>
          cases hFinish
  | _ => cases hFinish

end State

/- Lexemes that are parsed into a tree mean that tree. -/
theorem Registry.means_of_parseLexemes
    {xs : List Lexeme}
    {n : Node}
    (hParse : R.parseLexemes xs = .ok n) :
    R.Means xs n := by
  rcases reaches_of_parseLexemes hParse with
    ⟨st, hReaches, hFinish⟩
  have hHolds :=
    State.holds_of_reaches State.holds_start hReaches
  exact State.means_of_finish hHolds hFinish

end FilterQuery
