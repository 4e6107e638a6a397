import FilterQuery.Query.State

/-
  This file states what one step of reading a query can do.

  Key definitions include:
    * `FilterQuery.State.Moves`
    * `FilterQuery.State.admits`
    * `FilterQuery.State.Stops`

  Key theorems include:
    * `FilterQuery.State.step_of_moves`
    * `FilterQuery.State.step_of_stops`
    * `FilterQuery.State.moves_or_stops`

  Later facts about reading are proved by cases on moves and
  stops; none of them opens the step function again.
-/

------------------------------------------------------------
-- Moves
------------------------------------------------------------

namespace FilterQuery

namespace State

/-
  The steps that lead on: from a state, with a lexeme, to the
  next state.
-/
inductive Moves
    (R : Registry) :
    State → Lexeme → State → Prop
  | group
      {groups : List Group}
      {level : Level}
      {x : Lexeme}
      (hToken : x.token = .openParen) :
      Moves R ⟨groups, level, .operand⟩ x
        ⟨⟨false, level⟩ :: groups, .empty, .operand⟩
  | bang
      {groups : List Group}
      {level : Level}
      {x : Lexeme}
      (hToken : x.token = .bang) :
      Moves R ⟨groups, level, .operand⟩ x
        ⟨groups, level, .negation⟩
  | selector
      {groups : List Group}
      {level : Level}
      {x : Lexeme}
      {value : String}
      (hValue : x.token.value? = some value) :
      Moves R ⟨groups, level, .operand⟩ x
        ⟨groups, level, .selector value x.start⟩
  | negatedGroup
      {groups : List Group}
      {level : Level}
      {x : Lexeme}
      (hToken : x.token = .openParen) :
      Moves R ⟨groups, level, .negation⟩ x
        ⟨⟨true, level⟩ :: groups, .empty, .operand⟩
  | symbol
      {groups : List Group}
      {level : Level}
      {x : Lexeme}
      {selector symbol : String}
      {start : Nat}
      {operator : Operator}
      (hToken : x.token = .operator symbol)
      (hKnown : R.get? symbol = some operator) :
      Moves R ⟨groups, level, .selector selector start⟩ x
        ⟨groups, level, .symbol ⟨operator, selector, start⟩⟩
  | single
      {groups : List Group}
      {level : Level}
      {x : Lexeme}
      {head : Head}
      {value : String}
      {c : Comparison}
      (hValue : x.token.value? = some value)
      (hMade :
        Comparison.ofParts head.operator head.selector
          [value] = .ok c) :
      Moves R ⟨groups, level, .symbol head⟩ x
        ⟨groups, level, .complete (.comparison c)⟩
  | list
      {groups : List Group}
      {level : Level}
      {x : Lexeme}
      {head : Head}
      (hToken : x.token = .openParen) :
      Moves R ⟨groups, level, .symbol head⟩ x
        ⟨groups, level, .list head []⟩
  | argument
      {groups : List Group}
      {level : Level}
      {x : Lexeme}
      {head : Head}
      {arguments : List String}
      {value : String}
      (hValue : x.token.value? = some value) :
      Moves R ⟨groups, level, .list head arguments⟩ x
        ⟨groups, level, .argument head value arguments⟩
  | nextArgument
      {groups : List Group}
      {level : Level}
      {x : Lexeme}
      {head : Head}
      {argument : String}
      {arguments : List String}
      (hToken : x.token = .comma) :
      Moves R
        ⟨groups, level, .argument head argument arguments⟩ x
        ⟨groups, level, .list head (argument :: arguments)⟩
  | closeList
      {groups : List Group}
      {level : Level}
      {x : Lexeme}
      {head : Head}
      {argument : String}
      {arguments : List String}
      {c : Comparison}
      (hToken : x.token = .closeParen)
      (hMade :
        Comparison.ofParts head.operator head.selector
          (argument :: arguments).reverse = .ok c) :
      Moves R
        ⟨groups, level, .argument head argument arguments⟩ x
        ⟨groups, level, .complete (.comparison c)⟩
  | nextOperand
      {groups : List Group}
      {level : Level}
      {x : Lexeme}
      {n : Node}
      (hToken : x.token = .semicolon) :
      Moves R ⟨groups, level, .complete n⟩ x
        ⟨groups, level.pushOperand n, .operand⟩
  | nextConjunction
      {groups : List Group}
      {level : Level}
      {x : Lexeme}
      {n : Node}
      (hToken : x.token = .comma) :
      Moves R ⟨groups, level, .complete n⟩ x
        ⟨groups, level.pushConjunction n, .operand⟩
  | closeGroup
      {group : Group}
      {groups : List Group}
      {level : Level}
      {x : Lexeme}
      {n : Node}
      (hToken : x.token = .closeParen) :
      Moves R ⟨group :: groups, level, .complete n⟩ x
        ⟨groups, group.outer,
          .complete (group.operand (level.close n))⟩

end State

end FilterQuery

------------------------------------------------------------
-- Stops
------------------------------------------------------------

namespace FilterQuery

namespace State

/-
  The tokens that the grammar allows in a state.  These are
  the expected ones, and a few that no message names.
-/
def admits (st : State) (t : Token) : Bool :=
  st.expected.admits t ||
    match st.phase with
    | .symbol _ => t == .openParen
    | .argument _ _ _ => t == .comma
    | .complete _ => t == .comma || t == .semicolon
    | _ => false

/-
  The steps that end the reading: from a state, with a
  lexeme, with an error.
-/
inductive Stops
    (R : Registry) :
    State → Lexeme → Halt → Prop
  | unexpected
      {st : State}
      {x : Lexeme}
      (hToken : st.admits x.token = false) :
      Stops R st x
        ⟨.unexpectedToken st.expected x.token x.start, false⟩
  | unknownSymbol
      {groups : List Group}
      {level : Level}
      {x : Lexeme}
      {selector symbol : String}
      {start : Nat}
      (hToken : x.token = .operator symbol)
      (hUnknown : R.get? symbol = none) :
      Stops R ⟨groups, level, .selector selector start⟩ x
        ⟨.invalidNode x.start (.unknownOperator symbol),
          false⟩
  | single
      {groups : List Group}
      {level : Level}
      {x : Lexeme}
      {head : Head}
      {value : String}
      {cause : NodeError}
      (hValue : x.token.value? = some value)
      (hRefused :
        Comparison.ofParts head.operator head.selector
          [value] = .error cause) :
      Stops R ⟨groups, level, .symbol head⟩ x
        ⟨.invalidNode head.start cause, true⟩
  | closeList
      {groups : List Group}
      {level : Level}
      {x : Lexeme}
      {head : Head}
      {argument : String}
      {arguments : List String}
      {cause : NodeError}
      (hToken : x.token = .closeParen)
      (hRefused :
        Comparison.ofParts head.operator head.selector
          (argument :: arguments).reverse = .error cause) :
      Stops R
        ⟨groups, level, .argument head argument arguments⟩ x
        ⟨.invalidNode head.start cause, true⟩

/- What is expected is allowed. -/
theorem admits_of_expected
    {st : State}
    {t : Token}
    (hExpected : st.expected.admits t = true) :
    st.admits t = true := by
  simp [admits, hExpected]

/- A comparison that can be made completes the operand. -/
theorem compare_of_ok
    {st : State}
    {head : Head}
    {arguments : List String}
    {c : Comparison}
    (hMade :
      Comparison.ofParts head.operator head.selector
        arguments = .ok c) :
    st.compare head arguments =
      .ok (st.goto (.complete (.comparison c))) := by
  simp only [compare, hMade]

/- A comparison that cannot be made ends the reading. -/
theorem compare_of_error
    {st : State}
    {head : Head}
    {arguments : List String}
    {cause : NodeError}
    (hRefused :
      Comparison.ofParts head.operator head.selector
        arguments = .error cause) :
    st.compare head arguments =
      .error ⟨.invalidNode head.start cause, true⟩ := by
  simp only [compare, hRefused]

end State

end FilterQuery

------------------------------------------------------------
-- Steps Are Moves Or Stops
------------------------------------------------------------

namespace FilterQuery

namespace State

variable {R : Registry}

/- A move is a step. -/
theorem step_of_moves
    {st st' : State}
    {x : Lexeme}
    (hMove : Moves R st x st') :
    st.step R x = .ok st' := by
  cases hMove with
  | group hToken | bang hToken =>
      simp [step, stepOperand, hToken, openGroup, goto]
  | selector hValue =>
      cases hToken : x.token <;>
        simp_all [step, stepOperand, Token.value?, goto]
  | negatedGroup hToken =>
      simp [step, hToken, openGroup]
  | symbol hToken hKnown =>
      simp [step, stepSelector, hToken, hKnown, goto]
  | single hValue hMade =>
      cases hToken : x.token <;>
        simp_all [step, stepSymbol, Token.value?,
          compare_of_ok, goto]
  | list hToken =>
      simp [step, stepSymbol, hToken, goto]
  | argument hValue =>
      simp [step, stepList, hValue, goto]
  | nextArgument hToken =>
      simp [step, stepArgument, hToken, goto]
  | closeList hToken hMade =>
      simp only [step, stepArgument, hToken]
      exact compare_of_ok hMade
  | nextOperand hToken | nextConjunction hToken
  | closeGroup hToken =>
      simp [step, stepComplete, hToken]

/- A stop is a step. -/
theorem step_of_stops
    {st : State}
    {x : Lexeme}
    {halt : Halt}
    (hStop : Stops R st x halt) :
    st.step R x = .error halt := by
  cases hStop with
  | unexpected hToken =>
      rcases st with ⟨groups, level, phase⟩
      cases phase <;> cases hKind : x.token <;>
        simp_all [admits, expected, Expected.admits, step,
          stepOperand, stepSelector, stepSymbol, stepList,
          stepArgument, stepComplete, Token.isValue,
          Token.value?, reject]
      all_goals
        cases groups <;> simp_all
  | unknownSymbol hToken hUnknown =>
      simp [step, stepSelector, hToken, hUnknown]
  | single hValue hRefused =>
      cases hToken : x.token <;>
        simp_all [step, stepSymbol, Token.value?,
          compare_of_error]
  | closeList hToken hRefused =>
      simp only [step, stepArgument, hToken]
      exact compare_of_error hRefused

/- A lexeme that the grammar allows moves or stops. -/
theorem moves_or_stops_of_admits
    {st : State}
    {x : Lexeme}
    (hToken : st.admits x.token = true) :
    (∃ st', Moves R st x st') ∨
      ∃ halt, Stops R st x halt := by
  rcases st with ⟨groups, level, phase⟩
  cases phase with
  | operand =>
      refine Or.inl ?_
      cases hKind : x.token with
      | openParen => exact ⟨_, .group hKind⟩
      | bang => exact ⟨_, .bang hKind⟩
      | bare value | quoted value =>
          exact ⟨_, .selector (by rw [hKind]; rfl)⟩
      | _ => rw [hKind] at hToken; cases hToken
  | negation =>
      refine Or.inl ?_
      cases hKind : x.token with
      | openParen => exact ⟨_, .negatedGroup hKind⟩
      | _ => rw [hKind] at hToken; cases hToken
  | selector selector start =>
      cases hKind : x.token with
      | operator symbol =>
          cases hGet : R.get? symbol with
          | none =>
              exact Or.inr ⟨_, .unknownSymbol hKind hGet⟩
          | some operator =>
              exact Or.inl ⟨_, .symbol hKind hGet⟩
      | _ => rw [hKind] at hToken; cases hToken
  | symbol head =>
      cases hKind : x.token with
      | openParen => exact Or.inl ⟨_, .list hKind⟩
      | bare value | quoted value =>
          have hValue : x.token.value? = some value := by
            rw [hKind]
            rfl
          cases hMade :
              Comparison.ofParts head.operator head.selector
                [value] with
          | ok c => exact Or.inl ⟨_, .single hValue hMade⟩
          | error cause =>
              exact Or.inr ⟨_, .single hValue hMade⟩
      | _ => rw [hKind] at hToken; cases hToken
  | list head arguments =>
      refine Or.inl ?_
      cases hKind : x.token with
      | bare value | quoted value =>
          exact ⟨_, .argument (by rw [hKind]; rfl)⟩
      | _ => rw [hKind] at hToken; cases hToken
  | argument head argument arguments =>
      cases hKind : x.token with
      | comma => exact Or.inl ⟨_, .nextArgument hKind⟩
      | closeParen =>
          cases hMade :
              Comparison.ofParts head.operator head.selector
                (argument :: arguments).reverse with
          | ok c =>
              exact Or.inl ⟨_, .closeList hKind hMade⟩
          | error cause =>
              exact Or.inr ⟨_, .closeList hKind hMade⟩
      | _ => rw [hKind] at hToken; cases hToken
  | complete n =>
      refine Or.inl ?_
      cases hKind : x.token with
      | semicolon => exact ⟨_, .nextOperand hKind⟩
      | comma => exact ⟨_, .nextConjunction hKind⟩
      | closeParen =>
          cases groups with
          | nil => rw [hKind] at hToken; cases hToken
          | cons group groups => exact ⟨_, .closeGroup hKind⟩
      | _ =>
          rw [hKind] at hToken
          cases groups <;> cases hToken

/- Every lexeme moves or stops. -/
theorem moves_or_stops
    (R : Registry)
    (st : State)
    (x : Lexeme) :
    (∃ st', Moves R st x st') ∨
      ∃ halt, Stops R st x halt := by
  cases hToken : st.admits x.token with
  | true => exact moves_or_stops_of_admits hToken
  | false => exact Or.inr ⟨_, .unexpected hToken⟩

end State

end FilterQuery
