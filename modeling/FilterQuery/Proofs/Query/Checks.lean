import FilterQuery.Proofs.Query.Prefixes

/-
  This file proves that reading lexeme by lexeme gives the
  same result when every node is made by a constructor that
  checks its parts, as it is in the descent.

  Key definitions include:
    * `FilterQuery.Node.assemble`
    * `FilterQuery.State.checkedStep`
    * `FilterQuery.Registry.parseChecked`

  Key theorems include:
    * `FilterQuery.Node.assemble_eq_connect`
    * `FilterQuery.State.checkedStep_eq`
    * `FilterQuery.Registry.parseChecked_eq`

  The checks cannot fail: a level always holds an operand,
  and the operator of a comparison was found in the registry
  when its symbol was read.
-/

------------------------------------------------------------
-- Checked Making
------------------------------------------------------------

namespace FilterQuery

/-
  One operand stands for itself; several are joined by the
  constructor that checks their number.
-/
def Node.assemble
    (connective : Connective) :
    List Node → Except NodeError Node
| [n] => .ok n
| ns => combine connective ns

/- Operands of AND and OR always pass the check. -/
theorem Node.assemble_eq_connect
    {connective : Connective}
    {ns : List Node}
    (hKind : connective ≠ .not)
    (hSome : ns ≠ []) :
    assemble connective ns = .ok (connect connective ns) := by
  rcases ns with _ | ⟨n, _ | ⟨m, ms⟩⟩
  · exact absurd rfl hSome
  · rw [connect_singleton hKind]
    rfl
  · exact combine_of_two_le hKind (Nat.le_add_left 2 _)

namespace Level

/- The conjunction of a level, checked. -/
def checkedConjunction
    (level : Level)
    (n : Node) :
    Except NodeError Node :=
  Node.assemble .and (n :: level.operands).reverse

/- The tree of a level, checked. -/
def checkedClose
    (level : Level)
    (n : Node) :
    Except NodeError Node :=
  (level.checkedConjunction n).bind fun last =>
    Node.assemble .or (last :: level.conjunctions).reverse

/- The conjunction of a level passes the check. -/
theorem checkedConjunction_eq
    (level : Level)
    (n : Node) :
    level.checkedConjunction n =
      .ok (level.conjunction n) := by
  apply Node.assemble_eq_connect
  · intro hKind
    cases hKind
  · simp

/- The tree of a level passes the check. -/
theorem checkedClose_eq
    (level : Level)
    (n : Node) :
    level.checkedClose n = .ok (level.close n) := by
  unfold checkedClose
  rw [checkedConjunction_eq]
  apply Node.assemble_eq_connect
  · intro hKind
    cases hKind
  · simp

end Level

/- The operand that a closed group stands for, checked. -/
def Group.checkedOperand
    (group : Group)
    (n : Node) :
    Except NodeError Node :=
  if group.negated then Node.combine .not [n] else .ok n

/- The operand of a group passes the check. -/
theorem Group.checkedOperand_eq
    (group : Group)
    (n : Node) :
    group.checkedOperand n = .ok (group.operand n) := by
  unfold checkedOperand operand
  split <;> rfl

/-
  What was contained in the registry when its symbol was read
  makes the same comparison when looked up again.
-/
theorem Head.Holds.comparison_eq
    {R : Registry}
    {head : Head}
    {xs : List Lexeme}
    (hHead : head.Holds R xs)
    (arguments : List String) :
    R.comparison head.operator.symbol head.selector arguments =
      Comparison.ofParts head.operator head.selector
        arguments := by
  cases hHead with
  | intro _ _ hKnown =>
      rw [Registry.symbol_of_get? hKnown,
        Registry.comparison_of_get? hKnown]

end FilterQuery

------------------------------------------------------------
-- Checked Reading
------------------------------------------------------------

namespace FilterQuery

namespace State

/-
  Complete a comparison, whose operator is looked up by its
  symbol once more.
-/
def checkedCompare
    (R : Registry)
    (st : State)
    (head : Head)
    (arguments : List String) :
    Except Halt State :=
  match R.comparison head.operator.symbol head.selector
      arguments with
  | .ok c => .ok (st.goto (.complete (.comparison c)))
  | .error cause =>
      .error ⟨.invalidNode head.start cause, true⟩

/-
  The step in which every node is made by a constructor that
  checks its parts.  Operands that cannot be joined would be
  reported at the position.
-/
def checkedStep
    (R : Registry)
    (position : Nat)
    (st : State)
    (x : Lexeme) :
    Except Halt State :=
  match st.phase, x.token with
  | .selector _ _, .operator symbol =>
      if R.contains symbol then
        st.step R x
      else
        .error
          ⟨.invalidNode x.start (.unknownOperator symbol),
            false⟩
  | .symbol head, .bare value =>
      st.checkedCompare R head [value]
  | .symbol head, .quoted value =>
      st.checkedCompare R head [value]
  | .argument head argument arguments, .closeParen =>
      st.checkedCompare R head (argument :: arguments).reverse
  | .complete n, .comma =>
      match st.level.checkedConjunction n with
      | .ok last =>
          .ok
            ⟨st.groups, ⟨last :: st.level.conjunctions, []⟩,
              .operand⟩
      | .error cause =>
          .error ⟨.invalidNode position cause, false⟩
  | .complete n, .closeParen =>
      match st.groups with
      | [] => st.reject x
      | group :: groups =>
          match (st.level.checkedClose n).bind
              group.checkedOperand with
          | .ok operand =>
              .ok ⟨groups, group.outer, .complete operand⟩
          | .error cause =>
              .error ⟨.invalidNode position cause, false⟩
  | _, _ => st.step R x

/- The tree at the end of the query, checked. -/
def checkedFinish
    (position : Nat)
    (st : State) :
    Except ParseError Node :=
  match st.phase, st.groups with
  | .complete n, [] =>
      (st.level.checkedClose n).mapError
        (.invalidNode position)
  | _, _ => .error (.unexpectedEnd st.expected)

/- Read lexemes by checked steps. -/
def checkedRun
    (R : Registry)
    (position : Nat) :
    State → List Lexeme → Except ParseError Node
| st, [] => st.checkedFinish position
| st, x :: xs =>
    match st.checkedStep R position x with
    | .ok st' => checkedRun R position st' xs
    | .error halt => .error halt.error

variable {R : Registry}

/- The comparison of a known head is made as it is. -/
theorem checkedCompare_eq
    {head : Head}
    {xs : List Lexeme}
    (hHead : head.Holds R xs)
    (st : State)
    (arguments : List String) :
    st.checkedCompare R head arguments =
      st.compare head arguments := by
  unfold checkedCompare
  rw [hHead.comparison_eq]
  cases hMade :
      Comparison.ofParts head.operator head.selector
        arguments with
  | ok c => exact (compare_of_ok hMade).symm
  | error cause => exact (compare_of_error hMade).symm

/- No step is changed by the checks. -/
theorem checkedStep_eq
    {st : State}
    {xs : List Lexeme}
    (hHolds : st.Holds R xs)
    (position : Nat)
    (x : Lexeme) :
    st.checkedStep R position x = st.step R x := by
  cases hHolds with
  | @intro groups level phase us vs ts _ _ hPhase =>
      unfold checkedStep
      split
      · rename_i symbol hSelector hToken
        cases hSelector
        split
        · rfl
        · rename_i hMissing
          have hUnknown : R.get? symbol = none := by
            cases hKnown : R.get? symbol with
            | none => rfl
            | some operator =>
                have hContains :=
                  (R.contains_iff_get? symbol).mpr
                    ⟨operator, hKnown⟩
                exact absurd hContains hMissing
          exact (step_of_stops
            (.unknownSymbol hToken hUnknown)).symm
      · rename_i head value hSymbol hToken
        cases hSymbol
        cases hPhase with
        | symbol hHead =>
            rw [checkedCompare_eq hHead]
            simp only [step, stepSymbol, hToken, Token.value?]
      · rename_i head value hSymbol hToken
        cases hSymbol
        cases hPhase with
        | symbol hHead =>
            rw [checkedCompare_eq hHead]
            simp only [step, stepSymbol, hToken, Token.value?]
      · rename_i head argument arguments hArgument hToken
        cases hArgument
        cases hPhase with
        | argument hHead _ _ _ =>
            rw [checkedCompare_eq hHead]
            simp only [step, stepArgument, hToken]
      · rename_i n hComplete hToken
        cases hComplete
        rw [Level.checkedConjunction_eq]
        exact (step_of_moves (.nextConjunction hToken)).symm
      · rename_i n hComplete hToken
        cases hComplete
        cases groups with
        | nil =>
            simp only [step, stepComplete, hToken]
        | cons group groups =>
            rw [Level.checkedClose_eq]
            change
              (match group.checkedOperand (level.close n) with
                | .ok operand => _
                | .error cause => _) = _
            rw [Group.checkedOperand_eq]
            exact (step_of_moves (.closeGroup hToken)).symm
      · rfl

/- The end of a query is not changed by the checks. -/
theorem checkedFinish_eq
    (position : Nat)
    (st : State) :
    st.checkedFinish position = st.finish := by
  rcases st with ⟨groups, level, phase⟩
  cases phase with
  | complete n =>
      cases groups with
      | nil =>
          change
            (level.checkedClose n).mapError _ =
              .ok (level.close n)
          rw [Level.checkedClose_eq]
          rfl
      | cons group groups => rfl
  | _ => rfl

/- No run is changed by the checks. -/
theorem checkedRun_eq
    {st : State}
    {xs : List Lexeme}
    (hHolds : st.Holds R xs)
    (position : Nat)
    (ys : List Lexeme) :
    st.checkedRun R position ys = (st.run R ys).1 := by
  induction ys generalizing st xs with
  | nil =>
      exact st.checkedFinish_eq position
  | cons y ys ih =>
      rw [checkedRun, checkedStep_eq hHolds, run]
      rcases moves_or_stops R st y with
        ⟨st', hMove⟩ | ⟨halt, hStop⟩
      · rw [step_of_moves hMove]
        exact ih (holds_of_moves hHolds hMove)
      · rw [step_of_stops hStop]

end State

namespace Registry

/- Parse with every node made by a checking constructor. -/
def parseChecked
    (R : Registry)
    (position : Nat)
    (xs : List Lexeme) :
    Except ParseError Node :=
  State.start.checkedRun R position xs

/- No outcome of parsing is changed by the checks. -/
theorem parseChecked_eq
    (R : Registry)
    (position : Nat)
    (xs : List Lexeme) :
    R.parseChecked position xs = R.parseLexemes xs := by
  rw [parseLexemes_eq_run]
  exact State.checkedRun_eq State.holds_start position xs

end Registry

end FilterQuery
