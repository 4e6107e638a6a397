import FilterQuery.Proofs.Node.Values
import FilterQuery.Proofs.Query.Mapping
import FilterQuery.Proofs.Query.Runs

/-
  This file proves that reading does not depend on which
  values a query has and on where its tokens stand.

  Key definitions include:
    * `FilterQuery.Token.Alike`
    * `FilterQuery.Renaming`
    * `FilterQuery.Renaming.state`
    * `FilterQuery.Renaming.outcome`

  Key theorems include:
    * `FilterQuery.State.Moves.rename`
    * `FilterQuery.State.Stops.rename`
    * `FilterQuery.State.run_rename`
    * `FilterQuery.Registry.parseLexemes_rename`

  A renaming gives new values and new places to lexemes.  What
  is read of the renamed lexemes is what is read of the
  lexemes, renamed, in every state on the way.
-/

------------------------------------------------------------
-- Tokens That Are Alike
------------------------------------------------------------

namespace FilterQuery

/-
  Tokens that differ at most in the value they hold, which is
  blank in both or in neither.
-/
inductive Token.Alike : Token → Token → Prop
  | same
      (t : Token) :
      Token.Alike t t
  | values
      {t u : Token}
      {left right : String}
      (hLeft : t.value? = some left)
      (hRight : u.value? = some right)
      (hBlank :
        Text.isBlankText left = Text.isBlankText right) :
      Token.Alike t u

/- A token with a value is bare or quoted. -/
theorem Token.eq_of_value?
    {t : Token}
    {value : String}
    (hValue : t.value? = some value) :
    t = .bare value ∨ t = .quoted value := by
  cases t with
  | bare text =>
      cases hValue
      exact Or.inl rfl
  | quoted text =>
      cases hValue
      exact Or.inr rfl
  | _ => cases hValue

/- Values are expected as selectors and as arguments. -/
theorem Expected.admits_value
    {t : Token}
    {value : String}
    (hValue : t.value? = some value)
    (expected : Expected) :
    expected.admits t =
      (expected == .operand || expected == .selector ||
        expected == .argument) := by
  rcases Token.eq_of_value? hValue with rfl | rfl
  · cases expected <;> rfl
  · cases expected <;> rfl

/- Values are allowed only where they are expected. -/
theorem State.admits_value
    {t : Token}
    {value : String}
    (hValue : t.value? = some value)
    (st : State) :
    st.admits t =
      (st.expected == .operand || st.expected == .selector ||
        st.expected == .argument) := by
  unfold admits
  rw [Expected.admits_value hValue]
  apply Bool.or_eq_left_iff_imp.mpr
  rcases st with ⟨groups, level, phase⟩
  rcases Token.eq_of_value? hValue with rfl | rfl
  · cases phase <;> exact nofun
  · cases phase <;> exact nofun

/- A state does not tell alike tokens apart. -/
theorem State.admits_of_alike
    {t u : Token}
    (hAlike : t.Alike u)
    (st : State) :
    st.admits t = st.admits u := by
  cases hAlike with
  | same => rfl
  | values hLeft hRight _ =>
      rw [st.admits_value hLeft, st.admits_value hRight]

end FilterQuery

------------------------------------------------------------
-- Renamings
------------------------------------------------------------

namespace FilterQuery

/-
  New tokens for tokens with values, and new places.  A new
  value is blank exactly if the old one is.
-/
structure Renaming where
  token : Token → Token
  value : String → String
  start : Nat → Nat
  stop : Nat → Nat
  value?_token :
    ∀ t, (token t).value? = t.value?.map value
  token_of_none : ∀ t, t.value? = none → token t = t
  isBlankText_value :
    ∀ v, Text.isBlankText (value v) = Text.isBlankText v

namespace Renaming

variable (ρ : Renaming)

/- The renamed lexeme. -/
def lexeme (x : Lexeme) : Lexeme :=
  ⟨ρ.token x.token, ρ.start x.start, ρ.stop x.stop⟩

/- The tree with renamed values. -/
def node (n : Node) : Node :=
  n.mapValues ρ.value

/- The renamed head of a comparison. -/
def head (head : Head) : Head :=
  ⟨head.operator, ρ.value head.selector, ρ.start head.start⟩

/- The renamed phase. -/
def phase : Phase → Phase
| .operand => .operand
| .negation => .negation
| .selector selector start =>
    .selector (ρ.value selector) (ρ.start start)
| .symbol head => .symbol (ρ.head head)
| .list head arguments =>
    .list (ρ.head head) (arguments.map ρ.value)
| .argument head argument arguments =>
    .argument (ρ.head head) (ρ.value argument)
      (arguments.map ρ.value)
| .complete n => .complete (ρ.node n)

/- The renamed state. -/
def state (st : State) : State :=
  ⟨st.groups.map (Group.map ρ.node), st.level.map ρ.node,
    ρ.phase st.phase⟩

/- The renamed error. -/
def error : ParseError → ParseError
| .lexical failure =>
    .lexical ⟨ρ.start failure.position, failure.cause⟩
| .unexpectedToken expected got position =>
    .unexpectedToken expected (ρ.token got)
      (ρ.start position)
| .unexpectedEnd expected => .unexpectedEnd expected
| .invalidNode position cause =>
    .invalidNode (ρ.start position) cause

/- The renamed end of a reading. -/
def halt (halt : Halt) : Halt :=
  ⟨ρ.error halt.error, halt.consumed⟩

/- The renamed tree or error. -/
def outcome :
    Except ParseError Node → Except ParseError Node
| .ok n => .ok (ρ.node n)
| .error e => .error (ρ.error e)

variable {ρ : Renaming}

/- A renamed token is alike. -/
theorem alike
    (t : Token) :
    (ρ.token t).Alike t := by
  cases hValue : t.value? with
  | none =>
      rw [ρ.token_of_none t hValue]
      exact .same t
  | some value =>
      have hRenamed := ρ.value?_token t
      rw [hValue] at hRenamed
      exact .values hRenamed hValue (ρ.isBlankText_value value)

/- A token without value is kept. -/
theorem token_lexeme
    {x : Lexeme}
    {t : Token}
    (hToken : x.token = t)
    (hNone : t.value? = none) :
    (ρ.lexeme x).token = t := by
  rw [← hToken] at hNone ⊢
  exact ρ.token_of_none x.token hNone

/- A value is renamed. -/
theorem value?_lexeme
    {x : Lexeme}
    {value : String}
    (hValue : x.token.value? = some value) :
    (ρ.lexeme x).token.value? = some (ρ.value value) := by
  have hRenamed := ρ.value?_token x.token
  rw [hValue] at hRenamed
  exact hRenamed

/- Trees are renamed below their connectives. -/
theorem keeps_node :
    Node.Keeps ρ.node :=
  Node.mapValues_logical ρ.value

/- A comparison is made of renamed parts. -/
theorem ofParts_of_ok
    {operator : Operator}
    {selector : String}
    {arguments : List String}
    {c : Comparison}
    (hMade :
      Comparison.ofParts operator selector arguments =
        .ok c) :
    Comparison.ofParts operator (ρ.value selector)
        (arguments.map ρ.value) =
      .ok (c.mapValues ρ.value) := by
  rw [Comparison.ofParts_mapValues ρ.isBlankText_value, hMade]
  rfl

/- A comparison of renamed parts is refused in the same way. -/
theorem ofParts_of_error
    {operator : Operator}
    {selector : String}
    {arguments : List String}
    {cause : NodeError}
    (hRefused :
      Comparison.ofParts operator selector arguments =
        .error cause) :
    Comparison.ofParts operator (ρ.value selector)
        (arguments.map ρ.value) =
      .error cause := by
  rw [Comparison.ofParts_mapValues ρ.isBlankText_value,
    hRefused]
  rfl

/- The same is expected in a renamed state. -/
theorem expected_state
    (st : State) :
    (ρ.state st).expected = st.expected := by
  rcases st with ⟨groups, level, phase⟩
  cases phase with
  | complete n => cases groups <;> rfl
  | _ => rfl

/- The same is allowed in a renamed state. -/
theorem admits_state
    (st : State)
    (t : Token) :
    (ρ.state st).admits (ρ.token t) = st.admits t := by
  rw [State.admits_of_alike (alike t)]
  unfold State.admits
  rw [expected_state]
  rcases st with ⟨groups, level, phase⟩
  cases phase <;> rfl

/- A renamed state ends with the renamed outcome. -/
theorem finish_state
    (st : State) :
    (ρ.state st).finish = ρ.outcome st.finish := by
  rcases st with ⟨groups, level, phase⟩
  cases phase with
  | complete n =>
      cases groups with
      | nil =>
          exact congrArg Except.ok
            (level.close_map keeps_node n)
      | cons group groups => rfl
  | _ => rfl

end Renaming

end FilterQuery

------------------------------------------------------------
-- Reading Renamed Lexemes
------------------------------------------------------------

namespace FilterQuery

namespace State

variable {R : Registry} {ρ : Renaming}

/- A move with a lexeme is a move with the renamed one. -/
theorem Moves.rename
    {st st' : State}
    {x : Lexeme}
    (hMove : Moves R st x st') :
    Moves R (ρ.state st) (ρ.lexeme x) (ρ.state st') := by
  cases hMove with
  | group hToken =>
      exact .group (Renaming.token_lexeme hToken rfl)
  | bang hToken =>
      exact .bang (Renaming.token_lexeme hToken rfl)
  | selector hValue =>
      exact .selector (Renaming.value?_lexeme hValue)
  | negatedGroup hToken =>
      exact .negatedGroup (Renaming.token_lexeme hToken rfl)
  | symbol hToken hKnown =>
      exact .symbol (Renaming.token_lexeme hToken rfl) hKnown
  | single hValue hMade =>
      exact .single (Renaming.value?_lexeme hValue)
        (Renaming.ofParts_of_ok hMade)
  | list hToken =>
      exact .list (Renaming.token_lexeme hToken rfl)
  | argument hValue =>
      exact .argument (Renaming.value?_lexeme hValue)
  | nextArgument hToken =>
      exact .nextArgument (Renaming.token_lexeme hToken rfl)
  | closeList hToken hMade =>
      have hRenamed := Renaming.ofParts_of_ok (ρ := ρ) hMade
      rw [List.map_reverse, List.map_cons] at hRenamed
      exact .closeList (Renaming.token_lexeme hToken rfl)
        hRenamed
  | nextOperand hToken =>
      exact .nextOperand (Renaming.token_lexeme hToken rfl)
  | nextConjunction hToken =>
      simp only [Renaming.state,
        ← Level.pushConjunction_map Renaming.keeps_node]
      exact .nextConjunction
        (Renaming.token_lexeme hToken rfl)
  | closeGroup hToken =>
      simp only [Renaming.state, Renaming.phase,
        ← Group.operand_map Renaming.keeps_node,
        ← Level.close_map Renaming.keeps_node]
      exact .closeGroup (Renaming.token_lexeme hToken rfl)

/- A stop at a lexeme is a stop at the renamed one. -/
theorem Stops.rename
    {st : State}
    {x : Lexeme}
    {halt : Halt}
    (hStop : Stops R st x halt) :
    Stops R (ρ.state st) (ρ.lexeme x) (ρ.halt halt) := by
  cases hStop with
  | unexpected hToken =>
      rw [← Renaming.admits_state (ρ := ρ)] at hToken
      have hRenamed :
          Stops R (ρ.state st) (ρ.lexeme x) _ :=
        .unexpected hToken
      rw [Renaming.expected_state] at hRenamed
      exact hRenamed
  | unknownSymbol hToken hUnknown =>
      exact .unknownSymbol (Renaming.token_lexeme hToken rfl)
        hUnknown
  | single hValue hRefused =>
      exact .single (Renaming.value?_lexeme hValue)
        (Renaming.ofParts_of_error hRefused)
  | closeList hToken hRefused =>
      have hRenamed :=
        Renaming.ofParts_of_error (ρ := ρ) hRefused
      rw [List.map_reverse, List.map_cons] at hRenamed
      exact .closeList (Renaming.token_lexeme hToken rfl)
        hRenamed

/-
  A run over renamed lexemes ends with the renamed outcome,
  and leaves the renamed lexemes.
-/
theorem run_rename
    (st : State)
    (xs : List Lexeme) :
    (ρ.state st).run R (xs.map ρ.lexeme) =
      (ρ.outcome (st.run R xs).1,
        (st.run R xs).2.map ρ.lexeme) := by
  induction xs generalizing st with
  | nil =>
      rw [List.map_nil, run, run, Renaming.finish_state]
      rfl
  | cons x xs ih =>
      rw [List.map_cons, run, run]
      rcases moves_or_stops R st x with
        ⟨st', hMove⟩ | ⟨halt, hStop⟩
      · rw [step_of_moves hMove, step_of_moves hMove.rename]
        exact ih st'
      · rw [step_of_stops hStop, step_of_stops hStop.rename]
        rcases halt with ⟨e, consumed⟩
        cases consumed <;> rfl

end State

/- Renamed lexemes are parsed to the renamed outcome. -/
theorem Registry.parseLexemes_rename
    (R : Registry)
    (ρ : Renaming)
    (xs : List Lexeme) :
    R.parseLexemes (xs.map ρ.lexeme) =
      ρ.outcome (R.parseLexemes xs) := by
  rw [parseLexemes_eq_run, parseLexemes_eq_run]
  exact congrArg Prod.fst (State.run_rename .start xs)

end FilterQuery
