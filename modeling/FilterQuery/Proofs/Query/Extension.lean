import FilterQuery.Proofs.Node.Resolution
import FilterQuery.Proofs.Operator.Registration
import FilterQuery.Proofs.Query.Mapping
import FilterQuery.Proofs.Query.Prefixes
import Mathlib

/-
  This file compares the outcomes of a query under two
  registries, one of which extends the other.

  Key definitions include:
    * `FilterQuery.Registry.Extends`
    * `FilterQuery.Registry.Mends`
    * `FilterQuery.Registry.resolveState`
    * `FilterQuery.SameOutcome`

  Key theorems include:
    * `FilterQuery.State.Moves.resolve`
    * `FilterQuery.State.Stops.resolve`
    * `FilterQuery.State.Reaches.resolve`
    * `FilterQuery.Registry.Extends.sameOutcome`
    * `FilterQuery.Registry.parse_of_extends`

  Reading under the wider registry goes through the states of
  reading under the other, with the operators of the wider
  registry in them.  The two readings part only where the
  wider one knows a symbol or takes a list that the other
  does not.
-/

------------------------------------------------------------
-- Extensions
------------------------------------------------------------

namespace FilterQuery

namespace Registry

/-
  The first registry has every canonical symbol of the second,
  and takes a list wherever the second takes one.
-/
structure Extends (S R : Registry) : Prop where
  known :
    ∀ symbol,
      R.contains symbol = true → S.contains symbol = true
  widened :
    ∀ symbol op other,
      R.get? symbol = some op →
        S.get? symbol = some other →
          op.multiValue = true → other.multiValue = true

/-
  Errors of other registries that are no errors of this one:
  it knows the symbol, or its operator takes a list.
-/
inductive Mends (S : Registry) : ParseError → Prop
  | unknownOperator
      {position : Nat}
      {symbol : String}
      (hKnown : S.contains symbol = true) :
      Mends S
        (.invalidNode position (.unknownOperator symbol))
  | tooManyArguments
      {position count : Nat}
      {symbol : String}
      {op : Operator}
      (hKnown : S.get? symbol = some op)
      (hMany : op.multiValue = true) :
      Mends S
        (.invalidNode position
          (.tooManyArguments symbol count))

variable {R S : Registry}

/- A registry extends those whose operators it has, or wider. -/
theorem extends_of_members
    (hMembers :
      ∀ op ∈ R.operators, ∃ other ∈ S.operators,
        other.symbol = op.symbol ∧
          (op.multiValue = true → other.multiValue = true)) :
    S.Extends R where
  known symbol hKnown := by
    rcases (R.contains_iff_get? symbol).mp hKnown with
      ⟨op, hGet⟩
    rcases get?_eq_some_iff_mem.mp hGet with ⟨hMem, rfl⟩
    rcases hMembers op hMem with
      ⟨other, hOther, hSymbol, _⟩
    exact (S.contains_iff_get? _).mpr
      ⟨other, get?_eq_some_iff_mem.mpr ⟨hOther, hSymbol⟩⟩
  widened symbol op other hGet hOther hMany := by
    rcases get?_eq_some_iff_mem.mp hGet with ⟨hMem, rfl⟩
    rcases hMembers op hMem with
      ⟨wider, hWider, hSymbol, hKept⟩
    have hFound :=
      get?_eq_some_iff_mem.mpr ⟨hWider, hSymbol⟩
    rw [hOther] at hFound
    cases hFound
    exact hKept hMany

/- The wider registry finds what an operator resolves to. -/
theorem Extends.get?
    {symbol : String}
    {op : Operator}
    (hExtends : S.Extends R)
    (hKnown : R.get? symbol = some op) :
    S.get? symbol = some (S.resolveOperator op) := by
  have hContains :=
    hExtends.known _
      ((R.contains_iff_get? _).mpr ⟨op, hKnown⟩)
  cases symbol_of_get? hKnown
  exact get?_resolveOperator hContains

/- What a registry mends, every extension of it mends. -/
theorem Extends.mends
    {e : ParseError}
    (hExtends : S.Extends R)
    (hMends : R.Mends e) :
    S.Mends e := by
  cases hMends with
  | unknownOperator hKnown =>
      exact .unknownOperator (hExtends.known _ hKnown)
  | tooManyArguments hKnown hMany =>
      have hOther := hExtends.get? hKnown
      exact .tooManyArguments hOther
        (hExtends.widened _ _ _ hKnown hOther hMany)

end Registry

end FilterQuery

------------------------------------------------------------
-- States Under Another Registry
------------------------------------------------------------

namespace FilterQuery

namespace Registry

/- The head with the operator of the registry. -/
def resolveHead
    (S : Registry)
    (head : Head) :
    Head :=
  { head with operator := S.resolveOperator head.operator }

/- The level with the operators of the registry. -/
def resolveLevel
    (S : Registry)
    (level : Level) :
    Level :=
  ⟨level.conjunctions.map S.resolve,
    level.operands.map S.resolve⟩

/- The group with the operators of the registry. -/
def resolveGroup
    (S : Registry)
    (group : Group) :
    Group :=
  { group with outer := S.resolveLevel group.outer }

/- The phase with the operators of the registry. -/
def resolvePhase
    (S : Registry) :
    Phase → Phase
| .operand => .operand
| .negation => .negation
| .selector selector start => .selector selector start
| .symbol head => .symbol (S.resolveHead head)
| .list head arguments =>
    .list (S.resolveHead head) arguments
| .argument head argument arguments =>
    .argument (S.resolveHead head) argument arguments
| .complete n => .complete (S.resolve n)

/- The state with the operators of the registry. -/
def resolveState
    (S : Registry)
    (st : State) :
    State :=
  ⟨st.groups.map S.resolveGroup, S.resolveLevel st.level,
    S.resolvePhase st.phase⟩

variable {S : Registry}

/- Operators are resolved below the connectives. -/
theorem keeps_resolve :
    Node.Keeps S.resolve := by
  intro k ns
  rw [resolve, resolveList_eq_map]

/- The tree of a resolved level. -/
theorem close_resolveLevel
    (level : Level)
    (n : Node) :
    (S.resolveLevel level).close (S.resolve n) =
      S.resolve (level.close n) :=
  level.close_map keeps_resolve n

/- A conjunction is added to a resolved level. -/
theorem pushConjunction_resolveLevel
    (level : Level)
    (n : Node) :
    (S.resolveLevel level).pushConjunction (S.resolve n) =
      S.resolveLevel (level.pushConjunction n) :=
  level.pushConjunction_map keeps_resolve n

/- The operand that a resolved group stands for. -/
theorem operand_resolveGroup
    (group : Group)
    (n : Node) :
    (S.resolveGroup group).operand (S.resolve n) =
      S.resolve (group.operand n) :=
  group.operand_map keeps_resolve n

/- The same is expected in a resolved state. -/
theorem expected_resolveState
    (st : State) :
    (S.resolveState st).expected = st.expected := by
  rcases st with ⟨groups, level, phase⟩
  cases phase with
  | complete n => cases groups <;> rfl
  | _ => rfl

/- The same is allowed in a resolved state. -/
theorem admits_resolveState
    (st : State)
    (t : Token) :
    (S.resolveState st).admits t = st.admits t := by
  unfold State.admits
  rw [expected_resolveState]
  rcases st with ⟨groups, level, phase⟩
  cases phase <;> rfl

/- A resolved state ends with the resolved tree. -/
theorem finish_resolveState
    (st : State) :
    (S.resolveState st).finish =
      st.finish.map S.resolve := by
  rcases st with ⟨groups, level, phase⟩
  cases phase with
  | complete n =>
      cases groups with
      | nil =>
          exact congrArg Except.ok (close_resolveLevel level n)
      | cons group groups => rfl
  | _ => rfl

end Registry

end FilterQuery

------------------------------------------------------------
-- Comparisons Under Another Registry
------------------------------------------------------------

namespace FilterQuery

variable {R S : Registry}

/- The operator of a head is the one that is looked up. -/
theorem Head.Holds.known
    {head : Head}
    {xs : List Lexeme}
    (hHead : head.Holds R xs) :
    R.get? head.operator.symbol = some head.operator := by
  cases hHead with
  | intro _ _ hKnown =>
      rw [Registry.symbol_of_get? hKnown]
      exact hKnown

namespace Registry

/- A comparison can also be made with the wider operator. -/
theorem Extends.ofParts_of_ok
    {operator : Operator}
    {selector : String}
    {arguments : List String}
    {c : Comparison}
    (hExtends : S.Extends R)
    (hKnown : R.get? operator.symbol = some operator)
    (hMade :
      Comparison.ofParts operator selector arguments =
        .ok c) :
    Comparison.ofParts (S.resolveOperator operator) selector
        arguments =
      .ok (S.resolveComparison c) := by
  rcases Comparison.ofParts_eq_ok_iff.mp hMade with
    ⟨⟨hSelector, hArguments, hArity⟩, rfl⟩
  apply Comparison.ofParts_eq_ok_iff.mpr
  refine ⟨⟨hSelector, hArguments, ?_⟩, rfl⟩
  rcases hArity with hMany | hOne
  · exact Or.inl
      (hExtends.widened _ _ _ hKnown (hExtends.get? hKnown)
        hMany)
  · exact Or.inr hOne

/-
  What is wrong with a comparison is also wrong with the
  wider operator, unless that takes a list.
-/
theorem Extends.ofParts_of_error
    {operator : Operator}
    {selector : String}
    {arguments : List String}
    {cause : NodeError}
    {position : Nat}
    (hExtends : S.Extends R)
    (hKnown : R.get? operator.symbol = some operator)
    (hRefused :
      Comparison.ofParts operator selector arguments =
        .error cause)
    (hNot : ¬ S.Mends (.invalidNode position cause)) :
    Comparison.ofParts (S.resolveOperator operator) selector
        arguments =
      .error cause := by
  apply Comparison.ofParts_eq_error_iff.mpr
  cases Comparison.ofParts_eq_error_iff.mp hRefused with
  | blankSelector hBlank =>
      exact .blankSelector hBlank
  | emptyArguments hSelector hNone =>
      exact .emptyArguments hSelector hNone
  | tooManyArguments hSelector hSingle hMany =>
      rw [← symbol_resolveOperator (R := S) operator]
      refine .tooManyArguments hSelector ?_ hMany
      rw [← Bool.not_eq_true]
      intro hWide
      exact hNot
        (.tooManyArguments (hExtends.get? hKnown) hWide)

/- What is wrong with a comparison is not mended. -/
theorem not_mends_of_ofParts
    {operator : Operator}
    {selector : String}
    {arguments : List String}
    {cause : NodeError}
    {position : Nat}
    (hKnown : R.get? operator.symbol = some operator)
    (hRefused :
      Comparison.ofParts operator selector arguments =
        .error cause) :
    ¬ R.Mends (.invalidNode position cause) := by
  intro hMends
  cases Comparison.ofParts_eq_error_iff.mp hRefused with
  | blankSelector _ => cases hMends
  | emptyArguments _ _ => cases hMends
  | tooManyArguments _ hSingle _ =>
      cases hMends with
      | tooManyArguments hFound hMany =>
          rw [hKnown] at hFound
          cases hFound
          rw [hSingle] at hMany
          cases hMany

end Registry

end FilterQuery

------------------------------------------------------------
-- Steps Under Another Registry
------------------------------------------------------------

namespace FilterQuery

namespace State

variable {R S : Registry}

/-
  Every move is also a move under the wider registry, between
  the states with its operators.
-/
theorem Moves.resolve
    {st st' : State}
    {x : Lexeme}
    {xs : List Lexeme}
    (hExtends : S.Extends R)
    (hHolds : st.Holds R xs)
    (hMove : Moves R st x st') :
    Moves S (S.resolveState st) x (S.resolveState st') := by
  rcases hHolds with ⟨_, _, hPhase⟩
  cases hMove with
  | group hToken => exact .group hToken
  | bang hToken => exact .bang hToken
  | selector hValue => exact .selector hValue
  | negatedGroup hToken => exact .negatedGroup hToken
  | symbol hToken hKnown =>
      exact .symbol hToken (hExtends.get? hKnown)
  | single hValue hMade =>
      cases hPhase with
      | symbol hHead =>
          exact .single hValue
            (hExtends.ofParts_of_ok hHead.known hMade)
  | list hToken => exact .list hToken
  | argument hValue => exact .argument hValue
  | nextArgument hToken => exact .nextArgument hToken
  | closeList hToken hMade =>
      cases hPhase with
      | argument hHead _ _ _ =>
          exact .closeList hToken
            (hExtends.ofParts_of_ok hHead.known hMade)
  | nextOperand hToken => exact .nextOperand hToken
  | nextConjunction hToken =>
      simp only [Registry.resolveState,
        ← Registry.pushConjunction_resolveLevel]
      exact .nextConjunction hToken
  | closeGroup hToken =>
      simp only [Registry.resolveState, Registry.resolvePhase,
        ← Registry.operand_resolveGroup,
        ← Registry.close_resolveLevel]
      exact .closeGroup hToken

/-
  Every stop is also a stop under the wider registry, with
  the same error, unless that registry mends it.
-/
theorem Stops.resolve
    {st : State}
    {x : Lexeme}
    {xs : List Lexeme}
    {halt : Halt}
    (hExtends : S.Extends R)
    (hHolds : st.Holds R xs)
    (hStop : Stops R st x halt)
    (hNot : ¬ S.Mends halt.error) :
    Stops S (S.resolveState st) x halt := by
  rcases hHolds with ⟨_, _, hPhase⟩
  cases hStop with
  | unexpected hToken =>
      rw [← Registry.admits_resolveState (S := S)] at hToken
      rw [← Registry.expected_resolveState (S := S)]
      exact .unexpected hToken
  | @unknownSymbol _ _ _ _ symbol _ hToken hUnknown =>
      have hMissing : S.get? symbol = none := by
        apply Option.eq_none_iff_forall_ne_some.mpr
        intro op hKnown
        exact hNot
          (.unknownOperator
            ((S.contains_iff_get? _).mpr ⟨op, hKnown⟩))
      exact .unknownSymbol hToken hMissing
  | single hValue hRefused =>
      cases hPhase with
      | symbol hHead =>
          exact .single hValue
            (hExtends.ofParts_of_error hHead.known hRefused
              hNot)
  | closeList hToken hRefused =>
      cases hPhase with
      | argument hHead _ _ _ =>
          exact .closeList hToken
            (hExtends.ofParts_of_error hHead.known hRefused
              hNot)

end State

end FilterQuery

------------------------------------------------------------
-- Runs Under Another Registry
------------------------------------------------------------

namespace FilterQuery

variable {R S : Registry}

namespace State

/- Moves lead on in the same way under the wider registry. -/
theorem Reaches.resolve
    {st st' : State}
    {xs ys : List Lexeme}
    (hExtends : S.Extends R)
    (hHolds : st.Holds R xs)
    (hReaches : Reaches R st ys st') :
    Reaches S (S.resolveState st) ys (S.resolveState st') := by
  induction hReaches generalizing xs with
  | refl =>
      exact .refl _
  | step hMove _ ih =>
      have hNext := holds_of_moves hHolds hMove
      exact .step (hMove.resolve hExtends hHolds) (ih hNext)

/- What ends a reading is not mended by its own registry. -/
theorem Stops.not_mends
    {st : State}
    {x : Lexeme}
    {xs : List Lexeme}
    {halt : Halt}
    (hHolds : st.Holds R xs)
    (hStop : Stops R st x halt) :
    ¬ R.Mends halt.error := by
  rcases hHolds with ⟨_, _, hPhase⟩
  intro hMends
  cases hStop with
  | unexpected hToken =>
      cases hMends
  | unknownSymbol hToken hUnknown =>
      cases hMends with
      | unknownOperator hKnown =>
          rcases (R.contains_iff_get? _).mp hKnown with
            ⟨op, hGet⟩
          rw [hUnknown] at hGet
          cases hGet
  | single hValue hRefused =>
      cases hPhase with
      | symbol hHead =>
          exact Registry.not_mends_of_ofParts hHead.known
            hRefused hMends
  | closeList hToken hRefused =>
      cases hPhase with
      | argument hHead _ _ _ =>
          exact Registry.not_mends_of_ofParts hHead.known
            hRefused hMends

end State

namespace Registry

/- The tree under the wider registry has its operators. -/
theorem Extends.parseLexemes_of_ok
    {xs : List Lexeme}
    {n : Node}
    (hExtends : S.Extends R)
    (hParse : R.parseLexemes xs = .ok n) :
    S.parseLexemes xs = .ok (S.resolve n) := by
  rcases reaches_of_parseLexemes hParse with
    ⟨st, hReaches, hFinish⟩
  have hWider := hReaches.resolve hExtends State.holds_start
  rw [parseLexemes_eq_run]
  change (State.run S (S.resolveState .start) xs).1 = _
  rw [hWider.run, finish_resolveState, hFinish]
  rfl

/-
  An error that the wider registry does not mend is found
  under it as well.
-/
theorem Extends.parseLexemes_of_error
    {xs : List Lexeme}
    {e : ParseError}
    (hExtends : S.Extends R)
    (hParse : R.parseLexemes xs = .error e)
    (hNot : ¬ S.Mends e) :
    S.parseLexemes xs = .error e := by
  have hOutcome := R.outcome_parseLexemes xs
  rw [hParse] at hOutcome
  rw [parseLexemes_eq_run]
  change (State.run S (S.resolveState .start) xs).1 = _
  cases hOutcome with
  | unfinished hReaches hFinish =>
      have hWider :=
        hReaches.resolve hExtends State.holds_start
      rw [hWider.run, finish_resolveState, hFinish]
      rfl
  | stopped hSplit hReaches hStop hError =>
      subst hSplit hError
      have hHolds :=
        State.holds_of_reaches State.holds_start hReaches
      have hWider :=
        hReaches.resolve hExtends State.holds_start
      rw [State.run_of_stops hWider
        (hStop.resolve hExtends hHolds hNot)]

/- No registry reports an error that it mends. -/
theorem not_mends_of_parseLexemes
    {xs : List Lexeme}
    {e : ParseError}
    (hParse : R.parseLexemes xs = .error e) :
    ¬ R.Mends e := by
  have hOutcome := R.outcome_parseLexemes xs
  rw [hParse] at hOutcome
  cases hOutcome with
  | unfinished _ _ =>
      exact nofun
  | stopped _ hReaches hStop hError =>
      subst hError
      exact hStop.not_mends
        (State.holds_of_reaches State.holds_start hReaches)

end Registry

end FilterQuery

------------------------------------------------------------
-- Outcomes Under Two Registries
------------------------------------------------------------

namespace FilterQuery

/-
  Outcomes that are the same error, or trees that differ at
  most inside operators.
-/
inductive SameOutcome :
    Except ParseError Node → Except ParseError Node → Prop
  | parsed
      {n m : Node}
      (hSame : n.same m = true) :
      SameOutcome (.ok n) (.ok m)
  | rejected
      (e : ParseError) :
      SameOutcome (.error e) (.error e)

/-
  What there is to an operator besides its alternates: its
  canonical symbol and whether it takes a list.
-/
def Operator.signature (op : Operator) : String × Bool :=
  (op.symbol, op.multiValue)

namespace Registry

variable {R S : Registry}

/- A query has the same lexemes under every registry. -/
theorem parse_cases
    (query : String) :
    (∃ failure : LexFailure,
      ∀ R : Registry,
        R.parse query = .error (.lexical failure)) ∨
      ∃ xs, ∀ R : Registry,
        R.parse query = R.parseLexemes xs := by
  unfold Registry.parse tokenize
  cases (Lexing.ofString query).complete with
  | ok xs => exact Or.inr ⟨xs, fun _ => rfl⟩
  | error failure => exact Or.inl ⟨failure, fun _ => rfl⟩

/- The tree under the wider registry has its operators. -/
theorem Extends.parse_of_ok
    {query : String}
    {n : Node}
    (hExtends : S.Extends R)
    (hParse : R.parse query = .ok n) :
    S.parse query = .ok (S.resolve n) := by
  rcases parse_cases query with
    ⟨failure, hLexical⟩ | ⟨xs, hXs⟩
  · rw [hLexical] at hParse
    cases hParse
  · rw [hXs] at hParse ⊢
    exact hExtends.parseLexemes_of_ok hParse

/- No registry reports an error that it mends. -/
theorem not_mends_of_parse
    {query : String}
    {e : ParseError}
    (hParse : R.parse query = .error e) :
    ¬ R.Mends e := by
  rcases parse_cases query with
    ⟨failure, hLexical⟩ | ⟨xs, hXs⟩
  · rw [hLexical] at hParse
    cases hParse
    exact nofun
  · rw [hXs] at hParse
    exact not_mends_of_parseLexemes hParse

/-
  An error is found under the wider registry as well exactly
  if that does not mend it.
-/
theorem Extends.parse_of_error
    {query : String}
    {e : ParseError}
    (hExtends : S.Extends R)
    (hParse : R.parse query = .error e) :
    S.parse query = .error e ↔ ¬ S.Mends e := by
  refine ⟨not_mends_of_parse, ?_⟩
  intro hNot
  rcases parse_cases query with
    ⟨failure, hLexical⟩ | ⟨xs, hXs⟩
  · rw [hLexical] at hParse ⊢
    exact hParse
  · rw [hXs] at hParse ⊢
    exact hExtends.parseLexemes_of_error hParse hNot

/- Registries that extend each other have the same outcomes. -/
theorem Extends.sameOutcome
    (hExtends : S.Extends R)
    (hBack : R.Extends S)
    (query : String) :
    SameOutcome (S.parse query) (R.parse query) := by
  cases hParse : R.parse query with
  | ok n =>
      rw [hExtends.parse_of_ok hParse]
      exact .parsed (same_resolve n)
  | error e =>
      have hNot : ¬ S.Mends e := fun hMends =>
        not_mends_of_parse hParse (hBack.mends hMends)
      rw [(hExtends.parse_of_error hParse).mpr hNot]
      exact .rejected e

/- A registry extends those with no more signatures. -/
theorem extends_of_signatures
    (hSignatures :
      R.operators.map Operator.signature ⊆
        S.operators.map Operator.signature) :
    S.Extends R := by
  apply extends_of_members
  intro op hMem
  have hListed := hSignatures (List.mem_map_of_mem hMem)
  rcases List.mem_map.mp hListed with
    ⟨other, hOther, hSignature⟩
  have hMany := congrArg Prod.snd hSignature
  change other.multiValue = op.multiValue at hMany
  refine ⟨other, hOther, congrArg Prod.fst hSignature, ?_⟩
  rw [hMany]
  exact id

/-
  Under a registry that extends another, a query that was
  parsed gives the same tree, and an error is kept exactly if
  the extension does not mend it.  Neither the order of
  registration nor alternates change an outcome, and a
  duplicate does not even change the registry.
-/
theorem parse_of_extends :
    (∀ R S : Registry,
      S.Extends R →
        ∀ query,
          (∀ n,
            R.parse query = .ok n →
              S.parse query = .ok (S.resolve n) ∧
                (S.resolve n).same n = true) ∧
            ∀ e,
              R.parse query = .error e →
                (S.parse query = .error e ↔ ¬ S.Mends e)) ∧
      (∀ R S : Registry,
        (R.operators.map Operator.signature).Perm
            (S.operators.map Operator.signature) →
          ∀ query,
            SameOutcome (R.parse query) (S.parse query)) ∧
      ∀ before op after,
        (∃ other ∈ before, other.symbol = op.symbol) →
          ofList (before ++ op :: after) =
            ofList (before ++ after) := by
  refine ⟨?_, ?_, ?_⟩
  · intro R S hExtends query
    refine ⟨?_, ?_⟩
    · intro n hParse
      exact ⟨hExtends.parse_of_ok hParse, same_resolve n⟩
    · intro e hParse
      exact hExtends.parse_of_error hParse
  · intro R S hPerm query
    have hForth := extends_of_signatures hPerm.symm.subset
    have hBack := extends_of_signatures hPerm.subset
    exact hForth.sameOutcome hBack query
  · rintro before op after ⟨other, hMem, hSymbol⟩
    exact ofList_of_duplicate hMem hSymbol

/-
  The standard operators extend the basic ones.  With them a
  list after `==` is still too many arguments, but `=gt=` is
  no longer unknown.  An alternate of `==`, the order, and a
  second `==` do not matter.
-/
theorem parse_of_extends_sample :
    ∃ (n : Node) (other : Operator) (R : Registry),
      standard.Extends basic ∧
        basic.parse "a=in=(1,2)" = .ok n ∧
        standard.parse "a=in=(1,2)" =
          .ok (standard.resolve n) ∧
        standard.parse "a==(1,2)" =
          .error
            (.invalidNode 0 (.tooManyArguments "==" 2)) ∧
        basic.parse "a=gt=1" =
          .error (.invalidNode 1 (.unknownOperator "=gt=")) ∧
        standard.parse "a=gt=1" ≠
          .error (.invalidNode 1 (.unknownOperator "=gt=")) ∧
        other.symbols = ["==", "=eq="] ∧
        ofList
            [Builtin.inList.operator, other,
              Builtin.equal.operator] =
          .ok R ∧
        SameOutcome (R.parse "a==1") (basic.parse "a==1") := by
  rcases parse_of_extends with ⟨hWider, hOrder, hDuplicate⟩
  have hExtends : standard.Extends basic :=
    extends_of_signatures (by decide)
  have hTree :
      basic.parse "a=in=(1,2)" =
        .ok (.comparison
          ⟨Builtin.inList.operator, "a", ["1", "2"]⟩) := by
    cbv
  have hMany :
      basic.parse "a==(1,2)" =
        .error
          (.invalidNode 0 (.tooManyArguments "==" 2)) := by
    cbv
  have hUnknown :
      basic.parse "a=gt=1" =
        .error
          (.invalidNode 1 (.unknownOperator "=gt=")) := by
    cbv
  have hKept :
      ¬ standard.Mends
        (.invalidNode 0 (.tooManyArguments "==" 2)) := by
    rintro (_ | ⟨hKnown, hList⟩)
    cases hKnown
    cases hList
  have hMended :
      standard.Mends
        (.invalidNode 1 (.unknownOperator "=gt=")) :=
    .unknownOperator rfl
  let other : Operator := ⟨"==", ["=eq="], false, by decide⟩
  let R :=
    ofDistinct [Builtin.inList.operator, other] (by decide)
      (by decide)
  have hMade :=
    (hDuplicate [Builtin.inList.operator, other]
      Builtin.equal.operator []
      ⟨other, by decide, rfl⟩).trans (ofList_operators R)
  have hSame :=
    hOrder R basic (List.Perm.swap _ _ _) "a==1"
  exact ⟨_, other, R, hExtends, hTree,
    ((hWider _ _ hExtends _).1 _ hTree).1,
    ((hWider _ _ hExtends _).2 _ hMany).mpr hKept,
    hUnknown,
    fun hError =>
      ((hWider _ _ hExtends _).2 _ hUnknown).mp hError hMended,
    rfl, hMade, hSame⟩

end Registry

end FilterQuery
