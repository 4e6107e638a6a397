import FilterQuery.Proofs.Query.Checks
import FilterQuery.Proofs.Query.Viability

/-
  This file proves which invalid comparison of a sentence is
  reported, and that no other kind of invalid node is.

  Key definitions include:
    * `FilterQuery.Registry.Accepts`
    * `FilterQuery.Registry.Blames`
    * `FilterQuery.NodeError.Reportable`

  Key theorems include:
    * `FilterQuery.Registry.fault?_eq_some_iff`
    * `FilterQuery.Registry.reportable_of_parseLexemes`
    * `FilterQuery.Registry.parses_iff_accepts`
    * `FilterQuery.Registry.parseLexemes_blames_leftmost`
-/

------------------------------------------------------------
-- Faults Of Comparisons
------------------------------------------------------------

namespace FilterQuery

namespace Registry

/-
  The symbol of the comparison is registered, its selector is
  not blank, and its operator takes that many arguments.
-/
def Accepts
    (R : Registry)
    (w : Written) : Prop :=
  ∃ operator,
    R.get? w.symbol = some operator ∧
      Text.isBlankText w.selector = false ∧
      (operator.multiValue = true ∨ w.arguments.length = 1)

/-
  The error that is due to a comparison.  An unknown symbol
  comes before a blank selector, and that before too many
  arguments.
-/
inductive Blames
    (R : Registry)
    (w : Written) :
    ParseError → Prop
  | unknownOperator
      (hUnknown : R.get? w.symbol = none) :
      Blames R w
        (.invalidNode w.symbolStart
          (.unknownOperator w.symbol))
  | blankSelector
      {operator : Operator}
      (hKnown : R.get? w.symbol = some operator)
      (hBlank : Text.isBlankText w.selector = true) :
      Blames R w (.invalidNode w.start .blankSelector)
  | tooManyArguments
      {operator : Operator}
      (hKnown : R.get? w.symbol = some operator)
      (hSelector : Text.isBlankText w.selector = false)
      (hSingle : operator.multiValue = false)
      (hMany : 1 < w.arguments.length) :
      Blames R w
        (.invalidNode w.start
          (.tooManyArguments operator.symbol
            w.arguments.length))

variable {R : Registry}

/- The accepted comparisons are those that mean a tree. -/
theorem accepts_iff_compares
    {w : Written} :
    R.Accepts w ↔ ∃ n, R.Compares w n := by
  constructor
  · rintro ⟨operator, hKnown, hSelector, hArity⟩
    exact ⟨_, .intro hKnown hSelector hArity⟩
  · rintro ⟨n, hCompares⟩
    cases hCompares with
    | intro hKnown hSelector hArity =>
        exact ⟨_, hKnown, hSelector, hArity⟩

/-
  Nothing is wrong with exactly the accepted comparisons of a
  sentence.
-/
theorem fault?_eq_none_iff_accepts
    {xs : List Lexeme}
    {ws : List Written}
    {w : Written}
    (hSentence : Sentence xs ws)
    (hMem : w ∈ ws) :
    R.fault? w = none ↔ R.Accepts w := by
  rw [fault?_eq_none_iff (hSentence.arguments_ne_nil w hMem)]
  exact accepts_iff_compares.symm

/- What is wrong with a comparison is the error due to it. -/
theorem fault?_eq_some_iff
    {w : Written}
    {e : ParseError} :
    R.fault? w = some e ↔ R.Blames w e := by
  constructor
  · intro hFault
    unfold fault? at hFault
    split at hFault
    · rename_i hUnknown
      cases hFault
      exact .unknownOperator hUnknown
    · rename_i hKnown
      by_cases hBlank : Text.isBlankText w.selector = true
      · rw [if_pos hBlank] at hFault
        cases hFault
        exact .blankSelector hKnown hBlank
      · rw [if_neg hBlank] at hFault
        rw [Bool.not_eq_true] at hBlank
        split at hFault
        · rename_i hMany
          cases hFault
          exact .tooManyArguments hKnown hBlank hMany.1
            hMany.2
        · cases hFault
  · intro hBlames
    unfold fault?
    cases hBlames with
    | unknownOperator hUnknown =>
        rw [hUnknown]
    | blankSelector hKnown hBlank =>
        rw [hKnown]
        exact if_pos hBlank
    | tooManyArguments hKnown hSelector hSingle hMany =>
        rw [hKnown]
        simp only [hSelector, hSingle, hMany, and_self,
          if_true, Bool.false_eq_true, if_false]

end Registry

end FilterQuery

------------------------------------------------------------
-- Causes
------------------------------------------------------------

namespace FilterQuery

/- Causes for which parsing can refuse a comparison. -/
inductive NodeError.Reportable : NodeError → Prop
  | unknownOperator
      (symbol : String) :
      NodeError.Reportable (.unknownOperator symbol)
  | blankSelector : NodeError.Reportable .blankSelector
  | tooManyArguments
      (symbol : String)
      (count : Nat) :
      NodeError.Reportable (.tooManyArguments symbol count)

/- No comparison is refused for its symbol. -/
theorem Comparison.known_of_ofParts
    {operator : Operator}
    {selector : String}
    {arguments : List String}
    {cause : NodeError}
    (hRefused :
      ofParts operator selector arguments = .error cause)
    (symbol : String) :
    cause ≠ .unknownOperator symbol := by
  rintro rfl
  cases ofParts_eq_error_iff.mp hRefused

/- A comparison with arguments is refused for such a cause. -/
theorem Comparison.reportable_of_ofParts
    {operator : Operator}
    {selector : String}
    {arguments : List String}
    {cause : NodeError}
    (hSome : arguments ≠ [])
    (hRefused :
      ofParts operator selector arguments = .error cause) :
    cause.Reportable := by
  cases ofParts_eq_error_iff.mp hRefused with
  | blankSelector _ =>
      exact .blankSelector
  | emptyArguments _ hNone =>
      exact absurd hNone hSome
  | tooManyArguments _ _ _ =>
      exact .tooManyArguments _ _

/- Reading stops at invalid nodes for such causes. -/
theorem State.Stops.reportable
    {R : Registry}
    {st : State}
    {x : Lexeme}
    {halt : Halt}
    {position : Nat}
    {cause : NodeError}
    (hStop : Stops R st x halt)
    (hInvalid : halt.error = .invalidNode position cause) :
    cause.Reportable := by
  cases hStop with
  | unexpected _ =>
      cases hInvalid
  | unknownSymbol _ _ =>
      cases hInvalid
      exact .unknownOperator _
  | single _ hRefused =>
      cases hInvalid
      exact Comparison.reportable_of_ofParts
        (List.cons_ne_nil _ _) hRefused
  | closeList _ hRefused =>
      cases hInvalid
      exact Comparison.reportable_of_ofParts (by simp)
        hRefused

namespace Registry

variable {R : Registry}

/- Parsing reports invalid nodes for such causes. -/
theorem reportable_of_parseLexemes
    {xs : List Lexeme}
    {position : Nat}
    {cause : NodeError}
    (hParse :
      R.parseLexemes xs =
        .error (.invalidNode position cause)) :
    cause.Reportable := by
  have hOutcome := R.outcome_parseLexemes xs
  rw [hParse] at hOutcome
  cases hOutcome with
  | stopped _ _ hStop hError =>
      exact hStop.reportable hError

/- A contained symbol is found when a node is made. -/
theorem comparison_ne_unknownOperator
    {symbol : String}
    (hContains : R.contains symbol = true)
    (selector : String)
    (arguments : List String)
    (other : String) :
    R.comparison symbol selector arguments ≠
      .error (.unknownOperator other) := by
  rcases (R.contains_iff_get? symbol).mp hContains with
    ⟨operator, hKnown⟩
  unfold comparison
  rw [hKnown]
  intro hError
  change Comparison.ofParts operator selector arguments = _
    at hError
  exact Comparison.known_of_ofParts hError other rfl

end Registry

end FilterQuery

------------------------------------------------------------
-- The Leftmost Fault
------------------------------------------------------------

namespace FilterQuery

namespace Registry

variable {R : Registry}

/- A sentence is parsed if all its comparisons are accepted. -/
theorem parses_iff_accepts
    {xs : List Lexeme}
    {ws : List Written}
    (hSentence : Sentence xs ws) :
    (∃ n, R.parseLexemes xs = .ok n) ↔
      ∀ w ∈ ws, R.Accepts w := by
  constructor
  · rintro ⟨n, hParse⟩
    intro w hw
    rw [← fault?_eq_none_iff_accepts hSentence hw]
    cases hFault : ws.findSome? R.fault? with
    | none =>
        exact List.findSome?_eq_none_iff.mp hFault w hw
    | some e =>
        rw [parseLexemes_of_fault hSentence hFault] at hParse
        cases hParse
  · intro hAccepts
    have hNone : ∀ w ∈ ws, R.fault? w = none := by
      intro w hw
      rw [fault?_eq_none_iff_accepts hSentence hw]
      exact hAccepts w hw
    rcases means_of_sentence hSentence hNone with ⟨n, hMeans⟩
    exact ⟨n, parseLexemes_of_means hMeans⟩

/-
  A sentence that is not parsed is rejected for its first
  comparison that is not accepted.
-/
theorem blames_of_not_accepts
    {xs : List Lexeme}
    {ws : List Written}
    (hSentence : Sentence xs ws)
    (hNot : ¬ ∀ w ∈ ws, R.Accepts w) :
    ∃ before w after e,
      ws = before ++ w :: after ∧
        (∀ v ∈ before, R.Accepts v) ∧
        R.Blames w e ∧
        R.parseLexemes xs = .error e := by
  cases hFault : ws.findSome? R.fault? with
  | none =>
      refine absurd ?_ hNot
      intro w hw
      rw [← fault?_eq_none_iff_accepts hSentence hw]
      exact List.findSome?_eq_none_iff.mp hFault w hw
  | some e =>
      rcases List.findSome?_eq_some_iff.mp hFault with
        ⟨before, w, after, hSplit, hw, hBefore⟩
      refine ⟨before, w, after, e, hSplit, ?_,
        fault?_eq_some_iff.mp hw,
        parseLexemes_of_fault hSentence hFault⟩
      intro v hv
      have hMem : v ∈ ws := by
        rw [hSplit]
        exact List.mem_append_left _ hv
      rw [← fault?_eq_none_iff_accepts hSentence hMem]
      exact hBefore v hv

/-
  A sentence is parsed exactly if all its comparisons are
  accepted, and otherwise rejected for the leftmost that is
  not.  Whatever the lexemes are, no node is refused for
  missing arguments or children; a contained symbol is always
  found again; and checking every node that is made changes
  no outcome.
-/
theorem parseLexemes_blames_leftmost
    (R : Registry) :
    (∀ xs ws,
      Sentence xs ws →
        ((∃ n, R.parseLexemes xs = .ok n) ↔
          ∀ w ∈ ws, R.Accepts w) ∧
        ((¬ ∀ w ∈ ws, R.Accepts w) →
          ∃ before w after e,
            ws = before ++ w :: after ∧
              (∀ v ∈ before, R.Accepts v) ∧
              R.Blames w e ∧
              R.parseLexemes xs = .error e)) ∧
      (∀ xs position cause,
        R.parseLexemes xs =
            .error (.invalidNode position cause) →
          cause ≠ .emptyArguments ∧
            cause ≠ .emptyChildren ∧
            ∀ count, cause ≠ .notArity count) ∧
      (∀ symbol selector arguments other,
        R.contains symbol = true →
          R.comparison symbol selector arguments ≠
            .error (.unknownOperator other)) ∧
      ∀ position xs,
        R.parseChecked position xs = R.parseLexemes xs := by
  refine ⟨?_, ?_, ?_, ?_⟩
  · intro xs ws hSentence
    exact ⟨parses_iff_accepts hSentence,
      blames_of_not_accepts hSentence⟩
  · intro xs position cause hParse
    have hCause := reportable_of_parseLexemes hParse
    refine ⟨?_, ?_, ?_⟩
    · rintro rfl
      cases hCause
    · rintro rfl
      cases hCause
    · rintro count rfl
      cases hCause
  · intro symbol selector arguments other hContains
    exact comparison_ne_unknownOperator hContains selector
      arguments other
  · intro position xs
    exact R.parseChecked_eq position xs

/-
  In `a==(1,2);b=x=3` both comparisons have a fault, and the
  first is reported.
-/
theorem parseLexemes_blames_leftmost_sample :
    ∃ before w after e,
      [⟨"a", 0, "==", 1, ["1", "2"]⟩,
          ⟨"b", 9, "=x=", 10, ["3"]⟩] =
        before ++ w :: after ∧
          basic.Blames w e ∧
          e =
            .invalidNode 0 (.tooManyArguments "==" 2) ∧
          NodeError.tooManyArguments "==" 2 ≠
            .emptyArguments ∧
          basic.comparison "==" "a" ["1", "2"] ≠
            .error (.unknownOperator "==") := by
  rcases parseLexemes_blames_leftmost basic with
    ⟨hLeftmost, hCauses, hContained, _⟩
  have hFirst :
      Derives Written.reading .operand
        [⟨.bare "a", 0, 1⟩, ⟨.operator "==", 1, 3⟩,
          ⟨.openParen, 3, 4⟩, ⟨.bare "1", 4, 5⟩,
          ⟨.comma, 5, 6⟩, ⟨.bare "2", 6, 7⟩,
          ⟨.closeParen, 7, 8⟩]
        [[⟨"a", 0, "==", 1, ["1", "2"]⟩]] :=
    .comparison
      (.intro rfl rfl (.list rfl (.more rfl rfl (.one rfl)) rfl))
      rfl
  have hSecond :
      Derives Written.reading .operand
        [⟨.bare "b", 9, 10⟩, ⟨.operator "=x=", 10, 13⟩,
          ⟨.bare "3", 13, 14⟩]
        [[⟨"b", 9, "=x=", 10, ["3"]⟩]] :=
    .comparison (.intro rfl rfl (.single rfl)) rfl
  have hSemicolon :
      (⟨.semicolon, 8, 9⟩ : Lexeme).token = .semicolon := rfl
  have hSentence :=
    Derives.oneConjunction
      (.moreOperands hFirst hSemicolon (.oneOperand hSecond))
  have hUnknown :
      ¬ ∀ w ∈
          [(⟨"a", 0, "==", 1, ["1", "2"]⟩ : Written),
            ⟨"b", 9, "=x=", 10, ["3"]⟩],
        basic.Accepts w := by
    intro hAll
    rcases hAll ⟨"b", 9, "=x=", 10, ["3"]⟩
        (List.mem_cons_of_mem _ (List.mem_singleton.mpr rfl))
      with ⟨operator, hKnown, _⟩
    cases hKnown
  rcases (hLeftmost _ _ ⟨_, hSentence, rfl⟩).2 hUnknown with
    ⟨before, w, after, e, hSplit, _, hBlames, hParse⟩
  have hError :
      e = .invalidNode 0 (.tooManyArguments "==" 2) := by
    rw [parseLexemes_eq_run] at hParse
    exact Except.error.inj hParse.symm
  rw [hError] at hParse
  exact ⟨before, w, after, e, hSplit, hBlames, hError,
    (hCauses _ _ _ hParse).1,
    hContained "==" "a" ["1", "2"] "==" rfl⟩

end Registry

end FilterQuery
