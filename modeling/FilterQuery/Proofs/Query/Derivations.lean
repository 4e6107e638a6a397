import FilterQuery.Node.Shape
import FilterQuery.Query.Grammar

/-
  This file collects facts about derivations that hold for
  every reading.

  Key definitions include:
    * `FilterQuery.WrittenOperand`
    * `FilterQuery.Comparison.Refuses`

  Key theorems include:
    * `FilterQuery.Derives.ne_nil`
    * `FilterQuery.Derives.append_conjunction`
    * `FilterQuery.Derives.translate`
    * `FilterQuery.Comparison.ofParts_eq_error_iff`
    * `FilterQuery.Registry.compares_iff`
    * `FilterQuery.Registry.fault?_eq_none_iff`
    * `FilterQuery.Registry.derives_of_written`

  A derivation groups lexemes in the same way under every
  reading, so it can be carried from one reading to another
  wherever the comparisons have meanings there.
-/

------------------------------------------------------------
-- Written Arguments
------------------------------------------------------------

namespace FilterQuery

/- Values with commas between them are at least one. -/
theorem Values.ne_nil
    {xs : List Lexeme}
    {values : List String}
    (hValues : Values xs values) :
    values ≠ [] := by
  cases hValues <;> exact List.cons_ne_nil _ _

/- A comparison has at least one argument. -/
theorem Arguments.ne_nil
    {xs : List Lexeme}
    {values : List String}
    (hArguments : Arguments xs values) :
    values ≠ [] := by
  cases hArguments with
  | single hValue =>
      exact List.cons_ne_nil _ _
  | list hOpening hValues hClosing =>
      exact hValues.ne_nil

/- A written comparison has at least one argument. -/
theorem Written.Spells.ne_nil
    {w : Written}
    {xs : List Lexeme}
    (hSpells : w.Spells xs) :
    w.arguments ≠ [] := by
  cases hSpells with
  | intro hSelector hSymbol hArguments =>
      exact hArguments.ne_nil

end FilterQuery

------------------------------------------------------------
-- Meanings Of Operands
------------------------------------------------------------

namespace FilterQuery

namespace Derives

variable {α β : Type}
variable {I : Reading α} {J : Reading β}

/- An operand has one meaning. -/
theorem operand_singleton
    {xs : List Lexeme}
    {as : List α}
    (hOperand : Derives I .operand xs as) :
    ∃ a, as = [a] := by
  cases hOperand with
  | comparison hSpells hMeans => exact ⟨_, rfl⟩
  | group hOpening hInside hClosing => exact ⟨_, rfl⟩
  | negation hBang hOpening hInside hClosing =>
      exact ⟨_, rfl⟩

/- There is at least one operand. -/
theorem ne_nil
    {rule : Rule}
    {xs : List Lexeme}
    {as : List α}
    (hDerives : Derives I rule xs as) :
    as ≠ [] := by
  cases hDerives <;> exact List.cons_ne_nil _ _

/- An operand is a query. -/
theorem query
    {xs : List Lexeme}
    {a : α}
    (hOperand : Derives I .operand xs [a]) :
    Derives I .disjunction xs [I.join .and [a]] :=
  .oneConjunction (.oneOperand hOperand)

/- A conjunction may be added behind a disjunction. -/
theorem append_conjunction
    {comma : Lexeme}
    {xs ys : List Lexeme}
    {as bs : List α}
    (hBefore : Derives I .disjunction xs bs)
    (hComma : comma.token = .comma)
    (hAfter : Derives I .conjunction ys as) :
    Derives I .disjunction (xs ++ comma :: ys)
      (bs ++ [I.join .and as]) := by
  generalize hRule : Rule.disjunction = rule at hBefore
  induction hBefore with
  | oneConjunction hConjunction _ =>
      exact .moreConjunctions hConjunction hComma
        (.oneConjunction hAfter)
  | moreConjunctions hConjunction hFirst _ _ ih =>
      rw [List.append_assoc, List.cons_append,
        List.cons_append]
      exact .moreConjunctions hConjunction hFirst (ih hRule)
  | _ => cases hRule

end Derives

end FilterQuery

------------------------------------------------------------
-- Other Readings
------------------------------------------------------------

namespace FilterQuery

namespace Derives

variable {α β : Type}
variable {I : Reading α} {J : Reading β}

/-
  Carry a derivation to another reading.  Only comparisons
  with good meanings need a meaning there, if the parts of a
  good meaning are good.
-/
theorem translate
    {P : α → Prop}
    {rule : Rule}
    {xs : List Lexeme}
    {as : List α}
    (hParts :
      ∀ k as, P (I.join k as) → ∀ a ∈ as, P a)
    (hComparison :
      ∀ w ys a,
        w.Spells ys → I.comparison w a → P a →
          ∃ b, J.comparison w b)
    (hDerives : Derives I rule xs as)
    (hGood : ∀ a ∈ as, P a) :
    ∃ bs, bs.length = as.length ∧ Derives J rule xs bs := by
  induction hDerives with
  | comparison hSpells hMeans =>
      rcases hComparison _ _ _ hSpells hMeans
          (hGood _ (List.mem_singleton.mpr rfl)) with
        ⟨b, hMeans'⟩
      exact ⟨[b], rfl, .comparison hSpells hMeans'⟩
  | group hOpening _ hClosing ih =>
      have hInside :=
        hParts _ _ (hGood _ (List.mem_singleton.mpr rfl))
      rcases ih hInside with ⟨bs, _, hBs⟩
      exact ⟨_, rfl, .group hOpening hBs hClosing⟩
  | negation hBang hOpening _ hClosing ih =>
      have hOperand :=
        hParts _ _ (hGood _ (List.mem_singleton.mpr rfl))
      have hInside :=
        hParts _ _ (hOperand _ (List.mem_singleton.mpr rfl))
      rcases ih hInside with ⟨bs, _, hBs⟩
      exact ⟨_, rfl, .negation hBang hOpening hBs hClosing⟩
  | oneOperand _ ih =>
      rcases ih hGood with ⟨bs, hLength, hBs⟩
      rcases hBs.operand_singleton with ⟨b, rfl⟩
      exact ⟨[b], rfl, .oneOperand hBs⟩
  | moreOperands _ hSemicolon _ ihFirst ihMore =>
      rcases ihFirst fun a ha =>
          hGood a (List.mem_cons.mpr
            (Or.inl (List.mem_singleton.mp ha))) with
        ⟨bs, _, hBs⟩
      rcases hBs.operand_singleton with ⟨b, rfl⟩
      rcases ihMore fun a ha =>
          hGood a (List.mem_cons_of_mem _ ha) with
        ⟨cs, hLength, hCs⟩
      exact ⟨b :: cs, by simp [hLength],
        .moreOperands hBs hSemicolon hCs⟩
  | oneConjunction _ ih =>
      have hInside :=
        hParts _ _ (hGood _ (List.mem_singleton.mpr rfl))
      rcases ih hInside with ⟨bs, _, hBs⟩
      exact ⟨_, rfl, .oneConjunction hBs⟩
  | moreConjunctions _ hComma _ ihFirst ihMore =>
      have hInside :=
        hParts _ _ (hGood _ List.mem_cons_self)
      rcases ihFirst hInside with ⟨bs, _, hBs⟩
      rcases ihMore fun a ha =>
          hGood a (List.mem_cons_of_mem _ ha) with
        ⟨cs, hLength, hCs⟩
      exact ⟨_ :: cs, by simp [hLength],
        .moreConjunctions hBs hComma hCs⟩

/- What has a meaning is also written. -/
theorem written
    {rule : Rule}
    {xs : List Lexeme}
    {as : List α}
    (hDerives : Derives I rule xs as) :
    ∃ parts,
      parts.length = as.length ∧
        Derives Written.reading rule xs parts :=
  hDerives.translate
    (P := fun _ => True)
    (fun _ _ _ _ _ => trivial)
    (fun w _ _ _ _ _ => ⟨[w], rfl⟩)
    (fun _ _ => trivial)

end Derives

/- Lexemes that are written as one operand. -/
def WrittenOperand (xs : List Lexeme) : Prop :=
  ∃ ws, Derives Written.reading .operand xs [ws]

namespace WrittenOperand

/- Whatever an operand means, it is written. -/
theorem of_derives
    {α : Type}
    {I : Reading α}
    {xs : List Lexeme}
    {a : α}
    (hOperand : Derives I .operand xs [a]) :
    WrittenOperand xs := by
  rcases hOperand.written with ⟨parts, _, hParts⟩
  rcases hParts.operand_singleton with ⟨ws, rfl⟩
  exact ⟨ws, hParts⟩

/- Selector, symbol and arguments are an operand. -/
theorem comparison
    {x y : Lexeme}
    {selector symbol : String}
    {xs : List Lexeme}
    {arguments : List String}
    (hSelector : x.token.value? = some selector)
    (hSymbol : y.token = .operator symbol)
    (hArguments : Arguments xs arguments) :
    WrittenOperand (x :: y :: xs) :=
  ⟨_, .comparison (.intro hSelector hSymbol hArguments) rfl⟩

end WrittenOperand

/- A query with a meaning is a sentence. -/
theorem Reading.Means.sentence
    {α : Type}
    {I : Reading α}
    {xs : List Lexeme}
    {a : α}
    (hMeans : I.Means xs a) :
    ∃ ws, Sentence xs ws := by
  rcases hMeans with ⟨as, hDerives, _⟩
  rcases hDerives.written with ⟨parts, _, hParts⟩
  exact ⟨_, parts, hParts, rfl⟩

end FilterQuery

------------------------------------------------------------
-- Written Comparisons
------------------------------------------------------------

namespace FilterQuery

/- Every comparison of a part of a query has arguments. -/
theorem Derives.arguments_ne_nil
    {rule : Rule}
    {xs : List Lexeme}
    {parts : List (List Written)}
    (hDerives : Derives Written.reading rule xs parts) :
    ∀ w ∈ parts.flatten, w.arguments ≠ [] := by
  induction hDerives with
  | comparison hSpells hMeans =>
      cases hMeans
      intro w hw
      rw [List.flatten_singleton, List.mem_singleton] at hw
      rw [hw]
      exact hSpells.ne_nil
  | oneOperand _ ih =>
      exact ih
  | group _ _ _ ih | negation _ _ _ _ ih
  | oneConjunction _ ih =>
      intro w hw
      apply ih w
      simpa [Written.reading] using hw
  | moreOperands _ _ _ ihFirst ihMore =>
      intro w hw
      rw [List.flatten_cons, List.mem_append] at hw
      rcases hw with hFirst | hMore
      · exact ihFirst w (by simpa using hFirst)
      · exact ihMore w hMore
  | moreConjunctions _ _ _ ihFirst ihMore =>
      intro w hw
      rw [List.flatten_cons, List.mem_append] at hw
      rcases hw with hFirst | hMore
      · exact ihFirst w hFirst
      · exact ihMore w hMore

/- Every comparison of a sentence has arguments. -/
theorem Sentence.arguments_ne_nil
    {xs : List Lexeme}
    {ws : List Written}
    (hSentence : Sentence xs ws) :
    ∀ w ∈ ws, w.arguments ≠ [] := by
  rcases hSentence with ⟨parts, hDerives, rfl⟩
  exact hDerives.arguments_ne_nil

end FilterQuery

------------------------------------------------------------
-- Trees Under A Registry
------------------------------------------------------------

namespace FilterQuery

/- Several trees are joined by a node of their own. -/
theorem Node.connect_cons_cons
    (k : Connective)
    (n m : Node)
    (ns : List Node) :
    connect k (n :: m :: ns) = .logical k (n :: m :: ns) := by
  cases k <;> rfl

/- One tree alone stands for itself. -/
theorem Node.connect_singleton
    {k : Connective}
    (hNot : k ≠ .not)
    (n : Node) :
    connect k [n] = n := by
  cases k with
  | not => exact absurd rfl hNot
  | and | or => rfl

/-
  A comparison can be made of its parts exactly if the result
  is well formed.
-/
theorem Comparison.ofParts_eq_ok_iff
    {operator : Operator}
    {selector : String}
    {arguments : List String}
    {c : Comparison} :
    ofParts operator selector arguments = .ok c ↔
      c.WellFormed ∧ c = ⟨operator, selector, arguments⟩ := by
  constructor
  · intro hMade
    refine ⟨wellFormed_of_ofParts hMade, ?_⟩
    unfold ofParts at hMade
    split at hMade
    · cases hMade
    · split at hMade
      · cases hMade
      · split at hMade
        · cases hMade
        · cases hMade
          rfl
  · rintro ⟨⟨hSelector, hArguments, hArity⟩, rfl⟩
    have hFew :
        ¬ (operator.multiValue = false ∧
          1 < arguments.length) := by
      rintro ⟨hSingle, hMany⟩
      rcases hArity with hMulti | hOne
      · rw [hSingle] at hMulti
        cases hMulti
      · change arguments.length = 1 at hOne
        omega
    unfold ofParts
    rw [if_neg (by rw [hSelector]; exact Bool.false_ne_true),
      if_neg hArguments, if_neg hFew]

/-
  Why a comparison cannot be made of the operator, selector
  and arguments.
-/
inductive Comparison.Refuses
    (operator : Operator)
    (selector : String)
    (arguments : List String) :
    NodeError → Prop
  | blankSelector
      (hBlank : Text.isBlankText selector = true) :
      Comparison.Refuses operator selector arguments
        .blankSelector
  | emptyArguments
      (hSelector : Text.isBlankText selector = false)
      (hNone : arguments = []) :
      Comparison.Refuses operator selector arguments
        .emptyArguments
  | tooManyArguments
      (hSelector : Text.isBlankText selector = false)
      (hSingle : operator.multiValue = false)
      (hMany : 1 < arguments.length) :
      Comparison.Refuses operator selector arguments
        (.tooManyArguments operator.symbol arguments.length)

/-
  A comparison cannot be made of its parts exactly for one of
  these reasons.
-/
theorem Comparison.ofParts_eq_error_iff
    {operator : Operator}
    {selector : String}
    {arguments : List String}
    {cause : NodeError} :
    ofParts operator selector arguments = .error cause ↔
      Refuses operator selector arguments cause := by
  constructor
  · intro hRefused
    unfold ofParts at hRefused
    split at hRefused
    · rename_i hBlank
      cases hRefused
      exact .blankSelector hBlank
    · rename_i hSelector
      rw [Bool.not_eq_true] at hSelector
      split at hRefused
      · rename_i hNone
        cases hRefused
        exact .emptyArguments hSelector hNone
      · split at hRefused
        · rename_i hMany
          cases hRefused
          exact .tooManyArguments hSelector hMany.1 hMany.2
        · cases hRefused
  · intro hRefuses
    unfold ofParts
    cases hRefuses with
    | blankSelector hBlank =>
        exact if_pos hBlank
    | emptyArguments hSelector hNone =>
        rw [if_neg (by rw [hSelector]; exact nofun),
          if_pos hNone]
    | tooManyArguments hSelector hSingle hMany =>
        have hSome : arguments ≠ [] := by
          rintro rfl
          cases hMany
        rw [if_neg (by rw [hSelector]; exact nofun),
          if_neg hSome, if_pos ⟨hSingle, hMany⟩]

namespace Registry

variable {R : Registry}

/-
  Under a known symbol, a written comparison means what can
  be made of its parts.
-/
theorem compares_iff
    {w : Written}
    {operator : Operator}
    {n : Node}
    (hKnown : R.get? w.symbol = some operator)
    (hArguments : w.arguments ≠ []) :
    R.Compares w n ↔
      ∃ c,
        Comparison.ofParts operator w.selector w.arguments =
            .ok c ∧
          n = .comparison c := by
  constructor
  · intro hCompares
    cases hCompares with
    | intro hGet hSelector hArity =>
        rw [hKnown] at hGet
        cases hGet
        exact ⟨_,
          Comparison.ofParts_eq_ok_iff.mpr
            ⟨⟨hSelector, hArguments, hArity⟩, rfl⟩, rfl⟩
  · rintro ⟨c, hMade, rfl⟩
    rcases Comparison.ofParts_eq_ok_iff.mp hMade with
      ⟨⟨hSelector, _, hArity⟩, rfl⟩
    exact .intro hKnown hSelector hArity

/-
  What a registry finds wrong with a comparison of a known
  symbol is what keeps it from being made.
-/
theorem fault?_of_ofParts_error
    {w : Written}
    {operator : Operator}
    {cause : NodeError}
    (hKnown : R.get? w.symbol = some operator)
    (hArguments : w.arguments ≠ [])
    (hRefused :
      Comparison.ofParts operator w.selector w.arguments =
        .error cause) :
    R.fault? w = some (.invalidNode w.start cause) := by
  simp only [fault?, hKnown]
  cases Comparison.ofParts_eq_error_iff.mp hRefused with
  | blankSelector hBlank =>
      rw [if_pos hBlank]
  | emptyArguments _ hNone =>
      exact absurd hNone hArguments
  | tooManyArguments hSelector hSingle hMany =>
      rw [if_neg (by rw [hSelector]; exact nofun),
        if_pos ⟨hSingle, hMany⟩]

/- Nothing is wrong with a comparison that can be made. -/
theorem fault?_of_ofParts_ok
    {w : Written}
    {operator : Operator}
    {c : Comparison}
    (hKnown : R.get? w.symbol = some operator)
    (hMade :
      Comparison.ofParts operator w.selector w.arguments =
        .ok c) :
    R.fault? w = none := by
  unfold Comparison.ofParts at hMade
  simp only [fault?, hKnown]
  split at hMade
  · cases hMade
  · rename_i hBlank
    split at hMade
    · cases hMade
    · split at hMade
      · cases hMade
      · rename_i hFew
        rw [if_neg hBlank, if_neg hFew]

/-
  A registry finds nothing wrong with exactly the comparisons
  that mean a tree.
-/
theorem fault?_eq_none_iff
    {w : Written}
    (hArguments : w.arguments ≠ []) :
    R.fault? w = none ↔ ∃ n, R.Compares w n := by
  cases hKnown : R.get? w.symbol with
  | none =>
      constructor
      · intro hNone
        simp [fault?, hKnown] at hNone
      · rintro ⟨n, hCompares⟩
        cases hCompares with
        | intro hGet hSelector hArity =>
            rw [hKnown] at hGet
            cases hGet
  | some operator =>
      cases hMade :
          Comparison.ofParts operator w.selector
            w.arguments with
      | ok c =>
          constructor
          · intro _
            exact ⟨_,
              (compares_iff hKnown hArguments).mpr
                ⟨c, hMade, rfl⟩⟩
          · intro _
            exact fault?_of_ofParts_ok hKnown hMade
      | error cause =>
          constructor
          · intro hNone
            rw [fault?_of_ofParts_error hKnown hArguments
              hMade] at hNone
            cases hNone
          · rintro ⟨n, hCompares⟩
            rcases (compares_iff hKnown hArguments).mp
                hCompares with
              ⟨c, hOk, _⟩
            rw [hMade] at hOk
            cases hOk

/-
  Lexemes that are written without faults have a meaning
  under the registry.
-/
theorem derives_of_written
    {rule : Rule}
    {xs : List Lexeme}
    {parts : List (List Written)}
    (hDerives : Derives Written.reading rule xs parts)
    (hNone : ∀ w ∈ parts.flatten, R.fault? w = none) :
    ∃ ns,
      ns.length = parts.length ∧
        Derives R.reading rule xs ns := by
  apply hDerives.translate
    (P := fun ws => ∀ w ∈ ws, R.fault? w = none)
  · intro _ parts hWhole ws hws w hw
    exact hWhole w (List.mem_flatten.mpr ⟨ws, hws, hw⟩)
  · intro w ys ws hSpells hMeans hGood
    change ws = [w] at hMeans
    subst hMeans
    exact (fault?_eq_none_iff hSpells.ne_nil).mp
      (hGood w (List.mem_singleton.mpr rfl))
  · intro ws hws w hw
    exact hNone w (List.mem_flatten.mpr ⟨ws, hws, hw⟩)

end Registry

end FilterQuery
