import FilterQuery.Node.Measure
import FilterQuery.Proofs.Query.Derivations

/-
  This file proves what all trees that lexemes can mean have
  in common.

  Key definitions include:
    * `FilterQuery.Registry.Registers`

  Key theorems include:
    * `FilterQuery.Registry.Means.induction`
    * `FilterQuery.Registry.Means.branching`
    * `FilterQuery.Registry.Means.wellFormed`
    * `FilterQuery.Registry.Means.registers`
-/

------------------------------------------------------------
-- Trees Of Derivations
------------------------------------------------------------

namespace FilterQuery

variable {R : Registry}

namespace Node

/-
  A connective above operands makes a tree with a property
  that the operands have and that connectives keep.
-/
theorem connect_induction
    {P : Node → Prop}
    (hLogical :
      ∀ k ns,
        ns ≠ [] → (k = .not ↔ ns.length = 1) →
          (∀ n ∈ ns, P n) → P (.logical k ns))
    (k : Connective)
    {ns : List Node}
    (hSome : ns ≠ [])
    (hNot : k = .not → ns.length = 1)
    (hEach : ∀ n ∈ ns, P n) :
    P (connect k ns) := by
  unfold connect
  split
  · rename_i n
    exact hEach n (List.mem_singleton.mpr rfl)
  · rename_i n
    exact hEach n (List.mem_singleton.mpr rfl)
  · rename_i hAnd hOr
    refine hLogical k ns hSome ⟨hNot, ?_⟩ hEach
    intro hOne
    rcases List.length_eq_one_iff.mp hOne with ⟨n, rfl⟩
    cases k with
    | not => rfl
    | and => exact absurd rfl (hAnd n rfl)
    | or => exact absurd rfl (hOr n rfl)

end Node

namespace Registry

/-
  Every derived tree has a property that comparisons have
  and that connectives keep.
-/
theorem derives_induction
    {P : Node → Prop}
    (hComparison :
      ∀ w n, w.arguments ≠ [] → R.Compares w n → P n)
    (hLogical :
      ∀ k ns,
        ns ≠ [] → (k = .not ↔ ns.length = 1) →
          (∀ n ∈ ns, P n) → P (.logical k ns))
    {rule : Rule}
    {xs : List Lexeme}
    {ns : List Node}
    (hDerives : Derives R.reading rule xs ns) :
    ∀ n ∈ ns, P n := by
  have hSingle :
      ∀ {n : Node}, P n → ∀ m ∈ [n], P m := by
    intro n hn m hm
    rw [List.mem_singleton.mp hm]
    exact hn
  induction hDerives with
  | comparison hSpells hMeans =>
      exact hSingle
        (hComparison _ _ hSpells.ne_nil hMeans)
  | group _ hInside _ ih =>
      exact hSingle
        (Node.connect_induction hLogical .or hInside.ne_nil
          (fun h => nomatch h) ih)
  | negation _ _ hInside _ ih =>
      have hOr :=
        Node.connect_induction hLogical .or hInside.ne_nil
          (fun h => nomatch h) ih
      exact hSingle
        (Node.connect_induction hLogical .not
          (List.cons_ne_nil _ _) (fun _ => rfl)
          (hSingle hOr))
  | oneOperand _ ih =>
      exact ih
  | moreOperands _ _ _ ihFirst ihMore =>
      intro n hn
      rcases List.mem_cons.mp hn with rfl | hLater
      · exact ihFirst _ (List.mem_singleton.mpr rfl)
      · exact ihMore n hLater
  | oneConjunction hInside ih =>
      exact hSingle
        (Node.connect_induction hLogical .and hInside.ne_nil
          (fun h => nomatch h) ih)
  | moreConjunctions hInside _ _ ihFirst ihMore =>
      intro n hn
      rcases List.mem_cons.mp hn with rfl | hLater
      · exact Node.connect_induction hLogical .and
          hInside.ne_nil (fun h => nomatch h) ihFirst
      · exact ihMore n hLater

/- Every tree that is meant has such a property. -/
theorem Means.induction
    {P : Node → Prop}
    (hComparison :
      ∀ w n, w.arguments ≠ [] → R.Compares w n → P n)
    (hLogical :
      ∀ k ns,
        ns ≠ [] → (k = .not ↔ ns.length = 1) →
          (∀ n ∈ ns, P n) → P (.logical k ns))
    {xs : List Lexeme}
    {n : Node}
    (hMeans : R.Means xs n) :
    P n := by
  rcases hMeans with ⟨ns, hDerives, rfl⟩
  exact Node.connect_induction hLogical .or hDerives.ne_nil
    (fun h => nomatch h)
    (derives_induction hComparison hLogical hDerives)

end Registry

end FilterQuery

------------------------------------------------------------
-- Shapes
------------------------------------------------------------

namespace FilterQuery

namespace Registry

variable {R : Registry}
variable {xs : List Lexeme} {n : Node}

/- Conjunctions and disjunctions have several operands. -/
theorem Means.branching
    (hMeans : R.Means xs n) :
    n.Branching := by
  apply hMeans.induction
  · intro w n _ hCompares
    cases hCompares
    exact .comparison _
  · intro k ns hSome hArity hEach
    refine .logical ?_ hEach
    intro hKind
    have hPos := List.length_pos_iff.mpr hSome
    have hMany : ns.length ≠ 1 :=
      fun hOne => hKind (hArity.mpr hOne)
    omega

/- The tree is one that could be made by hand. -/
theorem Means.wellFormed
    (hMeans : R.Means xs n) :
    n.WellFormed := by
  apply hMeans.induction
  · intro w n hArguments hCompares
    cases hCompares with
    | intro hKnown hSelector hArity =>
        exact .comparison ⟨hSelector, hArguments, hArity⟩
  · intro k ns hSome hArity hEach
    exact .logical hSome hArity.mp hEach

/- The registry has each operator of the tree. -/
def Registers
    (R : Registry)
    (n : Node) : Prop :=
  ∀ c ∈ n.comparisons,
    R.get? c.operator.symbol = some c.operator

/- The operators of the tree come from the registry. -/
theorem Means.registers
    (hMeans : R.Means xs n) :
    R.Registers n := by
  apply hMeans.induction
  · intro w n _ hCompares
    cases hCompares with
    | intro hKnown hSelector hArity =>
        intro c hc
        rw [List.mem_singleton.mp hc]
        rw [symbol_of_get? hKnown]
        exact hKnown
  · intro k ns _ _ hEach c hc
    rcases Node.mem_comparisons_logical.mp hc with
      ⟨n, hn, hcn⟩
    exact hEach n hn c hcn

end Registry

end FilterQuery
