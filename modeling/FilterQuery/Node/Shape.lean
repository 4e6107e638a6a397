import FilterQuery.Node.Basic

/-
  This file defines which query trees are well formed, and
  which of them a query can mean.

  Key definitions include:
    * `FilterQuery.Comparison.WellFormed`
    * `FilterQuery.Node.WellFormed`
    * `FilterQuery.Node.Branching`
    * `FilterQuery.Node.collapse`

  Key theorems include:
    * `FilterQuery.Comparison.wellFormed_of_ofParts`
    * `FilterQuery.Node.wellFormed_of_ofChildren`

  The functions that make trees make well-formed ones from
  well-formed parts.  A well-formed tree may still have a
  conjunction or disjunction of one operand, which no query
  means; `collapse` leaves these out.
-/

------------------------------------------------------------
-- Well-Formed Trees
------------------------------------------------------------

namespace FilterQuery

/-
  A comparison with a selector that is not blank and with
  arguments, of which there may be several only for a
  many-valued operator.
-/
structure Comparison.WellFormed (c : Comparison) : Prop where
  selector : Text.isBlankText c.selector = false
  arguments : c.arguments ≠ []
  arity :
    c.operator.multiValue = true ∨ c.arguments.length = 1

/-
  A tree of well-formed comparisons in which every connective
  has children, and NOT has exactly one.
-/
inductive Node.WellFormed : Node → Prop
  | comparison
      {c : Comparison}
      (hComparison : c.WellFormed) :
      Node.WellFormed (.comparison c)
  | logical
      {k : Connective}
      {children : List Node}
      (hSome : children ≠ [])
      (hNot : k = .not → children.length = 1)
      (hChildren : ∀ n ∈ children, n.WellFormed) :
      Node.WellFormed (.logical k children)

/-
  A tree in which every conjunction and disjunction has at
  least two operands.
-/
inductive Node.Branching : Node → Prop
  | comparison
      (c : Comparison) :
      Node.Branching (.comparison c)
  | logical
      {k : Connective}
      {children : List Node}
      (hMany : k ≠ .not → 2 ≤ children.length)
      (hChildren : ∀ n ∈ children, n.Branching) :
      Node.Branching (.logical k children)

end FilterQuery

------------------------------------------------------------
-- Making Well-Formed Trees
------------------------------------------------------------

namespace FilterQuery

/- A comparison made from its parts is well formed. -/
theorem Comparison.wellFormed_of_ofParts
    {operator : Operator}
    {selector : String}
    {arguments : List String}
    {c : Comparison}
    (hMade : ofParts operator selector arguments = .ok c) :
    c.WellFormed := by
  unfold ofParts at hMade
  split at hMade
  · simp at hMade
  · rename_i hBlank
    split at hMade
    · simp at hMade
    · rename_i hSome
      split at hMade
      · simp at hMade
      · rename_i hFew
        simp only [Except.ok.injEq] at hMade
        subst hMade
        refine ⟨by simpa using hBlank, hSome, ?_⟩
        have hPos := List.length_pos_iff.mpr hSome
        by_cases hMulti : operator.multiValue = true
        · exact Or.inl hMulti
        · simp only [Bool.not_eq_true] at hMulti
          have hLe : ¬ 1 < arguments.length :=
            fun h => hFew ⟨hMulti, h⟩
          exact Or.inr
            (show arguments.length = 1 by omega)

/- Joining well-formed children makes a well-formed tree. -/
theorem Node.wellFormed_of_ofChildren
    {k : Connective}
    {children : List Node}
    {n : Node}
    (hChildren : ∀ m ∈ children, m.WellFormed)
    (hMade : ofChildren k children = .ok n) :
    n.WellFormed := by
  unfold ofChildren at hMade
  split at hMade
  · simp at hMade
  · rename_i hSome
    split at hMade
    · simp at hMade
    · rename_i hArity
      simp only [Except.ok.injEq] at hMade
      subst hMade
      refine .logical ?_ ?_ hChildren
      · intro hNil
        exact hSome (by simp [hNil])
      · intro hNot
        by_cases hOne : children.length = 1
        · exact hOne
        · exact absurd ⟨hNot, hOne⟩ hArity

end FilterQuery

------------------------------------------------------------
-- Collapsing
------------------------------------------------------------

namespace FilterQuery

namespace Node

mutual

/-
  Replace every conjunction and disjunction of one operand by
  that operand.
-/
def collapse : Node → Node
| .comparison c => .comparison c
| .logical k children =>
    connect k (collapseList children)

/- Collapse each tree of a list. -/
def collapseList : List Node → List Node
| [] => []
| n :: ns => n.collapse :: collapseList ns

end

/- Collapsing a list collapses each of its trees. -/
theorem collapseList_eq_map
    (ns : List Node) :
    collapseList ns = ns.map collapse := by
  induction ns with
  | nil =>
      rfl
  | cons n ns ih =>
      simp [collapseList, ih]

/- Nothing is collapsed where there is enough branching. -/
theorem collapse_of_branching
    {n : Node}
    (hBranching : n.Branching) :
    n.collapse = n := by
  induction n with
  | comparison c =>
      rfl
  | logical k children ih =>
      cases hBranching with
      | logical hMany hChildren =>
          have hSame : collapseList children = children := by
            have hId : children.map collapse = children.map id :=
              List.map_congr_left fun m hm =>
                ih m hm (hChildren m hm)
            rw [collapseList_eq_map, hId, List.map_id]
          rw [collapse, hSame]
          cases k with
          | not =>
              rfl
          | and | or =>
              have hTwo := hMany (by decide)
              unfold connect
              split <;> simp_all

end Node

end FilterQuery
