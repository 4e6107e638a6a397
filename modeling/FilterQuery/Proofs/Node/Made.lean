import FilterQuery.Proofs.Query.Prefixes
import FilterQuery.Proofs.Query.Trees

/-
  This file proves that all trees that can be made are well
  formed.

  Key definitions include:
    * `FilterQuery.Node.Made`

  Key theorems include:
    * `FilterQuery.Node.Made.wellFormed`
-/

------------------------------------------------------------
-- Parsed Text
------------------------------------------------------------

namespace FilterQuery

/- A query that is parsed has lexemes that mean the tree. -/
theorem Registry.means_of_parse
    {R : Registry}
    {query : String}
    {n : Node}
    (hParse : R.parse query = .ok n) :
    ∃ xs, tokenize query = .ok xs ∧ R.Means xs n := by
  unfold Registry.parse at hParse
  cases hTokens : tokenize query with
  | error e =>
      rw [hTokens] at hParse
      cases hParse
  | ok xs =>
      rw [hTokens] at hParse
      exact ⟨xs, rfl, means_of_parseLexemes hParse⟩

end FilterQuery

------------------------------------------------------------
-- Ways To Make Trees
------------------------------------------------------------

namespace FilterQuery

namespace Node

/-
  Trees that can be had from the functions that make trees,
  in any order.  Other children for a tree are children that
  are joined anew.
-/
inductive Made : Node → Prop
  | ofParts
      {operator : Operator}
      {selector : String}
      {arguments : List String}
      {c : Comparison}
      (hMade :
        Comparison.ofParts operator selector arguments =
          .ok c) :
      Made (.comparison c)
  | ofSymbol
      {R : Registry}
      {symbol selector : String}
      {arguments : List String}
      {c : Comparison}
      (hMade :
        R.comparison symbol selector arguments = .ok c) :
      Made (.comparison c)
  | withOperator
      {operator : Operator}
      {c d : Comparison}
      (hBefore : Made (.comparison c))
      (hMade : c.withOperator operator = .ok d) :
      Made (.comparison d)
  | withArguments
      {arguments : List String}
      {c d : Comparison}
      (hBefore : Made (.comparison c))
      (hMade : c.withArguments arguments = .ok d) :
      Made (.comparison d)
  | ofChildren
      {k : Connective}
      {ns : List Node}
      {n : Node}
      (hEach : ∀ m ∈ ns, Made m)
      (hMade : Node.ofChildren k ns = .ok n) :
      Made n
  | combine
      {k : Connective}
      {ns : List Node}
      {n : Node}
      (hEach : ∀ m ∈ ns, Made m)
      (hMade : Node.combine k ns = .ok n) :
      Made n
  | negate
      {n : Node}
      (hBefore : Made n) :
      Made n.negate
  | child
      {n m : Node}
      (hBefore : Made n)
      (hChild : m ∈ n.children) :
      Made m
  | parse
      {R : Registry}
      {query : String}
      {n : Node}
      (hParse : R.parse query = .ok n) :
      Made n

/- The check of combining is the check of joining. -/
theorem ofChildren_of_combine
    {k : Connective}
    {ns : List Node}
    {n : Node}
    (hMade : combine k ns = .ok n) :
    Node.ofChildren k ns = .ok n := by
  unfold combine at hMade
  split at hMade
  · cases hMade
  · exact hMade

/- The children of a well-formed tree are well formed. -/
theorem WellFormed.children
    {n m : Node}
    (hWhole : n.WellFormed)
    (hChild : m ∈ n.children) :
    m.WellFormed := by
  cases hWhole with
  | comparison _ =>
      cases hChild
  | logical _ _ hChildren =>
      exact hChildren m hChild

/- Every tree that can be made is well formed. -/
theorem Made.wellFormed
    {n : Node}
    (hMade : n.Made) :
    n.WellFormed := by
  induction hMade with
  | ofParts hMade =>
      exact .comparison (Comparison.wellFormed_of_ofParts hMade)
  | ofSymbol hMade =>
      unfold Registry.comparison at hMade
      split at hMade
      · cases hMade
      · exact .comparison
          (Comparison.wellFormed_of_ofParts hMade)
  | withOperator _ hMade _ =>
      exact .comparison (Comparison.wellFormed_of_ofParts hMade)
  | withArguments _ hMade _ =>
      exact .comparison (Comparison.wellFormed_of_ofParts hMade)
  | ofChildren _ hMade ih =>
      exact wellFormed_of_ofChildren ih hMade
  | combine _ hMade ih =>
      exact wellFormed_of_ofChildren ih
        (ofChildren_of_combine hMade)
  | negate _ ih =>
      refine .logical (List.cons_ne_nil _ _) ?_ ?_
      · intro _
        rfl
      · intro m hm
        rw [List.mem_singleton.mp hm]
        exact ih
  | child _ hChild ih =>
      exact ih.children hChild
  | parse hParse =>
      rcases Registry.means_of_parse hParse with
        ⟨xs, _, hMeans⟩
      exact hMeans.wellFormed

end Node

end FilterQuery
