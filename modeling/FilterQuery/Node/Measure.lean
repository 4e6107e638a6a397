import FilterQuery.Node.Basic

/-
  This file defines the sizes of query trees and the order of
  their comparisons.

  Key definitions include:
    * `FilterQuery.Node.count`
    * `FilterQuery.Node.depth`
    * `FilterQuery.Node.comparisons`
-/

------------------------------------------------------------
-- Number Of Nodes
------------------------------------------------------------

namespace FilterQuery

namespace Node

mutual

/- The number of nodes of a tree. -/
def count : Node → Nat
| .comparison _ => 1
| .logical _ children => 1 + countList children

/- The number of nodes of a list of trees. -/
def countList : List Node → Nat
| [] => 0
| n :: ns => n.count + countList ns

end

end Node

end FilterQuery

------------------------------------------------------------
-- Depth
------------------------------------------------------------

namespace FilterQuery

namespace Node

mutual

/- The number of nodes on the longest way down. -/
def depth : Node → Nat
| .comparison _ => 1
| .logical _ children => 1 + depthList children

/- The depth of the deepest tree of a list. -/
def depthList : List Node → Nat
| [] => 0
| n :: ns => max n.depth (depthList ns)

end

end Node

end FilterQuery

------------------------------------------------------------
-- Comparisons
------------------------------------------------------------

namespace FilterQuery

namespace Node

mutual

/- The comparisons of a tree from left to right. -/
def comparisons : Node → List Comparison
| .comparison c => [c]
| .logical _ children => comparisonsList children

/- The comparisons of a list of trees, tree after tree. -/
def comparisonsList : List Node → List Comparison
| [] => []
| n :: ns => n.comparisons ++ comparisonsList ns

end

/- The comparisons of a list are those of its trees. -/
theorem comparisonsList_eq_flatMap
    (ns : List Node) :
    comparisonsList ns = ns.flatMap comparisons := by
  induction ns with
  | nil =>
      rfl
  | cons n ns ih =>
      simp [comparisonsList, ih]

/- A comparison below a connective is one of a child. -/
theorem mem_comparisons_logical
    {c : Comparison}
    {k : Connective}
    {ns : List Node} :
    c ∈ (logical k ns).comparisons ↔
      ∃ n ∈ ns, c ∈ n.comparisons := by
  rw [comparisons, comparisonsList_eq_flatMap]
  exact List.mem_flatMap

end Node

end FilterQuery
