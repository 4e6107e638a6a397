import FilterQuery.Config.Write
import FilterQuery.Node.Walk
import FilterQuery.Proofs.Node.Spelling
import Mathlib

/-
  This file proves how far down a tree the functions go that
  are defined by recursion over trees.

  Key definitions include:
    * `FilterQuery.Recursion`
    * `FilterQuery.Recursion.run`
    * `FilterQuery.Recursion.within`
    * `FilterQuery.Node.FitsWithin`

  Key theorems include:
    * `FilterQuery.Recursion.within_eq`
    * `FilterQuery.Node.fitsWithin_iff`

  A function is such a recursion if its value at a node comes
  from the node and from the values at the children.  With a
  limit the recursion gives up where it would have to go
  further down.
-/

------------------------------------------------------------
-- Recursion
------------------------------------------------------------

namespace FilterQuery

/-
  How a value is found at a comparison, and at a connective
  from the values at its children.
-/
structure Recursion (α : Type) where
  comparison : Comparison → α
  logical : Connective → List Node → List α → α

namespace Recursion

variable {α : Type}

mutual

/- The value at a tree. -/
def run (F : Recursion α) : Node → α
| .comparison c => F.comparison c
| .logical k children =>
    F.logical k children (F.runList children)

/- The values at the trees of a list. -/
def runList (F : Recursion α) : List Node → List α
| [] => []
| n :: ns => F.run n :: F.runList ns

end

/- The value at a tree, going down at most so many levels. -/
def within (F : Recursion α) : Nat → Node → Option α
| 0, _ => none
| _ + 1, .comparison c => some (F.comparison c)
| levels + 1, .logical k children =>
    (children.mapM (F.within levels)).map
      (F.logical k children)

variable {F : Recursion α}

/- The values at a list are those at its trees. -/
theorem runList_eq_map
    (ns : List Node) :
    F.runList ns = ns.map F.run := by
  induction ns with
  | nil =>
      rfl
  | cons n ns ih =>
      rw [runList, ih, List.map_cons]

/- A function with the same equations is the recursion. -/
theorem run_eq
    {f : Node → α}
    (hComparison : ∀ c, f (.comparison c) = F.comparison c)
    (hLogical :
      ∀ k ns, f (.logical k ns) = F.logical k ns (ns.map f))
    (n : Node) :
    F.run n = f n := by
  induction n with
  | comparison c =>
      rw [run, hComparison]
  | logical k ns ih =>
      rw [run, hLogical, runList_eq_map,
        List.map_congr_left ih]

/- Trees of a list are reached if the deepest is. -/
theorem mapM_within
    {levels : Nat}
    {ns : List Node}
    (hEach :
      ∀ n ∈ ns,
        F.within levels n =
          if n.depth ≤ levels then some (F.run n) else none) :
    ns.mapM (F.within levels) =
      if Node.depthList ns ≤ levels then
        some (ns.map F.run)
      else
        none := by
  induction ns with
  | nil =>
      simp [Node.depthList]
  | cons n ns ih =>
      rcases List.forall_mem_cons.mp hEach with
        ⟨hFirst, hMore⟩
      rw [List.mapM_cons, hFirst, ih hMore, Node.depthList]
      by_cases hHead : n.depth ≤ levels
      · by_cases hTail : Node.depthList ns ≤ levels
        · simp [hHead, hTail]
        · simp [hTail]
      · simp [hHead]

/-
  The limit is enough exactly for trees that are no deeper,
  and then it changes nothing.
-/
theorem within_eq
    (n : Node)
    (levels : Nat) :
    F.within levels n =
      if n.depth ≤ levels then some (F.run n) else none := by
  induction n generalizing levels with
  | comparison c =>
      cases levels with
      | zero => rfl
      | succ levels => simp [within, run, Node.depth]
  | logical k ns ih =>
      cases levels with
      | zero =>
          simp [within, Node.depth]
      | succ levels =>
          rw [within, mapM_within fun n hn => ih n hn levels,
            Node.depth, run, runList_eq_map]
          have hDown :
              1 + Node.depthList ns ≤ levels + 1 ↔
                Node.depthList ns ≤ levels := by
            omega
          simp only [hDown]
          split <;> rfl

/- A tree that is not too deep has its value. -/
theorem within_eq_some_iff
    {n : Node}
    {levels : Nat} :
    F.within levels n = some (F.run n) ↔
      n.depth ≤ levels := by
  rw [within_eq, Option.ite_none_right_eq_some,
    and_iff_left rfl]

end Recursion

end FilterQuery

------------------------------------------------------------
-- Functions On Trees
------------------------------------------------------------

namespace FilterQuery

/- The number of nodes of a list is a sum. -/
theorem Node.countList_eq_sum
    (ns : List Node) :
    countList ns = (ns.map count).sum := by
  induction ns with
  | nil =>
      rfl
  | cons n ns ih =>
      rw [countList, ih, List.map_cons, List.sum_cons]

/- The documents of a list are those of its trees. -/
theorem Node.documentList_eq_map
    (ns : List Node) :
    documentList ns = ns.map document := by
  induction ns with
  | nil =>
      rfl
  | cons n ns ih =>
      rw [documentList, ih, List.map_cons]

/- Trees of a list are visited one after the other. -/
theorem Walker.visitList_eq_foldl
    {σ : Type}
    (w : Walker σ)
    (ns : List Node)
    (s : σ) :
    w.visitList ns s =
      (ns.map w.visit).foldl (fun s walk => walk s) s := by
  induction ns generalizing s with
  | nil =>
      rfl
  | cons n ns ih =>
      rw [visitList, ih, List.map_cons, List.foldl_cons]

namespace Recursion

/- The characters of a tree. -/
def rendering : Recursion (List Char) where
  comparison := Comparison.chars
  logical k _ parts :=
    k.opening ++
      (List.intercalate k.symbol.toList parts ++ [')'])

/- The number of nodes of a tree. -/
def counting : Recursion Nat where
  comparison _ := 1
  logical _ _ counts := 1 + counts.sum

/- The document of a tree. -/
def documenting : Recursion Document where
  comparison c := .object [("comparison", c.document)]
  logical k _ documents :=
    .object
      [("logical",
        .object
          [("operator", k.document),
            ("children", .list documents)])]

/- The walk of a walker through a tree. -/
def visiting
    {σ : Type}
    (w : Walker σ) :
    Recursion (σ → σ) where
  comparison c := w.node (.comparison c) (w.comparison c)
  logical k children walks :=
    w.node (.logical k children)
      (w.logical k children fun s =>
        walks.foldl (fun s walk => walk s) s)

/- Rendering is a recursion. -/
theorem run_rendering
    (n : Node) :
    rendering.run n = n.chars := by
  refine run_eq (fun _ => rfl) ?_ n
  intro k ns
  rw [Node.chars, Node.charsList_eq_map]
  rfl

/- Counting is a recursion. -/
theorem run_counting
    (n : Node) :
    counting.run n = n.count := by
  refine run_eq (fun _ => rfl) ?_ n
  intro k ns
  rw [Node.count, Node.countList_eq_sum]
  rfl

/- Writing a document is a recursion. -/
theorem run_documenting
    (n : Node) :
    documenting.run n = n.document := by
  refine run_eq (fun _ => rfl) ?_ n
  intro k ns
  rw [Node.document, Node.documentList_eq_map]
  rfl

/- Visiting is a recursion. -/
theorem run_visiting
    {σ : Type}
    (w : Walker σ)
    (n : Node) :
    (visiting w).run n = w.visit n := by
  refine run_eq (fun _ => ?_) ?_ n
  · funext s
    rw [Walker.visit]
    rfl
  · intro k ns
    funext s
    rw [Walker.visit, funext (w.visitList_eq_foldl ns)]
    rfl

end Recursion

end FilterQuery

------------------------------------------------------------
-- Limits
------------------------------------------------------------

namespace FilterQuery

namespace Node

/-
  To render the tree, to count its nodes, to write it as a
  document and to visit it, it is enough to go down so many
  levels.
-/
structure FitsWithin
    (levels : Nat)
    (n : Node) : Prop where
  rendering :
    Recursion.rendering.within levels n = some n.chars
  counting :
    Recursion.counting.within levels n = some n.count
  documenting :
    Recursion.documenting.within levels n = some n.document
  visiting :
    ∀ (σ : Type) (w : Walker σ),
      (Recursion.visiting w).within levels n =
        some (w.visit n)

/- It is enough to go down as many levels as the tree has. -/
theorem fitsWithin_iff
    {levels : Nat}
    {n : Node} :
    n.FitsWithin levels ↔ n.depth ≤ levels := by
  constructor
  · intro hFits
    have hRendering := hFits.rendering
    rw [← Recursion.run_rendering] at hRendering
    exact Recursion.within_eq_some_iff.mp hRendering
  · intro hDepth
    refine ⟨?_, ?_, ?_, ?_⟩
    · rw [← Recursion.run_rendering]
      exact Recursion.within_eq_some_iff.mpr hDepth
    · rw [← Recursion.run_counting]
      exact Recursion.within_eq_some_iff.mpr hDepth
    · rw [← Recursion.run_documenting]
      exact Recursion.within_eq_some_iff.mpr hDepth
    · intro σ w
      rw [← Recursion.run_visiting]
      exact Recursion.within_eq_some_iff.mpr hDepth

end Node

end FilterQuery
