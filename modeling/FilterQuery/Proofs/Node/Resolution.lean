import FilterQuery.Node.Equality
import FilterQuery.Node.Shape
import FilterQuery.Proofs.Query.Trees

/-
  This file compares a tree with the tree that is read back
  from its text.

  Key definitions include:
    * `FilterQuery.Registry.resolve`

  Key theorems include:
    * `FilterQuery.Registry.same_resolve`
    * `FilterQuery.Registry.resolve_of_registers`
    * `FilterQuery.Node.count_of_same`
    * `FilterQuery.Node.branching_of_count_collapse`
    * `FilterQuery.Registry.same_resolve_collapse_iff`

  Reading back replaces operators by those of the registry,
  which have the same symbols, and leaves out conjunctions
  and disjunctions of one operand, which makes the tree
  smaller.
-/

------------------------------------------------------------
-- Operators Of A Registry
------------------------------------------------------------

namespace FilterQuery

namespace Registry

/-
  The operator that the registry has for the symbol of the
  operator, if there is one.
-/
def resolveOperator
    (R : Registry)
    (operator : Operator) :
    Operator :=
  (R.get? operator.symbol).getD operator

/-
  The comparison with the operator that the registry has for
  its symbol, if there is one.
-/
def resolveComparison
    (R : Registry)
    (c : Comparison) :
    Comparison :=
  { c with operator := R.resolveOperator c.operator }

mutual

/- The tree with the operators of the registry. -/
def resolve
    (R : Registry) :
    Node → Node
| .comparison c => .comparison (R.resolveComparison c)
| .logical k children =>
    .logical k (resolveList R children)

/- Each tree of a list with the operators of the registry. -/
def resolveList
    (R : Registry) :
    List Node → List Node
| [] => []
| n :: ns => resolve R n :: resolveList R ns

end

variable {R : Registry}

/- Resolving a list resolves each of its trees. -/
theorem resolveList_eq_map
    (ns : List Node) :
    R.resolveList ns = ns.map R.resolve := by
  induction ns with
  | nil =>
      rfl
  | cons n ns ih =>
      rw [resolveList, ih, List.map_cons]

/- The operator of the registry has the same symbol. -/
theorem symbol_resolveOperator
    (operator : Operator) :
    (R.resolveOperator operator).symbol = operator.symbol := by
  unfold resolveOperator
  cases hKnown : R.get? operator.symbol with
  | none => rfl
  | some other => exact symbol_of_get? hKnown

/- An operator is resolved to the one that is found. -/
theorem get?_resolveOperator
    {operator : Operator}
    (hKnown : R.contains operator.symbol = true) :
    R.get? operator.symbol =
      some (R.resolveOperator operator) := by
  rcases (R.contains_iff_get? _).mp hKnown with ⟨other, hGet⟩
  unfold resolveOperator
  rw [hGet]
  rfl

/- The comparison of the registry has the same symbol. -/
theorem symbol_resolveComparison
    (c : Comparison) :
    (R.resolveComparison c).operator.symbol =
      c.operator.symbol :=
  symbol_resolveOperator c.operator

/- Resolving a tree leaves the same tree. -/
theorem same_resolve
    (n : Node) :
    (R.resolve n).same n = true := by
  induction n with
  | comparison c =>
      have hSymbol := symbol_resolveComparison (R := R) c
      simp only [resolve, Node.same, Comparison.same,
        Operator.same, hSymbol]
      simp [resolveComparison]
  | logical k ns ih =>
      rw [resolve, Node.same, beq_self_eq_true, Bool.true_and]
      induction ns with
      | nil =>
          rfl
      | cons n ns ihList =>
          have hFirst := ih n List.mem_cons_self
          have hMore := ihList fun m hm =>
            ih m (List.mem_cons_of_mem _ hm)
          rw [resolveList, Node.sameList, hFirst, hMore]
          rfl

/- A tree with registered operators resolves to itself. -/
theorem resolve_of_registers
    {n : Node}
    (hRegisters : R.Registers n) :
    R.resolve n = n := by
  induction n with
  | comparison c =>
      have hKnown := hRegisters c (List.mem_singleton.mpr rfl)
      rw [resolve, resolveComparison, resolveOperator, hKnown]
      rfl
  | logical k ns ih =>
      have hEach : ns.map R.resolve = ns.map id := by
        apply List.map_congr_left
        intro m hm
        apply ih m hm
        intro c hc
        apply hRegisters c
        exact Node.mem_comparisons_logical.mpr ⟨m, hm, hc⟩
      rw [resolve, resolveList_eq_map, hEach, List.map_id]

end Registry

end FilterQuery

------------------------------------------------------------
-- Sizes
------------------------------------------------------------

namespace FilterQuery

namespace Node

/- Lists of trees that are the same have the same size. -/
theorem countList_of_sameList
    {ns ms : List Node}
    (hEach :
      ∀ n ∈ ns, ∀ m, n.same m = true → n.count = m.count)
    (hSame : sameList ns ms = true) :
    countList ns = countList ms := by
  induction ns generalizing ms with
  | nil =>
      cases ms with
      | nil => rfl
      | cons m ms => cases hSame
  | cons n ns ih =>
      cases ms with
      | nil => cases hSame
      | cons m ms =>
          rw [sameList, Bool.and_eq_true] at hSame
          have hFirst :=
            hEach n List.mem_cons_self m hSame.1
          have hMore :=
            ih
              (fun p hp => hEach p (List.mem_cons_of_mem _ hp))
              hSame.2
          rw [countList, countList, hFirst, hMore]

/- Trees that are the same have the same size. -/
theorem count_of_same
    {n m : Node}
    (hSame : n.same m = true) :
    n.count = m.count := by
  induction n generalizing m with
  | comparison c =>
      cases m with
      | comparison d => rfl
      | logical l ms => cases hSame
  | logical k ns ih =>
      cases m with
      | comparison d => cases hSame
      | logical l ms =>
          rw [same, Bool.and_eq_true] at hSame
          have hList :=
            countList_of_sameList (fun n hn m => ih n hn)
              hSame.2
          rw [count, count, hList]

/-
  Putting trees below a connective and leaving it out if it
  has one operand adds at most one node.
-/
theorem count_connect_le
    (k : Connective)
    (ns : List Node) :
    (connect k ns).count ≤ 1 + countList ns := by
  unfold connect
  split
  · rw [countList, countList]
    omega
  · rw [countList, countList]
    omega
  · exact Nat.le_refl _

/- Trees that get no larger do not get larger together. -/
theorem countList_collapseList_le
    {ns : List Node}
    (hEach : ∀ n ∈ ns, n.collapse.count ≤ n.count) :
    countList (collapseList ns) ≤ countList ns := by
  induction ns with
  | nil =>
      exact Nat.le_refl _
  | cons n ns ih =>
      have hFirst := hEach n List.mem_cons_self
      have hMore := ih fun m hm =>
        hEach m (List.mem_cons_of_mem _ hm)
      rw [collapseList, countList, countList]
      omega

/- Collapsing makes no tree larger. -/
theorem count_collapse_le
    (n : Node) :
    n.collapse.count ≤ n.count := by
  induction n with
  | comparison c =>
      exact Nat.le_refl _
  | logical k ns ih =>
      have hList := countList_collapseList_le ih
      have hRoot := count_connect_le k (collapseList ns)
      rw [collapse, count]
      omega

/-
  Trees of a list that do not get smaller together do not get
  smaller one by one.
-/
theorem count_collapse_of_countList
    {ns : List Node}
    (hList : countList (collapseList ns) = countList ns) :
    ∀ n ∈ ns, n.collapse.count = n.count := by
  induction ns with
  | nil =>
      intro n hn
      cases hn
  | cons n ns ih =>
      have hFirst := count_collapse_le n
      have hMore :
          countList (collapseList ns) ≤ countList ns :=
        countList_collapseList_le fun m _ =>
          count_collapse_le m
      rw [collapseList, countList, countList] at hList
      intro m hm
      rcases List.mem_cons.mp hm with rfl | hLater
      · omega
      · apply ih
        · omega
        · exact hLater

/-
  A well-formed tree that collapsing does not make smaller
  has enough branching.
-/
theorem branching_of_count_collapse
    {n : Node}
    (hWhole : n.WellFormed)
    (hCount : n.collapse.count = n.count) :
    n.Branching := by
  induction n with
  | comparison c =>
      exact .comparison c
  | logical k ns ih =>
      cases hWhole with
      | logical hSome hNot hChildren =>
          have hLe :
              countList (collapseList ns) ≤ countList ns :=
            countList_collapseList_le fun m _ =>
              count_collapse_le m
          have hRoot :=
            count_connect_le k (collapseList ns)
          rw [collapse, count] at hCount
          have hList :
              countList (collapseList ns) = countList ns := by
            omega
          have hEach := count_collapse_of_countList hList
          refine .logical ?_ fun m hm =>
            ih m hm (hChildren m hm) (hEach m hm)
          intro hKind
          have hPos := List.length_pos_iff.mpr hSome
          -- A single operand would have lost its connective.
          have hMany : ns.length ≠ 1 := by
            intro hOne
            rcases List.length_eq_one_iff.mp hOne with
              ⟨m, rfl⟩
            have hChild := count_collapse_le m
            have hAlone :
                connect k (collapseList [m]) =
                  m.collapse := by
              cases k with
              | not => exact absurd rfl hKind
              | and | or => rfl
            rw [hAlone, countList, countList] at hCount
            omega
          omega

end Node

/-
  What is read back is the same tree exactly if no
  conjunction or disjunction has one operand.
-/
theorem Registry.same_resolve_collapse_iff
    {R : Registry}
    {n : Node}
    (hWhole : n.WellFormed) :
    (R.resolve n.collapse).same n = true ↔ n.Branching := by
  constructor
  · intro hSame
    apply Node.branching_of_count_collapse hWhole
    have hRead := Node.count_of_same hSame
    have hResolved :=
      Node.count_of_same (R.same_resolve n.collapse)
    omega
  · intro hBranching
    rw [Node.collapse_of_branching hBranching]
    exact same_resolve n

end FilterQuery
