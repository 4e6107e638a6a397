import FilterQuery.Proofs.Operator.Registration
import FilterQuery.Proofs.Query.RoundTrip

/-
  This file proves which trees over the operators of a
  registry can be written as queries.

  Key definitions include:
    * `FilterQuery.Node.BuiltOver`

  Key theorems include:
    * `FilterQuery.Node.comparisons_collapse`
    * `FilterQuery.Node.BuiltOver.registers`
    * `FilterQuery.Registry.parse_render_of_builtOver`
    * `FilterQuery.Registry.lone_operand_not_restored`

  A connective can be put above a single operand by hand, but
  its text is the operand in parentheses, and parentheses have
  no node of their own.  So exactly the trees without such
  connectives are trees of queries.
-/

------------------------------------------------------------
-- Building Over A Registry
------------------------------------------------------------

namespace FilterQuery

namespace Node

/-
  Trees that can be built from comparisons with operators of
  the registry by joining, negating and giving other children
  to a tree built before.
-/
inductive BuiltOver (R : Registry) : Node → Prop
  | ofParts
      {operator : Operator}
      {selector : String}
      {arguments : List String}
      {c : Comparison}
      (hMember : operator ∈ R.operators)
      (hMade :
        Comparison.ofParts operator selector arguments =
          .ok c) :
      BuiltOver R (.comparison c)
  | ofChildren
      {k : Connective}
      {ns : List Node}
      {n : Node}
      (hEach : ∀ m ∈ ns, BuiltOver R m)
      (hMade : Node.ofChildren k ns = .ok n) :
      BuiltOver R n
  | negate
      {n : Node}
      (hBefore : BuiltOver R n) :
      BuiltOver R n.negate
  | withChildren
      {k : Connective}
      {before ns : List Node}
      {n : Node}
      (hBefore : BuiltOver R (.logical k before))
      (hEach : ∀ m ∈ ns, BuiltOver R m)
      (hMade : Node.ofChildren k ns = .ok n) :
      BuiltOver R n

variable {R : Registry} {n : Node}

/- Joining children puts the connective above them. -/
theorem eq_logical_of_ofChildren
    {k : Connective}
    {ns : List Node}
    (hMade : Node.ofChildren k ns = .ok n) :
    n = .logical k ns := by
  unfold Node.ofChildren at hMade
  split at hMade
  · cases hMade
  · split at hMade
    · cases hMade
    · cases hMade
      rfl

/- The registry has the operators of joined trees. -/
theorem registers_of_ofChildren
    {k : Connective}
    {ns : List Node}
    (hEach : ∀ m ∈ ns, R.Registers m)
    (hMade : Node.ofChildren k ns = .ok n) :
    R.Registers n := by
  intro c hc
  rw [eq_logical_of_ofChildren hMade,
    mem_comparisons_logical] at hc
  rcases hc with ⟨m, hm, hcm⟩
  exact hEach m hm c hcm

namespace BuiltOver

/- A tree built over a registry is a tree that can be made. -/
theorem made
    (hBuilt : n.BuiltOver R) :
    n.Made := by
  induction hBuilt with
  | ofParts _ hMade => exact .ofParts hMade
  | ofChildren _ hMade ih => exact .ofChildren ih hMade
  | negate _ ih => exact .negate ih
  | withChildren _ _ hMade _ ih => exact .ofChildren ih hMade

/- The registry has the operators of a tree built over it. -/
theorem registers
    (hBuilt : n.BuiltOver R) :
    R.Registers n := by
  induction hBuilt with
  | ofParts hMember hMade =>
      intro c hc
      rw [List.mem_singleton.mp hc]
      rw [(Comparison.ofParts_eq_ok_iff.mp hMade).2]
      exact Registry.get?_eq_some_iff_mem.mpr ⟨hMember, rfl⟩
  | ofChildren _ hMade ih =>
      exact registers_of_ofChildren ih hMade
  | negate _ ih =>
      exact registers_of_ofChildren (k := .not)
        (List.forall_mem_singleton.mpr ih) rfl
  | withChildren _ _ hMade _ ih =>
      exact registers_of_ofChildren ih hMade

end BuiltOver

end Node

end FilterQuery

------------------------------------------------------------
-- Collapsing Over A Registry
------------------------------------------------------------

namespace FilterQuery

/- Leaving out a connective keeps the comparisons. -/
theorem Node.comparisons_connect
    (k : Connective)
    (ns : List Node) :
    (connect k ns).comparisons = comparisonsList ns := by
  unfold connect
  split
  · exact (List.append_nil _).symm
  · exact (List.append_nil _).symm
  · rfl

/- Collapsing keeps the comparisons and their order. -/
theorem Node.comparisons_collapse
    (n : Node) :
    n.collapse.comparisons = n.comparisons := by
  induction n with
  | comparison c =>
      rfl
  | logical k ns ih =>
      rw [collapse, comparisons_connect,
        collapseList_eq_map, comparisons,
        comparisonsList_eq_flatMap, comparisonsList_eq_flatMap,
        List.flatMap_map]
      exact congrArg List.flatten (List.map_congr_left ih)

/-
  A well-formed tree that collapsing does not change has
  enough branching.
-/
theorem Node.collapse_eq_self_iff
    {n : Node}
    (hWhole : n.WellFormed) :
    n.collapse = n ↔ n.Branching := by
  constructor
  · intro hSame
    exact branching_of_count_collapse hWhole (by rw [hSame])
  · exact collapse_of_branching

namespace Registry

variable {R : Registry} {n : Node}

/- A registry supports well-formed trees of its operators. -/
theorem supports_of_registers
    (hWhole : n.WellFormed)
    (hRegisters : R.Registers n) :
    R.Supports n := by
  induction n with
  | comparison c =>
      cases hWhole with
      | comparison hComparison =>
          intro d hd
          have hKnown := hRegisters d hd
          rw [List.mem_singleton.mp hd] at hKnown ⊢
          exact ⟨_, hKnown, hComparison.arity⟩
  | logical k ns ih =>
      cases hWhole with
      | logical hSome hNot hChildren =>
          intro d hd
          rcases Node.mem_comparisons_logical.mp hd with
            ⟨m, hm, hdm⟩
          refine ih m hm (hChildren m hm) ?_ d hdm
          intro c hc
          apply hRegisters
          exact Node.mem_comparisons_logical.mpr ⟨m, hm, hc⟩

/- Collapsing keeps the operators of a tree. -/
theorem registers_collapse
    (hRegisters : R.Registers n) :
    R.Registers n.collapse := by
  unfold Registers
  rw [Node.comparisons_collapse]
  exact hRegisters

/- The text of a tree is parsed into the tree, collapsed. -/
theorem parse_render_of_registers
    (hWhole : n.WellFormed)
    (hRegisters : R.Registers n) :
    R.parse n.render = .ok n.collapse := by
  have hSupports := supports_of_registers hWhole hRegisters
  rw [parse_render hWhole hSupports,
    resolve_of_registers (registers_collapse hRegisters)]

/- A parsed tree has enough branching. -/
theorem branching_of_parse
    {query : String}
    (hParse : R.parse query = .ok n) :
    n.Branching := by
  rcases means_of_parse hParse with ⟨xs, _, hMeans⟩
  exact hMeans.branching

end Registry

end FilterQuery

------------------------------------------------------------
-- Trees Of Queries
------------------------------------------------------------

namespace FilterQuery

namespace Registry

/-
  The text of a tree built over the operators of a registry is
  parsed into that tree without the conjunctions and
  disjunctions of one operand.  If there are none, the same
  tree is read back, and only then is there any query for it.
-/
theorem parse_render_of_builtOver
    {R : Registry}
    {n : Node}
    (hBuilt : n.BuiltOver R) :
    R.parse n.render = .ok n.collapse ∧
      (R.parse n.render = .ok n ↔ n.Branching) ∧
      (n.collapse.same n = true ↔ n.Branching) ∧
      ((∃ query, R.parse query = .ok n) ↔ n.Branching) := by
  have hWhole := hBuilt.made.wellFormed
  have hRegisters := hBuilt.registers
  have hParse := parse_render_of_registers hWhole hRegisters
  have hRestored :
      R.parse n.render = .ok n ↔ n.Branching := by
    rw [hParse, Except.ok.injEq,
      Node.collapse_eq_self_iff hWhole]
  have hSame : n.collapse.same n = true ↔ n.Branching := by
    rw [← resolve_of_registers (registers_collapse hRegisters)]
    exact same_resolve_collapse_iff hWhole
  refine ⟨hParse, hRestored, hSame, ?_⟩
  constructor
  · rintro ⟨query, hQuery⟩
    exact branching_of_parse hQuery
  · intro hBranching
    exact ⟨n.render, hRestored.mpr hBranching⟩

/- The conjunction of two comparisons is read back, negated. -/
theorem parse_render_of_builtOver_sample :
    ∃ c : Comparison,
      (Node.logical .and
        [.comparison c, .comparison c]).negate.BuiltOver
          basic ∧
        basic.parse
            (Node.logical .and
              [.comparison c, .comparison c]).negate.render =
          .ok
            (Node.logical .and
              [.comparison c, .comparison c]).negate := by
  have hParts :
      Comparison.ofParts Builtin.equal.operator "a" ["1"] =
        .ok ⟨Builtin.equal.operator, "a", ["1"]⟩ :=
    rfl
  have hLeaf := Node.BuiltOver.ofParts (R := basic)
    List.mem_cons_self hParts
  have hBoth :=
    Node.BuiltOver.ofChildren (k := .and)
      (List.forall_mem_cons.mpr
        ⟨hLeaf, List.forall_mem_singleton.mpr hLeaf⟩)
      rfl
  have hBuilt := Node.BuiltOver.negate hBoth
  have hBranching :=
    (Node.collapse_eq_self_iff hBuilt.made.wellFormed).mp rfl
  exact ⟨_, hBuilt,
    (parse_render_of_builtOver hBuilt).2.1.mpr hBranching⟩

/-
  The conjunction of a single comparison can be built, but
  what is read back from its text is the bare comparison.
-/
theorem lone_operand_not_restored :
    ∃ n m : Node,
      n.BuiltOver basic ∧
        basic.parse n.render = .ok m ∧
        m.same n ≠ true := by
  have hParts :
      Comparison.ofParts Builtin.equal.operator "a" ["1"] =
        .ok ⟨Builtin.equal.operator, "a", ["1"]⟩ :=
    rfl
  have hLeaf := Node.BuiltOver.ofParts (R := basic)
    List.mem_cons_self hParts
  have hBuilt :=
    Node.BuiltOver.ofChildren (k := .and)
      (List.forall_mem_singleton.mpr hLeaf) rfl
  exact ⟨_, _, hBuilt,
    parse_render_of_registers hBuilt.made.wellFormed
      hBuilt.registers,
    nofun⟩

end Registry

end FilterQuery
