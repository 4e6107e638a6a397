import FilterQuery.Bench
import FilterQuery.Proofs.Node.Soundness
import Mathlib

/-
  This file proves that every tree at hand is sound at every
  depth, in whatever order trees were made.

  Key definitions include:
    * `FilterQuery.Bench.Reachable`

  Key theorems include:
    * `FilterQuery.Bench.made_of_make`
    * `FilterQuery.Bench.step_cases`
    * `FilterQuery.Bench.Reachable.run`
    * `FilterQuery.Bench.Reachable.made`
    * `FilterQuery.Bench.reachable_sound`

  A step makes a tree that can be made, if the trees before
  it can; so all trees of a bench are well formed.
-/

------------------------------------------------------------
-- Results
------------------------------------------------------------

namespace FilterQuery

variable {ε ε' α β : Type}

/- A result of two steps is a result of the second. -/
theorem ok_of_bind
    {x : Except ε α}
    {f : α → Except ε β}
    {b : β}
    (hResult : x >>= f = .ok b) :
    ∃ a, x = .ok a ∧ f a = .ok b := by
  cases x with
  | error e => cases hResult
  | ok a => exact ⟨a, rfl, hResult⟩

/- Renaming errors keeps results. -/
theorem ok_of_mapError
    {x : Except ε α}
    {f : ε → ε'}
    {a : α}
    (hResult : x.mapError f = .ok a) :
    x = .ok a := by
  cases x with
  | error e => cases hResult
  | ok b =>
      cases hResult
      rfl

/- A mapped result comes from a result. -/
theorem ok_of_map
    {x : Except ε α}
    {f : α → β}
    {b : β}
    (hResult : x.map f = .ok b) :
    ∃ a, x = .ok a ∧ f a = b := by
  cases x with
  | error e => cases hResult
  | ok a =>
      cases hResult
      exact ⟨a, rfl, rfl⟩

/- Each result of a list comes from one of the list. -/
theorem ok_of_mapM
    {f : α → Except ε β}
    {as : List α}
    {bs : List β}
    (hResult : as.mapM f = .ok bs) :
    ∀ b ∈ bs, ∃ a, f a = .ok b := by
  induction as generalizing bs with
  | nil =>
      cases hResult
      exact List.forall_mem_nil _
  | cons a as ih =>
      rw [List.mapM_cons] at hResult
      rcases ok_of_bind hResult with ⟨b, hFirst, hMore⟩
      rcases ok_of_bind hMore with ⟨cs, hRest, hAll⟩
      cases hAll
      exact List.forall_mem_cons.mpr ⟨⟨a, hFirst⟩, ih hRest⟩

end FilterQuery

------------------------------------------------------------
-- Benches
------------------------------------------------------------

namespace FilterQuery

namespace Bench

variable {R : Registry}
variable {bench : Bench}
variable {n : Node}

/- A tree with a number is a tree of the bench. -/
theorem mem_of_node
    {index : Nat}
    (hNode : bench.node index = .ok n) :
    n ∈ bench.nodes := by
  unfold node at hNode
  split at hNode
  · rename_i hIndex
    cases hNode
    exact List.mem_of_getElem? hIndex
  · cases hNode

/- So is a comparison with a number. -/
theorem mem_of_comparison
    {index : Nat}
    {c : Comparison}
    (hNode : bench.comparison index = .ok c) :
    .comparison c ∈ bench.nodes := by
  rcases ok_of_bind hNode with ⟨n, hMem, hRoot⟩
  cases n with
  | comparison d =>
      cases hRoot
      exact mem_of_node hMem
  | logical k ns => cases hRoot

/- So is a tree with a connective. -/
theorem mem_of_logical
    {index : Nat}
    {k : Connective}
    {ns : List Node}
    (hNode : bench.logical index = .ok (k, ns)) :
    .logical k ns ∈ bench.nodes := by
  rcases ok_of_bind hNode with ⟨n, hMem, hRoot⟩
  cases n with
  | comparison d => cases hRoot
  | logical l ms =>
      cases hRoot
      exact mem_of_node hMem

/- So are trees with numbers. -/
theorem mem_of_mapM
    {indices : List Nat}
    {ns : List Node}
    (hNodes : indices.mapM bench.node = .ok ns) :
    ∀ n ∈ ns, n ∈ bench.nodes := by
  intro n hn
  rcases ok_of_mapM hNodes n hn with ⟨index, hNode⟩
  exact mem_of_node hNode

/-
  A step makes a tree that can be made, if the trees before
  it can.
-/
theorem made_of_make
    {making : Making}
    (hBefore : ∀ m ∈ bench.nodes, m.Made)
    (hMake : bench.make R making = .ok n) :
    n.Made := by
  cases making with
  | parse query =>
      exact .parse (ok_of_mapError hMake)
  | resolve symbol selector arguments =>
      rcases ok_of_map (ok_of_mapError hMake) with
        ⟨c, hMade, rfl⟩
      exact .ofSymbol hMade
  | combine k indices =>
      rcases ok_of_bind hMake with ⟨ns, hNodes, hMade⟩
      exact .combine
        (fun m hm => hBefore m (mem_of_mapM hNodes m hm))
        (ok_of_mapError hMade)
  | compare definition selector arguments =>
      rcases ok_of_bind hMake with ⟨op, _, hRest⟩
      rcases ok_of_map (ok_of_mapError hRest) with
        ⟨c, hMade, rfl⟩
      exact .ofParts hMade
  | join k indices =>
      rcases ok_of_bind hMake with ⟨ns, hNodes, hMade⟩
      exact .ofChildren
        (fun m hm => hBefore m (mem_of_mapM hNodes m hm))
        (ok_of_mapError hMade)
  | negate index =>
      rcases ok_of_bind hMake with ⟨m, hNode, hMade⟩
      cases hMade
      exact .negate (hBefore m (mem_of_node hNode))
  | withOperator index definition =>
      rcases ok_of_bind hMake with ⟨c, hNode, hRest⟩
      rcases ok_of_bind hRest with ⟨op, _, hLast⟩
      rcases ok_of_map (ok_of_mapError hLast) with
        ⟨d, hMade, rfl⟩
      exact .withOperator
        (hBefore _ (mem_of_comparison hNode)) hMade
  | withArguments index arguments =>
      rcases ok_of_bind hMake with ⟨c, hNode, hRest⟩
      rcases ok_of_map (ok_of_mapError hRest) with
        ⟨d, hMade, rfl⟩
      exact .withArguments
        (hBefore _ (mem_of_comparison hNode)) hMade
  | withChildren index indices =>
      rcases ok_of_bind hMake with ⟨⟨k, old⟩, _, hRest⟩
      rcases ok_of_bind hRest with ⟨ns, hNodes, hMade⟩
      exact .ofChildren
        (fun m hm => hBefore m (mem_of_mapM hNodes m hm))
        (ok_of_mapError hMade)
  | firstChild index =>
      rcases ok_of_bind hMake with ⟨⟨k, ns⟩, hNode, hFirst⟩
      cases ns with
      | nil => cases hFirst
      | cons m ms =>
          cases hFirst
          exact .child (hBefore _ (mem_of_logical hNode))
            List.mem_cons_self
  | reparse index =>
      rcases ok_of_bind hMake with ⟨m, _, hParse⟩
      exact .parse (ok_of_mapError hParse)

/- A step puts a tree that it makes on the bench, or nothing. -/
theorem step_cases
    (R : Registry)
    (bench : Bench)
    (s : Step) :
    (bench.step R s).2 = bench ∨
      ∃ making n,
        bench.make R making = .ok n ∧
          (bench.step R s).2 = ⟨bench.nodes ++ [n]⟩ := by
  cases s with
  | look inspection =>
      exact Or.inl rfl
  | make making =>
      cases hMake : bench.make R making with
      | error e =>
          left
          simp only [step, hMake]
      | ok n =>
          right
          refine ⟨making, n, hMake, ?_⟩
          simp only [step, hMake]

/- Looking for a connective is no failure to make a tree. -/
theorem logical_ne_node
    (index : Nat)
    (cause : NodeError) :
    bench.logical index ≠ .error (.node cause) := by
  intro hFailed
  unfold logical node at hFailed
  cases hNode : bench.nodes[index]? with
  | none =>
      rw [hNode] at hFailed
      cases hFailed
  | some n =>
      rw [hNode] at hFailed
      cases n <;> cases hFailed

/-
  Benches that steps lead to, each under any registry.  A
  child of a tree at hand may also be put on the bench.
-/
inductive Reachable : Bench → Prop
  | empty : Reachable .empty
  | step
      {bench : Bench}
      (hBefore : Reachable bench)
      (R : Registry)
      (s : Step) :
      Reachable (bench.step R s).2
  | child
      {bench : Bench}
      {n m : Node}
      (hBefore : Reachable bench)
      (hNode : n ∈ bench.nodes)
      (hChild : m ∈ n.children) :
      Reachable ⟨bench.nodes ++ [m]⟩

namespace Reachable

/- Carrying out steps in order leads to such a bench. -/
theorem run
    (hBefore : bench.Reachable)
    (R : Registry)
    (ss : List Step) :
    (bench.run R ss).2.Reachable := by
  induction ss generalizing bench with
  | nil =>
      exact hBefore
  | cons s ss ih =>
      exact ih (hBefore.step R s)

/- All trees of such a bench can be made. -/
theorem made
    (hReachable : bench.Reachable) :
    ∀ n ∈ bench.nodes, n.Made := by
  have hSnoc :
      ∀ {ns : List Node} {n : Node},
        (∀ m ∈ ns, m.Made) → n.Made →
          ∀ m ∈ ns ++ [n], m.Made := by
    intro ns n hBefore hLast
    exact List.forall_mem_append.mpr
      ⟨hBefore, List.forall_mem_singleton.mpr hLast⟩
  induction hReachable with
  | empty =>
      exact List.forall_mem_nil _
  | @step bench _ R s ih =>
      rcases bench.step_cases R s with
        hSame | ⟨making, n, hMake, hMore⟩
      · rw [hSame]
        exact ih
      · rw [hMore]
        exact hSnoc ih (made_of_make ih hMake)
  | child _ hNode hChild ih =>
      exact hSnoc ih (.child (ih _ hNode) hChild)

/- The first child of a tree is there to be taken. -/
theorem firstChild
    (hReachable : bench.Reachable)
    (R : Registry)
    (index : Nat)
    (cause : NodeError) :
    bench.make R (.firstChild index) ≠
      .error (.node cause) := by
  intro hFailed
  cases hNode : bench.logical index with
  | error e =>
      simp only [make, hNode] at hFailed
      cases hFailed
      exact logical_ne_node index cause hNode
  | ok found =>
      rcases found with ⟨k, ns⟩
      simp only [make, hNode] at hFailed
      cases ns with
      | nil =>
          have hWhole :=
            (hReachable.made _ (mem_of_logical hNode)).wellFormed
          cases hWhole with
          | logical hSome _ _ => exact hSome rfl
      | cons m ms => cases hFailed

end Reachable

end Bench

end FilterQuery

------------------------------------------------------------
-- Soundness
------------------------------------------------------------

namespace FilterQuery

/-
  Whatever steps are taken, operators and nodes at every
  depth of every tree at hand are sound and steady, and can
  be read by index.  The first child of a tree is there to be
  taken.  What is parsed could have been parsed throughout.
-/
theorem Bench.reachable_sound :
    (∀ (definition : Definition) op,
        definition.operator = .ok op →
          op.Sound ∧
            ∀ symbols multiValue,
              definition = .spelled symbols multiValue →
                op.symbols = symbols ∧
                  op.multiValue = multiValue) ∧
      (∀ bench : Bench,
        bench.Reachable →
          ∀ n ∈ bench.nodes,
            ∀ m : Node,
              m.Within n →
                m.Sound ∧ m.Steady ∧
                  m.charsByIndex? = some m.chars) ∧
      (∀ (R : Registry) (bench : Bench) index cause,
        bench.Reachable →
          bench.make R (.firstChild index) ≠
            .error (.node cause)) ∧
      ∀ (R : Registry) query n,
        R.parse query = .ok n →
          ∀ m : Node, m.Within n → m.Parsed R := by
  refine ⟨?_, ?_, ?_, ?_⟩
  · intro definition op hDefined
    exact Definition.sound_of_operator hDefined
  · intro bench hReachable n hn m hWithin
    have hWhole :=
      hWithin.wellFormed (hReachable.made n hn).wellFormed
    exact ⟨hWhole.sound, hWhole.steady,
      m.charsByIndex?_eq_some⟩
  · intro R bench index cause hReachable
    exact hReachable.firstChild R index cause
  · intro R query n hParse m hWithin
    exact Registry.parsed_of_parse hParse hWithin

/-
  A comparison that is parsed, negated and given another
  operator; a step without arguments in between fails.
-/
theorem Bench.reachable_sound_sample :
    ∃ c : Comparison,
      (Bench.empty.run Registry.standard
          [.make (.parse "a=gt=1"), .make (.negate 0),
            .make (.withArguments 0 []),
            .make (.withOperator 0 (.builtin .inList))]).2 =
        ⟨[.comparison
              ⟨Builtin.greaterThan.operator, "a", ["1"]⟩,
            .logical .not
              [.comparison
                ⟨Builtin.greaterThan.operator, "a", ["1"]⟩],
            .comparison c]⟩ ∧
        Node.Sound (.comparison c) ∧
        Node.Steady (.comparison c) ∧
        Node.Parsed Registry.standard
          (.comparison
            ⟨Builtin.greaterThan.operator, "a", ["1"]⟩) := by
  rcases reachable_sound with ⟨_, hSound, _, hParsed⟩
  have hParse :
      Registry.standard.parse "a=gt=1" =
        .ok (.comparison
          ⟨Builtin.greaterThan.operator, "a", ["1"]⟩) := by
    cbv
  have hRun :
      (Bench.empty.run Registry.standard
          [.make (.parse "a=gt=1"), .make (.negate 0),
            .make (.withArguments 0 []),
            .make (.withOperator 0 (.builtin .inList))]).2 =
        ⟨[.comparison
              ⟨Builtin.greaterThan.operator, "a", ["1"]⟩,
            .logical .not
              [.comparison
                ⟨Builtin.greaterThan.operator, "a", ["1"]⟩],
            .comparison
              ⟨Builtin.inList.operator, "a", ["1"]⟩]⟩ := by
    cbv
  have hReachable :=
    Reachable.empty.run Registry.standard
      [.make (.parse "a=gt=1"), .make (.negate 0),
        .make (.withArguments 0 []),
        .make (.withOperator 0 (.builtin .inList))]
  rw [hRun] at hReachable
  have hLast :=
    hSound _ hReachable
      (.comparison ⟨Builtin.inList.operator, "a", ["1"]⟩)
      (by simp) _ (.root _)
  exact ⟨_, hRun, hLast.1, hLast.2.1,
    hParsed _ _ _ hParse _ (.root _)⟩

end FilterQuery
