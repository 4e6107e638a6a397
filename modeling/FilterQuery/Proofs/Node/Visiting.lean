import FilterQuery.Proofs.Node.Recursion
import Mathlib

/-
  This file proves which nodes a walk through a tree reaches,
  and in which order.

  Key definitions include:
    * `FilterQuery.Node.calls`
    * `FilterQuery.Node.subtree?`
    * `FilterQuery.Node.Exposed`
    * `FilterQuery.Node.Tour`

  Key theorems include:
    * `FilterQuery.Node.calls_logical`
    * `FilterQuery.Node.mem_reached_iff`
    * `FilterQuery.Node.pairwise_reached`
    * `FilterQuery.Node.walk_tours`

  A node of a tree is told by its place: the numbers of the
  children on the way down to it.  In the lexical order of
  places a node stands before all nodes below it, and these
  stand before the nodes below later children.
-/

------------------------------------------------------------
-- Calls
------------------------------------------------------------

namespace FilterQuery

/- Whether a node is reached, and not left, at the moment. -/
def WalkEvent.isCall : WalkEvent → Bool
| .leave => false
| _ => true

/- Whether any node is entered at the moment. -/
def WalkEvent.isEnter : WalkEvent → Bool
| .enter _ => true
| _ => false

namespace Node

variable {pruned : Connective → List Node → Bool}

/- The calls of a walk through a tree, in order. -/
def calls
    (pruned : Connective → List Node → Bool)
    (n : Node) :
    List WalkEvent :=
  (n.walk pruned).filter WalkEvent.isCall

/-
  The calls for a single node: one as for any node, and at
  once the one for its kind.
-/
def ownCalls : Node → List WalkEvent
| .comparison c => [.enter (.comparison c), .comparison c]
| .logical k children =>
    [.enter (.logical k children), .logical k children]

/-
  The recorder of a connective is told of the children unless
  it is pruned.
-/
theorem visit_recorder_logical
    (k : Connective)
    (ns : List Node)
    (events : List WalkEvent) :
    (Walker.recorder pruned).visit (.logical k ns) events =
      .leave ::
        if pruned k ns then
          (logical k ns).ownCalls.reverse ++ events
        else
          (Walker.recorder pruned).visitList ns
            ((logical k ns).ownCalls.reverse ++ events) :=
  rfl

/- Trees are recorded in order, before what is known. -/
theorem visitList_recorder
    {ns : List Node}
    (hEach :
      ∀ n ∈ ns, ∀ events,
        (Walker.recorder pruned).visit n events =
          (n.walk pruned).reverse ++ events)
    (events : List WalkEvent) :
    (Walker.recorder pruned).visitList ns events =
      (ns.flatMap (walk pruned)).reverse ++ events := by
  induction ns generalizing events with
  | nil =>
      rfl
  | cons n ns ih =>
      rcases List.forall_mem_cons.mp hEach with
        ⟨hFirst, hMore⟩
      rw [Walker.visitList, hFirst, ih hMore,
        List.flatMap_cons, List.reverse_append,
        List.append_assoc]

/- A tree is recorded before what is known. -/
theorem visit_recorder
    (n : Node)
    (events : List WalkEvent) :
    (Walker.recorder pruned).visit n events =
      (n.walk pruned).reverse ++ events := by
  induction n generalizing events with
  | comparison c =>
      rfl
  | logical k ns ih =>
      have hList := visitList_recorder ih
      unfold walk
      rw [List.reverse_reverse, visit_recorder_logical,
        visit_recorder_logical, hList, hList, List.append_nil,
        List.cons_append]
      split
      · rfl
      · rw [List.append_assoc]

/-
  A walk to a connective goes on through the children unless
  it is pruned.
-/
theorem walk_logical
    (k : Connective)
    (ns : List Node) :
    (logical k ns).walk pruned =
      (logical k ns).ownCalls ++
        ((if pruned k ns then [] else
          ns.flatMap (walk pruned)) ++ [.leave]) := by
  have hList (events : List WalkEvent) :
      (Walker.recorder pruned).visitList ns events =
        (ns.flatMap (walk pruned)).reverse ++ events :=
    visitList_recorder (fun n _ => n.visit_recorder) events
  rw [walk.eq_def, visit_recorder_logical, hList,
    List.append_nil, List.reverse_cons]
  split
  · rw [List.reverse_reverse]
    rfl
  · rw [List.reverse_append, List.reverse_reverse,
      List.reverse_reverse, List.append_assoc]

/-
  The calls for a connective are its own and, unless it is
  pruned, those for its children in order.
-/
theorem calls_logical
    (k : Connective)
    (ns : List Node) :
    (logical k ns).calls pruned =
      (logical k ns).ownCalls ++
        if pruned k ns then [] else
          ns.flatMap (calls pruned) := by
  have hLeave :
      [WalkEvent.leave].filter WalkEvent.isCall = [] :=
    rfl
  unfold calls
  rw [walk_logical, List.filter_append, List.filter_append,
    hLeave, List.append_nil]
  split
  · rfl
  · rw [List.filter_flatMap]
    rfl

end Node

end FilterQuery

------------------------------------------------------------
-- Places
------------------------------------------------------------

namespace FilterQuery

namespace Node

variable {pruned : Connective → List Node → Bool}

/-
  The node at a place, which is given by the numbers of the
  children on the way down.
-/
def subtree? : Node → List Nat → Option Node
| n, [] => some n
| n, i :: place =>
    n.children[i]?.bind fun m => m.subtree? place

/- The node is a connective that is to be pruned. -/
def IsPruned
    (pruned : Connective → List Node → Bool) :
    Node → Prop
| .comparison _ => False
| .logical k children => pruned k children = true

/- No node above the place is pruned. -/
def Exposed
    (pruned : Connective → List Node → Bool)
    (n : Node)
    (place : List Nat) : Prop :=
  ∀ above m,
    above <+: place →
      above ≠ place →
        n.subtree? above = some m → ¬ m.IsPruned pruned

/-
  The places of a walk: those of all nodes with no pruned
  node above them, each once, in lexical order.
-/
structure Tour
    (pruned : Connective → List Node → Bool)
    (n : Node)
    (places : List (List Nat)) : Prop where
  ordered : places.Pairwise (· < ·)
  complete :
    ∀ place,
      place ∈ places ↔
        (∃ m, n.subtree? place = some m) ∧
          n.Exposed pruned place

mutual

/- The places that a walk reaches. -/
def reached
    (pruned : Connective → List Node → Bool) :
    Node → List (List Nat)
| .comparison _ => [[]]
| .logical k children =>
    [] ::
      if pruned k children then [] else
        reachedList pruned 0 children

/- The same for children, which are counted from a number. -/
def reachedList
    (pruned : Connective → List Node → Bool) :
    Nat → List Node → List (List Nat)
| _, [] => []
| i, n :: ns =>
    (n.reached pruned).map (i :: ·) ++
      reachedList pruned (i + 1) ns

end

/- The root of a tree is above everything in it. -/
theorem exposed_nil
    (n : Node) :
    n.Exposed pruned [] := by
  intro above m hAbove hOther
  exact absurd (List.prefix_nil.mp hAbove) hOther

/-
  A place below a child is exposed if the root is not pruned
  and the place is exposed in the child.
-/
theorem exposed_cons_iff
    {n m : Node}
    {i : Nat}
    {place : List Nat}
    (hChild : n.children[i]? = some m) :
    n.Exposed pruned (i :: place) ↔
      ¬ n.IsPruned pruned ∧ m.Exposed pruned place := by
  constructor
  · intro hExposed
    constructor
    · exact hExposed [] n List.nil_prefix
        (List.cons_ne_nil _ _).symm rfl
    · intro above l hAbove hOther hNode
      apply hExposed (i :: above) l
      · exact List.cons_prefix_cons.mpr ⟨rfl, hAbove⟩
      · exact fun hSame => hOther (List.cons.inj hSame).2
      · rw [subtree?, hChild]
        exact hNode
  · rintro ⟨hRoot, hExposed⟩ above l hAbove hOther hNode
    cases above with
    | nil =>
        cases hNode
        exact hRoot
    | cons j above =>
        rcases List.cons_prefix_cons.mp hAbove with
          ⟨rfl, hBelow⟩
        rw [subtree?, hChild] at hNode
        exact hExposed above l hBelow
          (fun hSame => hOther (by rw [hSame])) hNode

/- A place of a list of children is one below a child. -/
theorem mem_reachedList_iff
    {i : Nat}
    {ns : List Node}
    {place : List Nat} :
    place ∈ reachedList pruned i ns ↔
      ∃ j m below,
        place = (i + j) :: below ∧
          ns[j]? = some m ∧ below ∈ m.reached pruned := by
  induction ns generalizing i with
  | nil =>
      simp [reachedList]
  | cons n ns ih =>
      rw [reachedList, List.mem_append, List.mem_map, ih]
      constructor
      · rintro (⟨below, hBelow, rfl⟩ |
          ⟨j, m, below, rfl, hChild, hBelow⟩)
        · exact ⟨0, n, below, rfl, rfl, hBelow⟩
        · refine ⟨j + 1, m, below, ?_, hChild, hBelow⟩
          rw [Nat.add_assoc, Nat.add_comm 1 j]
      · rintro ⟨j, m, below, rfl, hChild, hBelow⟩
        cases j with
        | zero =>
            cases hChild
            exact Or.inl ⟨below, hBelow, rfl⟩
        | succ j =>
            refine Or.inr ⟨j, m, below, ?_, hChild, hBelow⟩
            rw [Nat.add_assoc, Nat.add_comm 1 j]

/- Below a connective a walk goes on in the children. -/
theorem cons_mem_reached_logical_iff
    {k : Connective}
    {ns : List Node}
    {i : Nat}
    {place : List Nat} :
    i :: place ∈ (logical k ns).reached pruned ↔
      ¬ (logical k ns).IsPruned pruned ∧
        ∃ m, ns[i]? = some m ∧ place ∈ m.reached pruned := by
  rw [reached, List.mem_cons,
    or_iff_right (List.cons_ne_nil i place)]
  change _ ↔ ¬ pruned k ns = true ∧ _
  split
  · rename_i hPruned
    exact ⟨nofun, fun h => absurd hPruned h.1⟩
  · rename_i hOpen
    rw [mem_reachedList_iff, and_iff_right hOpen]
    constructor
    · rintro ⟨j, m, below, hSame, hChild, hBelow⟩
      rw [Nat.zero_add] at hSame
      cases hSame
      exact ⟨m, hChild, hBelow⟩
    · rintro ⟨m, hChild, hBelow⟩
      exact ⟨i, m, place, by rw [Nat.zero_add], hChild,
        hBelow⟩

/-
  A walk reaches the places that have a node and are not below
  a pruned one.
-/
theorem mem_reached_iff
    {n : Node}
    {place : List Nat} :
    place ∈ n.reached pruned ↔
      (∃ m, n.subtree? place = some m) ∧
        n.Exposed pruned place := by
  induction n generalizing place with
  | comparison c =>
      rw [reached, List.mem_singleton]
      cases place with
      | nil =>
          exact ⟨fun _ => ⟨⟨_, rfl⟩, exposed_nil _⟩,
            fun _ => rfl⟩
      | cons i place =>
          refine ⟨nofun, ?_⟩
          rintro ⟨⟨m, hNode⟩, _⟩
          cases hNode
  | logical k ns ih =>
      -- Only the first step down can meet the root of a tree;
      -- the rest of the place is one of a child.
      cases place with
      | nil =>
          rw [reached]
          exact ⟨fun _ => ⟨⟨_, rfl⟩, exposed_nil _⟩,
            fun _ => List.mem_cons_self⟩
      | cons i place =>
          rw [cons_mem_reached_logical_iff]
          constructor
          · rintro ⟨hRoot, m, hChild, hBelow⟩
            have hMem := List.mem_of_getElem? hChild
            rcases (ih m hMem).mp hBelow with
              ⟨⟨l, hNode⟩, hExposed⟩
            refine ⟨⟨l, ?_⟩, ?_⟩
            · rw [subtree?, children, hChild]
              exact hNode
            · exact (exposed_cons_iff hChild).mpr
                ⟨hRoot, hExposed⟩
          · rintro ⟨⟨l, hNode⟩, hExposed⟩
            rw [subtree?, Option.bind_eq_some_iff] at hNode
            rcases hNode with ⟨m, hChild, hBelow⟩
            have hMem := List.mem_of_getElem? hChild
            rcases (exposed_cons_iff hChild).mp hExposed with
              ⟨hRoot, hInside⟩
            exact ⟨hRoot, m, hChild,
              (ih m hMem).mpr ⟨⟨l, hBelow⟩, hInside⟩⟩

/- Places below earlier children come first. -/
theorem pairwise_reachedList
    {i : Nat}
    {ns : List Node}
    (hEach :
      ∀ n ∈ ns, (n.reached pruned).Pairwise (· < ·)) :
    (reachedList pruned i ns).Pairwise (· < ·) := by
  induction ns generalizing i with
  | nil =>
      exact .nil
  | cons n ns ih =>
      rcases List.forall_mem_cons.mp hEach with
        ⟨hFirst, hMore⟩
      rw [reachedList, List.pairwise_append]
      refine ⟨?_, ih hMore, ?_⟩
      · rw [List.pairwise_map]
        refine hFirst.imp fun hLt => ?_
        exact List.cons_lt_cons_iff.mpr (Or.inr ⟨rfl, hLt⟩)
      · intro place hPlace other hOther
        rcases List.mem_map.mp hPlace with ⟨below, _, rfl⟩
        rcases mem_reachedList_iff.mp hOther with
          ⟨j, m, below', rfl, _, _⟩
        refine List.cons_lt_cons_iff.mpr (Or.inl ?_)
        omega

/- A walk reaches places in lexical order. -/
theorem pairwise_reached
    (n : Node) :
    (n.reached pruned).Pairwise (· < ·) := by
  induction n with
  | comparison c =>
      exact List.pairwise_singleton _ _
  | logical k ns ih =>
      rw [reached, List.pairwise_cons]
      constructor
      · intro place hPlace
        cases place with
        | nil =>
            split at hPlace
            · cases hPlace
            · rcases mem_reachedList_iff.mp hPlace with
                ⟨j, m, below, hSame, _, _⟩
              cases hSame
        | cons i place =>
            exact List.nil_lt_cons i place
      · split
        · exact .nil
        · exact pairwise_reachedList ih

/- The places that a walk reaches are a tour. -/
theorem tour_reached
    (n : Node) :
    n.Tour pruned (n.reached pruned) where
  ordered := pairwise_reached n
  complete _ := mem_reached_iff

/- There is only one tour. -/
theorem Tour.unique
    {n : Node}
    {places others : List (List Nat)}
    (hTour : n.Tour pruned places)
    (hOther : n.Tour pruned others) :
    places = others := by
  apply hTour.ordered.eq_of_mem_iff hOther.ordered
  intro place
  rw [hTour.complete, hOther.complete]

end Node

end FilterQuery

------------------------------------------------------------
-- Calls At Places
------------------------------------------------------------

namespace FilterQuery

namespace Node

variable {pruned : Connective → List Node → Bool}

/- The calls for the node at a place. -/
def callsAt
    (n : Node)
    (place : List Nat) :
    List WalkEvent :=
  match n.subtree? place with
  | some m => m.ownCalls
  | none => []

/- A place below a child is a place in that child. -/
theorem callsAt_cons
    {n m : Node}
    {i : Nat}
    (hChild : n.children[i]? = some m)
    (place : List Nat) :
    n.callsAt (i :: place) = m.callsAt place := by
  unfold callsAt
  rw [subtree?, hChild]
  rfl

/- The calls for children are those at their places. -/
theorem flatMap_reachedList
    {k : Connective}
    {ns : List Node}
    (before : List Node)
    (hEach :
      ∀ n ∈ ns,
        n.calls pruned =
          (n.reached pruned).flatMap n.callsAt) :
    (reachedList pruned before.length ns).flatMap
        (logical k (before ++ ns)).callsAt =
      ns.flatMap (calls pruned) := by
  induction ns generalizing before with
  | nil =>
      rfl
  | cons n ns ih =>
      rcases List.forall_mem_cons.mp hEach with
        ⟨hFirst, hMore⟩
      have hChild :
          (logical k (before ++ n :: ns)).children[
            before.length]? = some n := by
        simp [children]
      have hRest := ih (before ++ [n]) hMore
      rw [List.length_append, List.length_singleton,
        List.append_assoc, List.singleton_append] at hRest
      rw [reachedList, List.flatMap_append, hRest,
        List.flatMap_map, List.flatMap_cons, hFirst,
        funext (callsAt_cons hChild)]

/- The calls of a walk are those at the places reached. -/
theorem calls_eq
    (n : Node) :
    n.calls pruned = (n.reached pruned).flatMap n.callsAt := by
  induction n with
  | comparison c =>
      rfl
  | logical k ns ih =>
      have hBelow := flatMap_reachedList (k := k) [] ih
      rw [List.length_nil, List.nil_append] at hBelow
      rw [calls_logical, reached, List.flatMap_cons]
      split
      · rfl
      · rw [hBelow]
        rfl

/- Without pruning every node is entered once. -/
theorem countP_calls
    (n : Node) :
    (n.calls fun _ _ => false).countP WalkEvent.isEnter =
      n.count := by
  induction n with
  | comparison c =>
      rfl
  | logical k ns ih =>
      rw [calls_logical, if_neg Bool.false_ne_true,
        List.countP_append, List.countP_flatMap, count,
        countList_eq_sum, ← List.map_congr_left ih]
      rfl

/-
  A walk with pruning calls for the nodes of its tour: for
  every node that has no pruned node above it and for no
  other, each once, in the order of their places; and of the
  two calls for a node the one for its kind follows at once.
  Without pruning as many nodes are entered as there are, and
  as many as the counting walker finds: one, and those of the
  children.
-/
theorem walk_tours :
    (∀ (pruned : Connective → List Node → Bool) (n : Node),
        ∃ places,
          n.Tour pruned places ∧
            (∀ others,
              n.Tour pruned others → others = places) ∧
            n.calls pruned = places.flatMap n.callsAt) ∧
      ∀ n : Node,
        (n.calls fun _ _ => false).countP WalkEvent.isEnter =
            n.count ∧
          Walker.counter.visit n 0 = n.count ∧
          n.count = 1 + (n.children.map count).sum := by
  constructor
  · intro pruned n
    have hTour : n.Tour pruned (n.reached pruned) :=
      n.tour_reached
    exact ⟨_, hTour, fun _ hOther => hOther.unique hTour,
      n.calls_eq⟩
  · intro n
    refine ⟨n.countP_calls, ?_, ?_⟩
    · rw [Walker.visit_counter, Nat.zero_add]
    · cases n with
      | comparison c => rfl
      | logical k ns => rw [count, countList_eq_sum, children]

/-
  In `(a==1,!((b==2;c==3)))` the negation has place 1.  If it
  is pruned, the walk reaches it and leaves out what is below.
-/
theorem walk_tours_sample :
    ∃ places,
      (logical .or
          [.comparison ⟨Builtin.equal.operator, "a", ["1"]⟩,
          .logical .not
            [.logical .and
              [.comparison
                ⟨Builtin.equal.operator, "b", ["2"]⟩,
              .comparison
                ⟨Builtin.equal.operator, "c", ["3"]⟩]]]).Tour
          (fun k _ => k == .not) places ∧
        [1] ∈ places ∧
        [1, 0, 1] ∉ places := by
  rcases walk_tours.1 (fun k _ => k == .not)
      (logical .or
        [.comparison ⟨Builtin.equal.operator, "a", ["1"]⟩,
        .logical .not
          [.logical .and
            [.comparison
              ⟨Builtin.equal.operator, "b", ["2"]⟩,
            .comparison
              ⟨Builtin.equal.operator, "c", ["3"]⟩]]]) with
    ⟨places, hTour, _, _⟩
  refine ⟨places, hTour, ?_, ?_⟩
  · rw [hTour.complete]
    refine ⟨⟨_, rfl⟩, ?_⟩
    rw [exposed_cons_iff rfl]
    exact ⟨nofun, exposed_nil _⟩
  · rw [hTour.complete]
    rintro ⟨_, hExposed⟩
    exact hExposed [1] _ (by decide) (by decide) rfl rfl

end Node

end FilterQuery
