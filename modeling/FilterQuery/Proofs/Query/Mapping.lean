import FilterQuery.Query.State

/-
  This file proves that trees may be replaced by others
  before or after they are put together.

  Key definitions include:
    * `FilterQuery.Node.Keeps`
    * `FilterQuery.Level.map`
    * `FilterQuery.Group.map`

  Key theorems include:
    * `FilterQuery.Level.close_map`
    * `FilterQuery.Group.operand_map`

  A level and a group hold the trees that a state has read so
  far.  What replaces the comparisons of a tree and keeps its
  connectives may be done at any time.
-/

------------------------------------------------------------
-- Trees
------------------------------------------------------------

namespace FilterQuery

namespace Node

/- What is done to a tree is done below its connectives. -/
def Keeps (f : Node → Node) : Prop :=
  ∀ k ns, f (.logical k ns) = .logical k (ns.map f)

/- Trees can be joined before or after. -/
theorem Keeps.connect
    {f : Node → Node}
    (hKeeps : Keeps f)
    (k : Connective)
    (ns : List Node) :
    Node.connect k (ns.map f) = f (Node.connect k ns) := by
  rcases ns with _ | ⟨n, _ | ⟨m, ms⟩⟩
  · cases k <;> exact (hKeeps _ []).symm
  · cases k with
    | and | or => rfl
    | not => exact (hKeeps .not [n]).symm
  · cases k <;> exact (hKeeps _ (n :: m :: ms)).symm

end Node

end FilterQuery

------------------------------------------------------------
-- Levels And Groups
------------------------------------------------------------

namespace FilterQuery

/- The level with each tree replaced. -/
def Level.map
    (f : Node → Node)
    (level : Level) :
    Level :=
  ⟨level.conjunctions.map f, level.operands.map f⟩

/- The group with each tree around it replaced. -/
def Group.map
    (f : Node → Node)
    (group : Group) :
    Group :=
  ⟨group.negated, group.outer.map f⟩

variable {f : Node → Node}

namespace Level

/- The conjunction of a replaced level. -/
theorem conjunction_map
    (hKeeps : Node.Keeps f)
    (level : Level)
    (n : Node) :
    (level.map f).conjunction (f n) =
      f (level.conjunction n) := by
  unfold conjunction
  rw [← hKeeps.connect, List.map_reverse, List.map_cons]
  rfl

/- The tree of a replaced level. -/
theorem close_map
    (hKeeps : Node.Keeps f)
    (level : Level)
    (n : Node) :
    (level.map f).close (f n) = f (level.close n) := by
  unfold close
  rw [← hKeeps.connect, List.map_reverse, List.map_cons,
    conjunction_map hKeeps]
  rfl

/- A conjunction is added to a replaced level. -/
theorem pushConjunction_map
    (hKeeps : Node.Keeps f)
    (level : Level)
    (n : Node) :
    (level.map f).pushConjunction (f n) =
      (level.pushConjunction n).map f := by
  unfold pushConjunction
  rw [conjunction_map hKeeps]
  rfl

end Level

/- The operand that a replaced group stands for. -/
theorem Group.operand_map
    (hKeeps : Node.Keeps f)
    (group : Group)
    (n : Node) :
    (group.map f).operand (f n) = f (group.operand n) := by
  rcases group with ⟨negated, outer⟩
  cases negated with
  | false => rfl
  | true => exact (hKeeps .not [n]).symm

end FilterQuery
