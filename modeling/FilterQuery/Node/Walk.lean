import FilterQuery.Node.Measure
import FilterQuery.Node.Render

/-
  This file defines walks through query trees.

  Key definitions include:
    * `FilterQuery.Walker`
    * `FilterQuery.Walker.visit`
    * `FilterQuery.WalkEvent`
    * `FilterQuery.Node.walk`

  A walker is told of every node it reaches and is handed the
  rest of the walk below that node, which it may carry out or
  leave.
-/

------------------------------------------------------------
-- Walkers
------------------------------------------------------------

namespace FilterQuery

/-
  What to do at the nodes of a tree.  The function argument of
  a handler carries the walk on: below any node to the handler
  of its kind, below a logical node to its children.
-/
structure Walker (σ : Type) where
  node : Node → (σ → σ) → σ → σ
  logical : Connective → List Node → (σ → σ) → σ → σ
  comparison : Comparison → σ → σ

namespace Walker

variable {σ : Type}

mutual

/- Walk through a tree. -/
def visit (w : Walker σ) : Node → σ → σ
| .comparison c, s =>
    w.node (.comparison c) (w.comparison c) s
| .logical k children, s =>
    w.node (.logical k children)
      (w.logical k children (w.visitList children)) s

/- Walk through trees in order. -/
def visitList (w : Walker σ) : List Node → σ → σ
| [], s => s
| n :: ns, s => w.visitList ns (w.visit n s)

end

/- The walker that counts the nodes it reaches. -/
def counter : Walker Nat where
  node _ walkOn count := walkOn (count + 1)
  logical _ _ walkOn count := walkOn count
  comparison _ count := count

end Walker

end FilterQuery

------------------------------------------------------------
-- Recording A Walk
------------------------------------------------------------

namespace FilterQuery

/- The moments of a walk. -/
inductive WalkEvent
  | enter (n : Node)
  | logical (connective : Connective) (children : List Node)
  | comparison (c : Comparison)
  | leave

/- A moment of a walk as a line of text. -/
def WalkEvent.describe : WalkEvent → String
| .enter _ => "node"
| .logical connective _ => s!"logical {connective.symbol}"
| .comparison c => s!"comparison {c.render}"
| .leave => "end"

/-
  The walker that records its moments, latest first, and does
  not go below the logical nodes that are to be pruned.
-/
def Walker.recorder
    (pruned : Connective → List Node → Bool) :
    Walker (List WalkEvent) where
  node n walkOn events := .leave :: walkOn (.enter n :: events)
  logical k children walkOn events :=
    if pruned k children then
      .logical k children :: events
    else
      walkOn (.logical k children :: events)
  comparison c events := .comparison c :: events

/- The moments of a walk through a tree. -/
def Node.walk
    (pruned : Connective → List Node → Bool)
    (n : Node) :
    List WalkEvent :=
  ((Walker.recorder pruned).visit n []).reverse

end FilterQuery

------------------------------------------------------------
-- Counting By Walking
------------------------------------------------------------

namespace FilterQuery

namespace Walker

/- Counting a list of trees adds up the trees. -/
theorem visitList_counter
    {ns : List Node}
    (hEach :
      ∀ n ∈ ns, ∀ count,
        counter.visit n count = count + n.count)
    (count : Nat) :
    counter.visitList ns count =
      count + Node.countList ns := by
  induction ns generalizing count with
  | nil =>
      simp [visitList, Node.countList]
  | cons n ns ih =>
      have hHead := hEach n (by simp) count
      have hTail :=
        ih (fun m hm => hEach m (by simp [hm]))
          (count + n.count)
      simp only [visitList, Node.countList, hHead, hTail]
      omega

/- The counting walker finds the number of nodes. -/
theorem visit_counter
    (n : Node)
    (count : Nat) :
    counter.visit n count = count + n.count := by
  induction n generalizing count with
  | comparison c =>
      simp [visit, counter, Node.count]
  | logical k children ih =>
      have hList := visitList_counter ih (count + 1)
      simp only [visit, Node.count]
      change counter.visitList children (count + 1) =
        count + (1 + Node.countList children)
      omega

end Walker

end FilterQuery
