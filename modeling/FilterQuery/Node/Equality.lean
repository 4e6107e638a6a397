import FilterQuery.Node.Basic

/-
  This file defines when two query trees are the same.

  Key definitions include:
    * `FilterQuery.Comparison.same`
    * `FilterQuery.Node.same`
    * `FilterQuery.Node.hashCode`

  Trees are the same when they have one shape, one connective
  at each place, and comparisons that agree in selector,
  arguments and canonical symbol.  Alternate spellings and the
  arity of an operator do not count.
-/

------------------------------------------------------------
-- Comparisons
------------------------------------------------------------

namespace FilterQuery

namespace Comparison

/- Comparisons that differ at most inside the operator. -/
def same (c d : Comparison) : Bool :=
  c.operator.same d.operator && c.selector == d.selector &&
    c.arguments == d.arguments

/- A hash code on which the same comparisons agree. -/
def hashCode (c : Comparison) : UInt64 :=
  mixHash c.operator.hashCode
    (mixHash (hash c.selector) (hash c.arguments))

end Comparison

end FilterQuery

------------------------------------------------------------
-- Trees
------------------------------------------------------------

namespace FilterQuery

namespace Node

mutual

/- Trees that differ at most inside operators. -/
def same : Node → Node → Bool
| .comparison c, .comparison d => c.same d
| .logical k ns, .logical l ms => k == l && sameList ns ms
| .comparison _, .logical _ _ => false
| .logical _ _, .comparison _ => false

/- Lists of trees that are the same place by place. -/
def sameList : List Node → List Node → Bool
| [], [] => true
| n :: ns, m :: ms => n.same m && sameList ns ms
| [], _ :: _ => false
| _ :: _, [] => false

end

mutual

/- A hash code on which the same trees agree. -/
def hashCode : Node → UInt64
| .comparison c => mixHash 1 c.hashCode
| .logical k ns =>
    mixHash (hash k.symbol) (hashList ns)

/- A hash code of a list of trees. -/
def hashList : List Node → UInt64
| [] => 7
| n :: ns => mixHash n.hashCode (hashList ns)

end

end Node

end FilterQuery
