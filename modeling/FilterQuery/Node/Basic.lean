import FilterQuery.Operator.Registry
import FilterQuery.Text.Classes

/-
  This file defines query trees and the checked ways to make
  them.

  Key definitions include:
    * `FilterQuery.Connective`
    * `FilterQuery.Comparison`
    * `FilterQuery.Node`
    * `FilterQuery.NodeError`
    * `FilterQuery.Comparison.ofParts`
    * `FilterQuery.Node.ofChildren`
    * `FilterQuery.Node.combine`
    * `FilterQuery.Node.connect`
    * `FilterQuery.Registry.comparison`

  A tree has comparisons at its leaves and connectives above
  them.  The types hold any such tree; the functions that make
  trees refuse those that no query could mean.
-/

------------------------------------------------------------
-- Trees
------------------------------------------------------------

namespace FilterQuery

/- The ways to join conditions. -/
inductive Connective
  | and
  | or
  | not
deriving DecidableEq, Repr

namespace Connective

/- The connective as it is written in a query. -/
def symbol : Connective → String
| .and => ";"
| .or => ","
| .not => "!"

/- The connective as a word. -/
def name : Connective → String
| .and => "AND"
| .or => "OR"
| .not => "NOT"

end Connective

/- A selector compared with one or more arguments. -/
structure Comparison where
  operator : Operator
  selector : String
  arguments : List String
deriving DecidableEq, Repr

/- A query tree. -/
inductive Node
  | comparison (c : Comparison)
  | logical (connective : Connective) (children : List Node)
deriving Repr

/- To prove a fact of all trees, assume it of all children. -/
@[induction_eliminator]
theorem Node.induction
    {motive : Node → Prop}
    (comparison : ∀ c, motive (.comparison c))
    (logical :
      ∀ k children,
        (∀ n ∈ children, motive n) →
          motive (.logical k children)) :
    ∀ n, motive n
| .comparison c => comparison c
| .logical k children =>
    logical k children fun n _ =>
      Node.induction comparison logical n

end FilterQuery

------------------------------------------------------------
-- Node Errors
------------------------------------------------------------

namespace FilterQuery

/- Reasons why a tree cannot be made. -/
inductive NodeError
  | unknownOperator (symbol : String)
  | blankSelector
  | emptyArguments
  | tooManyArguments (symbol : String) (count : Nat)
  | emptyChildren
  | notArity (count : Nat)
deriving DecidableEq, Repr

/- The text of a node error. -/
def NodeError.message : NodeError → String
| .unknownOperator symbol => s!"Unknown operator: {symbol}"
| .blankSelector => "Selector must not be blank"
| .emptyArguments => "Arguments list must not be empty"
| .tooManyArguments symbol count =>
    s!"Operator {symbol} expects a single argument, " ++
      s!"but {count} values given"
| .emptyChildren => "Logical node children must not be empty"
| .notArity count =>
    s!"NOT operator requires exactly one child, got {count}"

end FilterQuery

------------------------------------------------------------
-- Making Comparisons
------------------------------------------------------------

namespace FilterQuery

namespace Comparison

/-
  Make a comparison.  The selector is checked first, then
  that there are arguments, then that there are not too many.
-/
def ofParts
    (operator : Operator)
    (selector : String)
    (arguments : List String) :
    Except NodeError Comparison :=
  if Text.isBlankText selector then
    .error .blankSelector
  else if arguments = [] then
    .error .emptyArguments
  else if operator.multiValue = false ∧
      1 < arguments.length then
    .error (.tooManyArguments operator.symbol arguments.length)
  else
    .ok ⟨operator, selector, arguments⟩

/- The same comparison with another operator. -/
def withOperator
    (c : Comparison)
    (operator : Operator) :
    Except NodeError Comparison :=
  ofParts operator c.selector c.arguments

/- The same comparison with other arguments. -/
def withArguments
    (c : Comparison)
    (arguments : List String) :
    Except NodeError Comparison :=
  ofParts c.operator c.selector arguments

end Comparison

/-
  Make a comparison with the registered operator of a
  symbol.  The symbol is looked up before anything else.
-/
def Registry.comparison
    (R : Registry)
    (symbol selector : String)
    (arguments : List String) :
    Except NodeError Comparison :=
  match R.get? symbol with
  | none => .error (.unknownOperator symbol)
  | some operator =>
      Comparison.ofParts operator selector arguments

/- A known symbol gives the comparison its operator. -/
theorem Registry.comparison_of_get?
    {R : Registry}
    {symbol : String}
    {operator : Operator}
    (hKnown : R.get? symbol = some operator)
    (selector : String)
    (arguments : List String) :
    R.comparison symbol selector arguments =
      Comparison.ofParts operator selector arguments := by
  unfold comparison
  rw [hKnown]

end FilterQuery

------------------------------------------------------------
-- Making Logical Nodes
------------------------------------------------------------

namespace FilterQuery

namespace Node

/-
  Join children by a connective.  There must be a child, and
  exactly one under NOT.
-/
def ofChildren
    (connective : Connective)
    (children : List Node) :
    Except NodeError Node :=
  if children.length = 0 then
    .error .emptyChildren
  else if connective = .not ∧ children.length ≠ 1 then
    .error (.notArity children.length)
  else
    .ok (.logical connective children)

/-
  Join children like `ofChildren`, except that a NOT without
  children is reported by its number of children.
-/
def combine
    (connective : Connective)
    (children : List Node) :
    Except NodeError Node :=
  if connective = .not ∧ children.length ≠ 1 then
    .error (.notArity children.length)
  else
    ofChildren connective children

/- The negation of a tree. -/
def negate (n : Node) : Node :=
  .logical .not [n]

/-
  Put trees together.  AND and OR need at least two operands,
  and one operand stands for itself; NOT takes one.
-/
def connect : Connective → List Node → Node
| .and, [n] => n
| .or, [n] => n
| k, ns => .logical k ns

/- The comparison at the root, if it is one. -/
def comparison? : Node → Option Comparison
| .comparison c => some c
| .logical _ _ => none

/- The connective at the root, if there is one. -/
def connective? : Node → Option Connective
| .comparison _ => none
| .logical connective _ => some connective

/- The children of the root; a comparison has none. -/
def children : Node → List Node
| .comparison _ => []
| .logical _ children => children

end Node

end FilterQuery
