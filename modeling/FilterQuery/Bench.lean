import FilterQuery.Config.Write
import FilterQuery.Node.Equality
import FilterQuery.Node.Measure
import FilterQuery.Node.Render
import FilterQuery.Query.Parse

/-
  This file defines the bench: trees made step by step, where
  later steps may use the trees of earlier ones.

  Key definitions include:
    * `FilterQuery.Making`
    * `FilterQuery.Inspection`
    * `FilterQuery.Bench`
    * `FilterQuery.Bench.make`
    * `FilterQuery.Bench.step`
    * `FilterQuery.Bench.run`

  Trees are numbered in the order in which they were made.  A
  step that fails makes no tree, and the steps after it still
  run.
-/

------------------------------------------------------------
-- Steps
------------------------------------------------------------

namespace FilterQuery

/- The ways to make a tree on a bench. -/
inductive Making
  | parse (query : String)
  | resolve
      (symbol selector : String) (arguments : List String)
  | combine (connective : Connective) (children : List Nat)
  | compare
      (operator : Definition) (selector : String)
      (arguments : List String)
  | join (connective : Connective) (children : List Nat)
  | negate (node : Nat)
  | withOperator (node : Nat) (operator : Definition)
  | withArguments (node : Nat) (arguments : List String)
  | withChildren (node : Nat) (children : List Nat)
  | firstChild (node : Nat)
  | reparse (node : Nat)
deriving Repr

/- The ways to look at the trees of a bench. -/
inductive Inspection
  | equal (left right : Nat)
  | document (node : Nat)
  | inspect (node : Nat)
deriving Repr

/- A step at a bench. -/
inductive Step
  | make (making : Making)
  | look (inspection : Inspection)
deriving Repr

/- Reasons why a step fails. -/
inductive StepError
  | noSuchNode (index : Nat)
  | notComparison
  | notLogical
  | config (cause : ConfigError)
  | node (cause : NodeError)
  | parse (cause : ParseError)
deriving Repr

/- What a step has brought about. -/
inductive Report
  | made (index : Nat) (n : Node)
  | reread (index : Nat) (n : Node) (same : Bool)
  | compared (same sameHash : Bool)
  | written (d : Document)
  | inspected (n : Node)
deriving Repr

end FilterQuery

------------------------------------------------------------
-- Benches
------------------------------------------------------------

namespace FilterQuery

/- The trees made so far. -/
structure Bench where
  nodes : List Node

namespace Bench

/- The bench without trees. -/
def empty : Bench :=
  ⟨[]⟩

/- The tree with a number. -/
def node
    (bench : Bench)
    (index : Nat) :
    Except StepError Node :=
  match bench.nodes[index]? with
  | some n => .ok n
  | none => .error (.noSuchNode index)

/- The tree with a number, if its root is a comparison. -/
def comparison
    (bench : Bench)
    (index : Nat) :
    Except StepError Comparison := do
  match (← bench.node index).comparison? with
  | some c => return c
  | none => .error .notComparison

/-
  The root connective and the children of the tree with a
  number, if it has a connective.
-/
def logical
    (bench : Bench)
    (index : Nat) :
    Except StepError (Connective × List Node) := do
  let n ← bench.node index
  match n.connective? with
  | some connective => return (connective, n.children)
  | none => .error .notLogical

/- The tree that a step makes. -/
def make
    (R : Registry)
    (bench : Bench) :
    Making → Except StepError Node
| .parse query => (R.parse query).mapError .parse
| .resolve symbol selector arguments =>
    ((R.comparison symbol selector arguments).map
      .comparison).mapError .node
| .combine connective children => do
    let ns ← children.mapM bench.node
    (Node.combine connective ns).mapError .node
| .compare definition selector arguments => do
    let op ← definition.operator.mapError .config
    ((Comparison.ofParts op selector arguments).map
      .comparison).mapError .node
| .join connective children => do
    let ns ← children.mapM bench.node
    (Node.ofChildren connective ns).mapError .node
| .negate index => do
    return (← bench.node index).negate
| .withOperator index definition => do
    let c ← bench.comparison index
    let op ← definition.operator.mapError .config
    ((c.withOperator op).map .comparison).mapError .node
| .withArguments index arguments => do
    let c ← bench.comparison index
    ((c.withArguments arguments).map
      .comparison).mapError .node
| .withChildren index children => do
    let (connective, _) ← bench.logical index
    let ns ← children.mapM bench.node
    (Node.ofChildren connective ns).mapError .node
| .firstChild index => do
    match (← bench.logical index).2 with
    | n :: _ => return n
    | [] => .error (.node .emptyChildren)
| .reparse index => do
    let n ← bench.node index
    (R.parse n.render).mapError .parse

/- What is reported of a tree that has just been made. -/
def reportMade
    (bench : Bench)
    (making : Making)
    (n : Node) :
    Report :=
  match making with
  | .reparse index =>
      match bench.nodes[index]? with
      | some source =>
          .reread bench.nodes.length n (n.same source)
      | none => .made bench.nodes.length n
  | _ => .made bench.nodes.length n

/- What is seen of the trees. -/
def look
    (bench : Bench) :
    Inspection → Except StepError Report
| .equal left right => do
    let n ← bench.node left
    let m ← bench.node right
    return .compared (n.same m) (n.hashCode == m.hashCode)
| .document index => do
    return .written (← bench.node index).document
| .inspect index => do
    return .inspected (← bench.node index)

/- Carry out a step. -/
def step
    (R : Registry)
    (bench : Bench) :
    Step → Except StepError Report × Bench
| .look inspection => (bench.look inspection, bench)
| .make making =>
    match bench.make R making with
    | .ok n =>
        (.ok (bench.reportMade making n),
          ⟨bench.nodes ++ [n]⟩)
    | .error e => (.error e, bench)

/- Carry out steps in order. -/
def run
    (R : Registry) :
    Bench → List Step →
      List (Except StepError Report) × Bench
| bench, [] => ([], bench)
| bench, s :: ss =>
    let (report, next) := bench.step R s
    let (reports, last) := run R next ss
    (report :: reports, last)

end Bench

end FilterQuery
