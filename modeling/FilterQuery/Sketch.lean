import FilterQuery.Node.Basic

/-
  This file defines sketches: expressions that spell out a
  query tree without naming a registry.

  Key definitions include:
    * `FilterQuery.Sketch`
    * `FilterQuery.SketchError`
    * `FilterQuery.Sketch.node`

  A symbol of the standard registry stands for the standard
  operator.  Any other symbol makes a new operator, which is
  many-valued if it is given more than one argument.
-/

------------------------------------------------------------
-- Sketches
------------------------------------------------------------

namespace FilterQuery

/- An expression for a query tree. -/
inductive Sketch
  | comparison
      (selector symbol : String) (arguments : List String)
  | and (parts : List Sketch)
  | or (parts : List Sketch)
  | not (part : Sketch)
deriving Repr

/- A comparison for equality. -/
def Sketch.equal
    (selector argument : String) :
    Sketch :=
  .comparison selector "==" [argument]

/- Reasons why a sketch stands for no tree. -/
inductive SketchError
  | operator (symbol : String) (cause : ConfigError)
  | comparison (cause : NodeError)
  | and (cause : NodeError)
  | or (cause : NodeError)
deriving DecidableEq, Repr

/- The text of a sketch error. -/
def SketchError.message : SketchError → String
| .operator symbol cause =>
    s!"invalid test operator {symbol}: {cause.message}"
| .comparison cause =>
    s!"invalid test comparison: {cause.message}"
| .and cause => s!"invalid test AND: {cause.message}"
| .or cause => s!"invalid test OR: {cause.message}"

end FilterQuery

------------------------------------------------------------
-- Trees Of Sketches
------------------------------------------------------------

namespace FilterQuery

namespace Sketch

/- The operator of a symbol used with some arguments. -/
def operator
    (symbol : String)
    (arguments : List String) :
    Except SketchError Operator :=
  match Registry.standard.get? symbol with
  | some op => .ok op
  | none =>
      (Operator.ofSymbols [symbol]
        (decide (1 < arguments.length))).mapError
          (.operator symbol)

mutual

/- The tree of a sketch; parts are made before the whole. -/
def node : Sketch → Except SketchError Node
| .comparison selector symbol arguments => do
    let op ← operator symbol arguments
    let c ←
      (Comparison.ofParts op selector arguments).mapError
        .comparison
    return .comparison c
| .and parts => do
    (Node.ofChildren .and (← nodes parts)).mapError .and
| .or parts => do
    (Node.ofChildren .or (← nodes parts)).mapError .or
| .not part => do
    return (← part.node).negate

/- The trees of sketches, from left to right. -/
def nodes : List Sketch → Except SketchError (List Node)
| [] => .ok []
| part :: parts => do
    return (← part.node) :: (← nodes parts)

end

end Sketch

end FilterQuery
