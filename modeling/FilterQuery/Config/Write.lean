import FilterQuery.Config.Document
import FilterQuery.Node.Basic

/-
  This file defines how operators, registries and query trees
  are written as documents.

  Key definitions include:
    * `FilterQuery.Operator.document`
    * `FilterQuery.Registry.document`
    * `FilterQuery.Connective.document`
    * `FilterQuery.Node.document`
-/

------------------------------------------------------------
-- Operators And Registries
------------------------------------------------------------

namespace FilterQuery

/- A list of strings as a document. -/
def Document.ofTexts (texts : List String) : Document :=
  .list (texts.map .string)

/- The spellings and the arity of an operator. -/
def Operator.document (op : Operator) : Document :=
  .object
    [("symbols", .ofTexts op.symbols),
      ("multi_value", .bool op.multiValue)]

/- The operators of a registry in order. -/
def Registry.document (R : Registry) : Document :=
  .list (R.operators.map Operator.document)

/- The name of a connective. -/
def Connective.document (connective : Connective) : Document :=
  .string connective.name

end FilterQuery

------------------------------------------------------------
-- Trees
------------------------------------------------------------

namespace FilterQuery

/- The parts of a comparison. -/
def Comparison.document (c : Comparison) : Document :=
  .object
    [("operator", c.operator.document),
      ("selector", .string c.selector),
      ("arguments", .ofTexts c.arguments)]

namespace Node

mutual

/- A tree, with the kind of each node as the key around it. -/
def document : Node → Document
| .comparison c => .object [("comparison", c.document)]
| .logical connective children =>
    .object
      [("logical",
        .object
          [("operator", connective.document),
            ("children", .list (documentList children))])]

/- The trees of a list. -/
def documentList : List Node → List Document
| [] => []
| n :: ns => n.document :: documentList ns

end

end Node

end FilterQuery
