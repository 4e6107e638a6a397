import FilterQuery.Node.Basic
import FilterQuery.Text.Quoted

/-
  This file defines the text of a query tree.

  Key definitions include:
    * `FilterQuery.Text.valueChars`
    * `FilterQuery.Comparison.chars`
    * `FilterQuery.Node.chars`
    * `FilterQuery.Node.render`

  A value is written bare where it can be and in double
  quotes elsewhere.  Conjunctions and disjunctions always
  stand in parentheses, so no precedence is needed to read
  the text back.
-/

------------------------------------------------------------
-- Values
------------------------------------------------------------

namespace FilterQuery

/- A selector or an argument as it is written in a query. -/
def Text.valueChars (value : String) : List Char :=
  if Text.isUnreserved value then
    value.toList
  else
    Quoted.literal .double value.toList

end FilterQuery

------------------------------------------------------------
-- Trees
------------------------------------------------------------

namespace FilterQuery

namespace Comparison

/-
  The arguments as they are written: one stands alone, and
  any other number in parentheses.
-/
def argumentChars : List String → List Char
| [argument] => Text.valueChars argument
| arguments =>
    '(' :: (List.intercalate [','] (arguments.map Text.valueChars) ++
      [')'])

/- The characters of a comparison. -/
def chars (c : Comparison) : List Char :=
  Text.valueChars c.selector ++ c.operator.symbol.toList ++
    argumentChars c.arguments

/- The text of a comparison. -/
def render (c : Comparison) : String :=
  String.ofList c.chars

end Comparison

/- What stands before the children of a connective. -/
def Connective.opening : Connective → List Char
| .and => ['(']
| .or => ['(']
| .not => ['!', '(']

namespace Node

mutual

/- The characters of a tree. -/
def chars : Node → List Char
| .comparison c => c.chars
| .logical connective children =>
    connective.opening ++
      (List.intercalate connective.symbol.toList
        (charsList children) ++ [')'])

/- The characters of each tree of a list. -/
def charsList : List Node → List (List Char)
| [] => []
| n :: ns => n.chars :: charsList ns

end

/- The text of a tree. -/
def render (n : Node) : String :=
  String.ofList n.chars

end Node

end FilterQuery
