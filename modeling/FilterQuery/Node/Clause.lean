import FilterQuery.Node.Basic

/-
  This file defines the condition of a SQL query that a query
  tree stands for.

  Key definitions include:
    * `FilterQuery.Comparison.clause`
    * `FilterQuery.Node.clause`

  Columns are qualified by a table alias.  Arguments are put
  between single quotes as they are.
-/

------------------------------------------------------------
-- Comparisons
------------------------------------------------------------

namespace FilterQuery

namespace Comparison

/- The arguments as string literals. -/
def literals (c : Comparison) : List String :=
  c.arguments.map fun argument => s!"'{argument}'"

/-
  The condition of a comparison.  Equality and its negation
  use the first argument; an operator without a SQL form of
  its own keeps its symbol.
-/
def clause
    (table : String)
    (c : Comparison) :
    String :=
  let column := s!"{table}.{c.selector}"
  let first := c.literals.headD ""
  let all := ", ".intercalate c.literals
  match c.operator.symbol with
  | "==" => s!"{column} = {first}"
  | "!=" => s!"{column} <> {first}"
  | "=in=" => s!"{column} IN ({all})"
  | "=out=" => s!"{column} NOT IN ({all})"
  | symbol => s!"{column} {symbol} {all}"

end Comparison

end FilterQuery

------------------------------------------------------------
-- Trees
------------------------------------------------------------

namespace FilterQuery

namespace Node

/- Put the conditions of children together. -/
def joinClauses
    (connective : Connective)
    (clauses : List String) :
    String :=
  match connective with
  | .and => "(" ++ " AND ".intercalate clauses ++ ")"
  | .or => "(" ++ " OR ".intercalate clauses ++ ")"
  | .not => "NOT " ++ clauses.headD ""

mutual

/- The condition of a tree. -/
def clause (table : String) : Node → String
| .comparison c => c.clause table
| .logical k children =>
    joinClauses k (clauseList table children)

/- The condition of each tree of a list. -/
def clauseList (table : String) : List Node → List String
| [] => []
| n :: ns => n.clause table :: clauseList table ns

end

end Node

end FilterQuery
