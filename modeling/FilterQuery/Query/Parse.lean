import FilterQuery.Query.Descent

/-
  This file defines how queries are parsed.

  Key definitions include:
    * `FilterQuery.Registry.parseLexemes`
    * `FilterQuery.Registry.parse`
    * `FilterQuery.Reader`
    * `FilterQuery.Reader.read`

  A query is cut into lexemes before anything else is looked
  at, so a lexical error anywhere is reported before any other
  error.
-/

------------------------------------------------------------
-- Parsing
------------------------------------------------------------

namespace FilterQuery

/- The lexemes of a query. -/
def tokenize (query : String) : Except ParseError (List Lexeme) :=
  (Lexing.ofString query).complete.mapError .lexical

namespace Registry

/- Parse a list of lexemes as one query. -/
def parseLexemes
    (R : Registry)
    (xs : List Lexeme) :
    Except ParseError Node :=
  (Descent.query R xs 0).result

/- Parse the text of a query. -/
def parse
    (R : Registry)
    (query : String) :
    Except ParseError Node :=
  (tokenize query).bind R.parseLexemes

end Registry

end FilterQuery

------------------------------------------------------------
-- Repeated Reading
------------------------------------------------------------

namespace FilterQuery

/-
  A reader of several trees from one list of lexemes, and its
  position among them.  Each reading starts where the one
  before it stopped.
-/
structure Reader where
  registry : Registry
  lexemes : List Lexeme
  position : Nat

namespace Reader

/- The reader at the start of a query. -/
def ofString
    (R : Registry)
    (query : String) :
    Except ParseError Reader :=
  (tokenize query).map fun xs => ⟨R, xs, 0⟩

/- Read a tree, and say where the next reading starts. -/
def read (r : Reader) : Except ParseError Node × Reader :=
  let d := Descent.query r.registry r.lexemes r.position
  (d.result, { r with position := d.position })

/- The results of reading a number of times. -/
def readMany :
    Nat → Reader → List (Except ParseError Node)
| 0, _ => []
| times + 1, r => r.read.1 :: readMany times r.read.2

end Reader

end FilterQuery
