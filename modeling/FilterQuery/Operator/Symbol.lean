/-
  This file defines the spellings that a comparison operator
  may have.

  Key definitions include:
    * `FilterQuery.Symbol.pattern`
    * `FilterQuery.Symbol.isValid`

  A symbol is a possibly empty word of ASCII letters between
  two equal signs, an angle bracket with or without an equal
  sign after it, or `!=`.
-/

------------------------------------------------------------
-- Symbols
------------------------------------------------------------

namespace FilterQuery

namespace Symbol

/- The spellings as a regular expression, for messages. -/
def pattern : String :=
  "=[A-Za-z]*=|[><]=?|!="

/- A word of ASCII letters between two equal signs. -/
def isNamed : List Char → Bool
| '=' :: cs => cs.dropWhile Char.isAlpha == ['=']
| _ => false

/- An angle bracket or `!=`. -/
def isShort (cs : List Char) : Bool :=
  cs == ['>'] || cs == ['<'] || cs == ['>', '='] ||
    cs == ['<', '='] || cs == ['!', '=']

/- Texts that match `pattern` from end to end. -/
def isValid (symbol : String) : Bool :=
  isNamed symbol.toList || isShort symbol.toList

end Symbol

end FilterQuery
