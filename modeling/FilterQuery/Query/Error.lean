import FilterQuery.Node.Basic
import FilterQuery.Token.Lexer

/-
  This file defines the ways in which a query is rejected.

  Key definitions include:
    * `FilterQuery.Expected`
    * `FilterQuery.Expected.admits`
    * `FilterQuery.ParseError`
    * `FilterQuery.ParseError.message`
-/

------------------------------------------------------------
-- Expectations
------------------------------------------------------------

namespace FilterQuery

/- What the grammar allows at a place of a query. -/
inductive Expected
  | operand
  | selector
  | group
  | symbol
  | argument
  | closing
  | connective
deriving DecidableEq, Repr

namespace Expected

/- The expectation as error messages name it. -/
def describe : Expected → String
| .operand => "selector, '(' or '!'"
| .selector => "selector"
| .group => Token.openParen.describe
| .symbol => "comparison operator"
| .argument => "argument"
| .closing => Token.closeParen.describe
| .connective => "',', ';' or end of input"

/- The tokens that an expectation names. -/
def admits : Expected → Token → Bool
| .operand, t => t.isValue || t == .openParen || t == .bang
| .selector, t => t.isValue
| .group, t => t == .openParen
| .symbol, .operator _ => true
| .symbol, _ => false
| .argument, t => t.isValue
| .closing, t => t == .closeParen
| .connective, t => t == .comma || t == .semicolon

/- Whether an expectation names the end of the query. -/
def admitsEnd : Expected → Bool
| .connective => true
| _ => false

end Expected

end FilterQuery

------------------------------------------------------------
-- Parse Errors
------------------------------------------------------------

namespace FilterQuery

/-
  Reasons why a query is rejected.  Positions are byte
  offsets; the end of the query has none.
-/
inductive ParseError
  | lexical (failure : LexFailure)
  | unexpectedToken
      (expected : Expected) (got : Token) (position : Nat)
  | unexpectedEnd (expected : Expected)
  | invalidNode (position : Nat) (cause : NodeError)
deriving DecidableEq, Repr

namespace ParseError

/- The offset of the offending text, if it has one. -/
def position? : ParseError → Option Nat
| .lexical failure => some failure.position
| .unexpectedToken _ _ position => some position
| .unexpectedEnd _ => none
| .invalidNode position _ => some position

/- The text of the reason behind the error, if it has one. -/
def causeMessage? : ParseError → Option String
| .lexical failure => some failure.cause.message
| .invalidNode _ cause => some cause.message
| _ => none

/- The text of a parse error. -/
def message : ParseError → String
| .lexical failure =>
    s!"Lexical error at position {failure.position}: " ++
      failure.cause.message
| .unexpectedToken expected got position =>
    s!"Unexpected token at position {position}: " ++
      s!"expected {expected.describe}, got {got.describe}"
| .unexpectedEnd expected =>
    s!"Unexpected end of input: expected {expected.describe}"
| .invalidNode position cause =>
    s!"Invalid expression at position {position}: " ++
      cause.message

end ParseError

end FilterQuery
