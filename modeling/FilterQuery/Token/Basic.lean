/-
  This file defines the tokens of a query.

  Key definitions include:
    * `FilterQuery.Token`
    * `FilterQuery.Token.value?`
    * `FilterQuery.Token.describe`
    * `FilterQuery.Lexeme`
-/

------------------------------------------------------------
-- Tokens
------------------------------------------------------------

namespace FilterQuery

/-
  The smallest meaningful pieces of a query.  A quoted token
  holds its value, without quotes and backslashes.
-/
inductive Token
  | openParen
  | closeParen
  | semicolon
  | comma
  | bang
  | operator (symbol : String)
  | bare (text : String)
  | quoted (value : String)
deriving DecidableEq, Repr

namespace Token

/- The value of a token that can be a selector or argument. -/
def value? : Token → Option String
| .bare text => some text
| .quoted value => some value
| _ => none

/- Whether a token can be a selector or an argument. -/
def isValue (t : Token) : Bool :=
  t.value?.isSome

/- The token as error messages show it. -/
def describe : Token → String
| .openParen => "'('"
| .closeParen => "')'"
| .semicolon => "';'"
| .comma => "','"
| .bang => "'!'"
| .operator symbol => s!"operator '{symbol}'"
| .bare text => s!"'{text}'"
| .quoted value => s!"\"{value}\""

end Token

end FilterQuery

------------------------------------------------------------
-- Lexemes
------------------------------------------------------------

namespace FilterQuery

/-
  A token with its place in the query, in bytes: the start is
  included, the stop is not.
-/
structure Lexeme where
  token : Token
  start : Nat
  stop : Nat
deriving DecidableEq, Repr

end FilterQuery
