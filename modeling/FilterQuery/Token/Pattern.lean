import FilterQuery.Operator.Symbol
import FilterQuery.Text.Classes
import FilterQuery.Text.Quoted
import FilterQuery.Token.Basic

/-
  This file defines the texts of tokens as sets of strings,
  one for each kind of token.

  Key definitions include:
    * `FilterQuery.Quoted.Body`
    * `FilterQuery.Quoted.Encodes`
    * `FilterQuery.TokenKind`
    * `FilterQuery.TokenKind.Matches`
    * `FilterQuery.Token.kind`

  A kind says which whole texts belong to it, and nothing
  about how a text is found inside a query.
-/

------------------------------------------------------------
-- Quoted Bodies
------------------------------------------------------------

namespace FilterQuery

/-
  What may stand between two quotes: ordinary characters, and
  pairs of a backslash and any character.
-/
inductive Quoted.Body (q : Char) : List Char → Prop
  | nil : Quoted.Body q []
  | ordinary
      {c : Char}
      {cs : List Char}
      (hQuote : c ≠ q)
      (hBackslash : c ≠ '\\')
      (hBody : Quoted.Body q cs) :
      Quoted.Body q (c :: cs)
  | pair
      (c : Char)
      {cs : List Char}
      (hBody : Quoted.Body q cs) :
      Quoted.Body q ('\\' :: c :: cs)

/- A quote or a backslash, which a backslash may protect. -/
def Quoted.Protectable (c : Char) : Prop :=
  c = '"' ∨ c = '\'' ∨ c = '\\'

/-
  The bodies that are written for a value.  There is a
  backslash before each closing quote and each backslash, and
  there may be one before any other quote.
-/
inductive Quoted.Encodes
    (q : Char) :
    List Char → List Char → Prop
  | nil : Quoted.Encodes q [] []
  | ordinary
      {c : Char}
      {value body : List Char}
      (hQuote : c ≠ q)
      (hBackslash : c ≠ '\\')
      (hRest : Quoted.Encodes q value body) :
      Quoted.Encodes q (c :: value) (c :: body)
  | escape
      {c : Char}
      {value body : List Char}
      (hEscape : Quoted.Protectable c)
      (hRest : Quoted.Encodes q value body) :
      Quoted.Encodes q (c :: value) ('\\' :: c :: body)

end FilterQuery

------------------------------------------------------------
-- Kinds Of Tokens
------------------------------------------------------------

namespace FilterQuery

/- The kinds of tokens. -/
inductive TokenKind
  | openParen
  | closeParen
  | semicolon
  | comma
  | bang
  | operator
  | bare
  | quoted
deriving DecidableEq, Repr

/- The texts that belong to a kind of token. -/
def TokenKind.Matches :
    TokenKind → List Char → Prop
| .openParen, cs => cs = ['(']
| .closeParen, cs => cs = [')']
| .semicolon, cs => cs = [';']
| .comma, cs => cs = [',']
| .bang, cs => cs = ['!']
| .operator, cs =>
    Symbol.isNamed cs = true ∨ Symbol.isShort cs = true
| .bare, cs => cs ≠ [] ∧ ∀ c ∈ cs, Text.isPlain c = true
| .quoted, cs =>
    ∃ (q : Quote) (body : List Char),
      Quoted.Body q.char body ∧
        cs = q.char :: (body ++ [q.char])

/- The kind of a token. -/
def Token.kind : Token → TokenKind
| .openParen => .openParen
| .closeParen => .closeParen
| .semicolon => .semicolon
| .comma => .comma
| .bang => .bang
| .operator _ => .operator
| .bare _ => .bare
| .quoted _ => .quoted

end FilterQuery
