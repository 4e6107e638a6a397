import FilterQuery.Node.Basic
import FilterQuery.Query.Error

/-
  This file defines the grammar of queries as derivations of
  meanings from lexemes.

  Key definitions include:
    * `FilterQuery.Values`
    * `FilterQuery.Arguments`
    * `FilterQuery.Written`
    * `FilterQuery.Written.Spells`
    * `FilterQuery.Reading`
    * `FilterQuery.Derives`
    * `FilterQuery.Registry.Means`
    * `FilterQuery.Sentence`
    * `FilterQuery.Viable`
    * `FilterQuery.Registry.fault?`

  The grammar is stated without reading order, states or
  errors.  A derivation says how lexemes fall into operands;
  what the operands mean is left to a reading.  Under a
  registry they mean trees.  Without one they mean the
  comparisons that are written, in order, and lexemes that
  have such a meaning are a sentence.
-/

------------------------------------------------------------
-- Written Comparisons
------------------------------------------------------------

namespace FilterQuery

/- Values with commas between them. -/
inductive Values : List Lexeme → List String → Prop
  | one
      {x : Lexeme}
      {value : String}
      (hValue : x.token.value? = some value) :
      Values [x] [value]
  | more
      {x comma : Lexeme}
      {value : String}
      {xs : List Lexeme}
      {values : List String}
      (hValue : x.token.value? = some value)
      (hComma : comma.token = .comma)
      (hMore : Values xs values) :
      Values (x :: comma :: xs) (value :: values)

/- One value, or values in parentheses. -/
inductive Arguments : List Lexeme → List String → Prop
  | single
      {x : Lexeme}
      {value : String}
      (hValue : x.token.value? = some value) :
      Arguments [x] [value]
  | list
      {opening closing : Lexeme}
      {xs : List Lexeme}
      {values : List String}
      (hOpening : opening.token = .openParen)
      (hValues : Values xs values)
      (hClosing : closing.token = .closeParen) :
      Arguments (opening :: (xs ++ [closing])) values

/-
  A comparison as it is written: its values, its symbol, and
  where selector and symbol start.
-/
structure Written where
  selector : String
  start : Nat
  symbol : String
  symbolStart : Nat
  arguments : List String
deriving DecidableEq, Repr

/- The lexemes of a written comparison. -/
inductive Written.Spells : Written → List Lexeme → Prop
  | intro
      {x y : Lexeme}
      {selector symbol : String}
      {xs : List Lexeme}
      {arguments : List String}
      (hSelector : x.token.value? = some selector)
      (hSymbol : y.token = .operator symbol)
      (hArguments : Arguments xs arguments) :
      Written.Spells
        ⟨selector, x.start, symbol, y.start, arguments⟩
        (x :: y :: xs)

end FilterQuery

------------------------------------------------------------
-- Derivations
------------------------------------------------------------

namespace FilterQuery

/-
  What comparisons mean, and how meanings of operands are put
  together.
-/
structure Reading (α : Type) where
  comparison : Written → α → Prop
  join : Connective → List α → α

/- The parts of a query that have meanings. -/
inductive Rule
  | operand
  | conjunction
  | disjunction
deriving DecidableEq, Repr

/-
  Lexemes that fall into operands of a part of a query, with
  the meanings of the operands.  A conjunction counts as one
  operand of a disjunction, and a disjunction in parentheses
  as one operand.
-/
inductive Derives
    {α : Type}
    (I : Reading α) :
    Rule → List Lexeme → List α → Prop
  | comparison
      {xs : List Lexeme}
      {w : Written}
      {a : α}
      (hSpells : w.Spells xs)
      (hMeans : I.comparison w a) :
      Derives I .operand xs [a]
  | group
      {opening closing : Lexeme}
      {xs : List Lexeme}
      {as : List α}
      (hOpening : opening.token = .openParen)
      (hInside : Derives I .disjunction xs as)
      (hClosing : closing.token = .closeParen) :
      Derives I .operand (opening :: (xs ++ [closing]))
        [I.join .or as]
  | negation
      {bang opening closing : Lexeme}
      {xs : List Lexeme}
      {as : List α}
      (hBang : bang.token = .bang)
      (hOpening : opening.token = .openParen)
      (hInside : Derives I .disjunction xs as)
      (hClosing : closing.token = .closeParen) :
      Derives I .operand (bang :: opening :: (xs ++ [closing]))
        [I.join .not [I.join .or as]]
  | oneOperand
      {xs : List Lexeme}
      {a : α}
      (hOperand : Derives I .operand xs [a]) :
      Derives I .conjunction xs [a]
  | moreOperands
      {semicolon : Lexeme}
      {xs ys : List Lexeme}
      {a : α}
      {as : List α}
      (hOperand : Derives I .operand xs [a])
      (hSemicolon : semicolon.token = .semicolon)
      (hMore : Derives I .conjunction ys as) :
      Derives I .conjunction (xs ++ semicolon :: ys) (a :: as)
  | oneConjunction
      {xs : List Lexeme}
      {as : List α}
      (hConjunction : Derives I .conjunction xs as) :
      Derives I .disjunction xs [I.join .and as]
  | moreConjunctions
      {comma : Lexeme}
      {xs ys : List Lexeme}
      {as bs : List α}
      (hConjunction : Derives I .conjunction xs as)
      (hComma : comma.token = .comma)
      (hMore : Derives I .disjunction ys bs) :
      Derives I .disjunction (xs ++ comma :: ys)
        (I.join .and as :: bs)

/- The lexemes are a query with the meaning. -/
def Reading.Means
    {α : Type}
    (I : Reading α)
    (xs : List Lexeme)
    (a : α) : Prop :=
  ∃ as, Derives I .disjunction xs as ∧ a = I.join .or as

end FilterQuery

------------------------------------------------------------
-- Trees
------------------------------------------------------------

namespace FilterQuery

/-
  A written comparison means a tree if its symbol is
  registered, its selector is not blank, and its operator
  takes that many arguments.
-/
inductive Registry.Compares
    (R : Registry) :
    Written → Node → Prop
  | intro
      {w : Written}
      {operator : Operator}
      (hKnown : R.get? w.symbol = some operator)
      (hSelector : Text.isBlankText w.selector = false)
      (hArity :
        operator.multiValue = true ∨ w.arguments.length = 1) :
      Registry.Compares R w
        (.comparison ⟨operator, w.selector, w.arguments⟩)

/- The reading of queries as trees under a registry. -/
def Registry.reading (R : Registry) : Reading Node :=
  ⟨R.Compares, Node.connect⟩

/- The lexemes are a query that means the tree. -/
def Registry.Means
    (R : Registry)
    (xs : List Lexeme)
    (n : Node) : Prop :=
  R.reading.Means xs n

end FilterQuery

------------------------------------------------------------
-- Sentences
------------------------------------------------------------

namespace FilterQuery

/- The reading of queries as their written comparisons. -/
def Written.reading : Reading (List Written) :=
  ⟨fun w ws => ws = [w], fun _ parts => parts.flatten⟩

/-
  The lexemes follow the grammar, whatever operators are
  registered, and hold the written comparisons.
-/
def Sentence
    (xs : List Lexeme)
    (ws : List Written) : Prop :=
  Written.reading.Means xs ws

/- The lexemes can be continued to a sentence. -/
def Viable (xs : List Lexeme) : Prop :=
  ∃ ys ws, Sentence (xs ++ ys) ws

/-
  What a registry finds wrong with a written comparison.  An
  unknown symbol is reported first, where the symbol starts;
  then a blank selector and then too many arguments, where
  the selector starts.
-/
def Registry.fault?
    (R : Registry)
    (w : Written) :
    Option ParseError :=
  match R.get? w.symbol with
  | none =>
      some (.invalidNode w.symbolStart
        (.unknownOperator w.symbol))
  | some operator =>
      if Text.isBlankText w.selector then
        some (.invalidNode w.start .blankSelector)
      else if operator.multiValue = false ∧
          1 < w.arguments.length then
        some (.invalidNode w.start
          (.tooManyArguments operator.symbol
            w.arguments.length))
      else
        none

end FilterQuery
