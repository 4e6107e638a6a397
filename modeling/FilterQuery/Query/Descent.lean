import FilterQuery.Node.Basic
import FilterQuery.Query.Error

/-
  This file defines how lexemes are parsed, by a descent with
  one function for each rule of the grammar.

  Key definitions include:
    * `FilterQuery.Descent`
    * `FilterQuery.Descent.bind`
    * `FilterQuery.Descent.chain`
    * `FilterQuery.Descent.disjunction`
    * `FilterQuery.Descent.query`

  The rules are

    query       := disjunction
    disjunction := conjunction (',' conjunction)*
    conjunction := operand (';' operand)*
    operand     := comparison | '!'? group
    group       := '(' disjunction ')'
    comparison  := selector symbol arguments
    arguments   := value | '(' value (',' value)* ')'

  One lexeme decides each branch, and the first error ends
  the descent.  A descent never goes back: that it ends behind
  its start is part of what it returns, and is what makes the
  functions terminate.
-/

------------------------------------------------------------
-- Descents
------------------------------------------------------------

namespace FilterQuery

/-
  What comes of parsing lexemes from a position on: a value
  or an error, and the position at which it was found.
-/
structure Descent
    (xs : List Lexeme)
    (start : Nat)
    (α : Type) where
  result : Except ParseError α
  position : Nat
  advances : start ≤ position
  inside : start ≤ xs.length → position ≤ xs.length

namespace Descent

variable {xs : List Lexeme}
variable {start : Nat}
variable {α β : Type}

/- The outcome is known without looking at lexemes. -/
def done
    (result : Except ParseError α) :
    Descent xs start α :=
  ⟨result, start, Nat.le_refl _, id⟩

/- Go on from where a descent ended, unless it failed. -/
def bind
    (d : Descent xs start α)
    (rest :
      α → (position : Nat) → start ≤ position →
        Descent xs position β) :
    Descent xs start β :=
  match d.result with
  | .error e =>
      ⟨.error e, d.position, d.advances, d.inside⟩
  | .ok a =>
      let next := rest a d.position d.advances
      ⟨next.result, next.position,
        Nat.le_trans d.advances next.advances,
        fun hStart => next.inside (d.inside hStart)⟩

end Descent

end FilterQuery

------------------------------------------------------------
-- Lexemes At A Position
------------------------------------------------------------

namespace FilterQuery

namespace Descent

variable {α : Type}

/-
  The byte offset of a position: where its lexeme starts, or
  at the end, where the last lexeme stops.
-/
def offset
    (xs : List Lexeme)
    (position : Nat) :
    Nat :=
  match xs[position]? with
  | some x => x.start
  | none => (xs.getLast?.map Lexeme.stop).getD 0

/- Whether the token stands at the position. -/
def checks
    (xs : List Lexeme)
    (t : Token)
    (position : Nat) :
    Bool :=
  xs[position]?.any fun x => x.token == t

/- Something else was expected at the position. -/
def unexpected
    (xs : List Lexeme)
    (expected : Expected)
    (position : Nat) :
    ParseError :=
  match xs[position]? with
  | some x => .unexpectedToken expected x.token x.start
  | none => .unexpectedEnd expected

/- The position behind a position, if it is not the end. -/
def advance
    (xs : List Lexeme)
    (position : Nat) :
    Nat :=
  if xs.length ≤ position then position else position + 1

/- Advancing does not go back. -/
theorem le_advance
    (xs : List Lexeme)
    (position : Nat) :
    position ≤ advance xs position := by
  unfold advance
  split <;> omega

/- Advancing does not go past the end. -/
theorem advance_le_length
    {xs : List Lexeme}
    {position : Nat}
    (hInside : position ≤ xs.length) :
    advance xs position ≤ xs.length := by
  unfold advance
  split <;> omega

/- A lexeme at the position is left behind. -/
theorem advance_of_lt
    {xs : List Lexeme}
    {position : Nat}
    (hMore : position < xs.length) :
    advance xs position = position + 1 := by
  unfold advance
  rw [if_neg (by omega)]

/- A token stands only where there is a lexeme. -/
theorem lt_length_of_checks
    {xs : List Lexeme}
    {t : Token}
    {position : Nat}
    (hToken : checks xs t position = true) :
    position < xs.length := by
  unfold checks at hToken
  by_cases hMore : position < xs.length
  · exact hMore
  · rw [List.getElem?_eq_none (by omega)] at hToken
    cases hToken

/- What follows the lexeme at the position. -/
def behind
    {xs : List Lexeme}
    {position : Nat}
    (rest : Descent xs (advance xs position) α) :
    Descent xs position α :=
  ⟨rest.result, rest.position,
    Nat.le_trans (le_advance xs position) rest.advances,
    fun hInside => rest.inside (advance_le_length hInside)⟩

/- Take the token, and go on behind it. -/
def expectToken
    (xs : List Lexeme)
    (t : Token)
    (expected : Expected)
    (position : Nat)
    (rest :
      position < xs.length →
        Descent xs (advance xs position) α) :
    Descent xs position α :=
  if hToken : checks xs t position = true then
    behind (rest (lt_length_of_checks hToken))
  else
    done (.error (unexpected xs expected position))

/- Take a value. -/
def expectValue
    (xs : List Lexeme)
    (expected : Expected)
    (position : Nat) :
    Descent xs position String :=
  match xs[position]?.bind fun x => x.token.value? with
  | some value => behind (done (.ok value))
  | none => done (.error (unexpected xs expected position))

end Descent

end FilterQuery

------------------------------------------------------------
-- Comparisons
------------------------------------------------------------

namespace FilterQuery

namespace Descent

/- Further arguments of a list, each behind a comma. -/
def moreArguments
    (xs : List Lexeme)
    (values : List String)
    (position : Nat) :
    Descent xs position (List String) :=
  if _hComma : checks xs .comma position = true then
    behind <|
      (expectValue xs .argument (advance xs position)).bind
        fun value next _ =>
          moreArguments xs (values ++ [value]) next
  else
    done (.ok values)
termination_by xs.length - position
decreasing_by
  have hMore := lt_length_of_checks _hComma
  have hNext := advance_of_lt hMore
  omega

/- One argument, or a list of them in parentheses. -/
def arguments
    (xs : List Lexeme)
    (position : Nat) :
    Descent xs position (List String) :=
  if checks xs .openParen position then
    behind <|
      (expectValue xs .argument (advance xs position)).bind
        fun value next _ =>
          (moreArguments xs [value] next).bind
            fun values last _ =>
              expectToken xs .closeParen .closing last
                fun _ => done (.ok values)
  else
    (expectValue xs .argument position).bind
      fun value _ _ => done (.ok [value])

/-
  A comparison.  Its symbol must be registered when it is
  met; the other parts are checked when all have been read,
  and their errors are found where the comparison starts.
-/
def comparison
    (R : Registry)
    (xs : List Lexeme)
    (start : Nat) :
    Descent xs start Node :=
  (expectValue xs .selector start).bind
    fun selector position _ =>
      match xs[position]?.map Lexeme.token with
      | some (.operator symbol) =>
          if R.contains symbol then
            behind <|
              (arguments xs (advance xs position)).bind
                fun values _ _ =>
                  done
                    (((R.comparison symbol selector
                        values).map Node.comparison).mapError
                      (.invalidNode (offset xs start)))
          else
            done
              (.error
                (.invalidNode (offset xs position)
                  (.unknownOperator symbol)))
      | _ => done (.error (unexpected xs .symbol position))

end Descent

end FilterQuery

------------------------------------------------------------
-- Chains
------------------------------------------------------------

namespace FilterQuery

namespace Descent

variable {xs : List Lexeme}
variable {start : Nat}

/-
  Join trees by a constructor that checks their number.  An
  error is found where the trees start.
-/
def logical
    (xs : List Lexeme)
    (connective : Connective)
    (children : List Node)
    (start position : Nat) :
    Descent xs position Node :=
  done
    ((Node.combine connective children).mapError
      (.invalidNode (offset xs start)))

/- Further parts of a chain, each behind the separator. -/
def moreParts
    (separator : Token)
    (part :
      (position : Nat) → start ≤ position →
        Descent xs position Node)
    (children : List Node)
    (position : Nat)
    (hStart : start ≤ position) :
    Descent xs position (List Node) :=
  if _hSeparator : checks xs separator position = true then
    have hNext := Nat.le_trans hStart (le_advance xs position)
    behind <|
      (part (advance xs position) hNext).bind
        fun child next hChild =>
          moreParts separator part (children ++ [child]) next
            (Nat.le_trans hNext hChild)
  else
    done (.ok children)
termination_by xs.length - position
decreasing_by
  have hMore := lt_length_of_checks _hSeparator
  have hAdvance := advance_of_lt hMore
  omega

/-
  Parts with a separator between them.  One part stands for
  itself; several are joined by the connective.
-/
def chain
    (separator : Token)
    (connective : Connective)
    (start : Nat)
    (part :
      (position : Nat) → start ≤ position →
        Descent xs position Node) :
    Descent xs start Node :=
  (part start (Nat.le_refl _)).bind
    fun first position hFirst =>
      if checks xs separator position then
        (moreParts separator part [first] position hFirst).bind
          fun children last _ =>
            logical xs connective children start last
      else
        done (.ok first)

end Descent

end FilterQuery

------------------------------------------------------------
-- Queries
------------------------------------------------------------

namespace FilterQuery

namespace Descent

-- The second measure ranks the functions that call each
-- other at one position.
mutual

/- Conjunctions with commas between them. -/
def disjunction
    (R : Registry)
    (xs : List Lexeme)
    (start : Nat) :
    Descent xs start Node :=
  chain .comma .or start fun position _ =>
    conjunction R xs position
termination_by (xs.length - start, 3)
decreasing_by
  omega

/- Operands with semicolons between them. -/
def conjunction
    (R : Registry)
    (xs : List Lexeme)
    (start : Nat) :
    Descent xs start Node :=
  chain .semicolon .and start fun position _ =>
    operand R xs position
termination_by (xs.length - start, 2)
decreasing_by
  omega

/- A comparison, a group, or the negation of a group. -/
def operand
    (R : Registry)
    (xs : List Lexeme)
    (start : Nat) :
    Descent xs start Node :=
  match xs[start]?.map Lexeme.token with
  | some .bang =>
      behind <|
        (group R xs (advance xs start)).bind
          fun inner position _ =>
            logical xs .not [inner] start position
  | some .openParen => group R xs start
  | some t =>
      if t.isValue then
        comparison R xs start
      else
        done (.error (unexpected xs .operand start))
  | none => done (.error (unexpected xs .operand start))
termination_by (xs.length - start, 1)
decreasing_by
  all_goals
    have hNext := le_advance xs start
    omega

/- A disjunction in parentheses. -/
def group
    (R : Registry)
    (xs : List Lexeme)
    (start : Nat) :
    Descent xs start Node :=
  expectToken xs .openParen .group start fun _hMore =>
    (disjunction R xs (advance xs start)).bind
      fun inner position _ =>
        expectToken xs .closeParen .closing position
          fun _ => done (.ok inner)
termination_by (xs.length - start, 0)
decreasing_by
  have hNext := advance_of_lt _hMore
  omega

end

/- A disjunction and nothing behind it. -/
def query
    (R : Registry)
    (xs : List Lexeme)
    (start : Nat) :
    Descent xs start Node :=
  (disjunction R xs start).bind fun n position _ =>
    if xs.length ≤ position then
      done (.ok n)
    else
      done (.error (unexpected xs .connective position))

end Descent

end FilterQuery
