import FilterQuery.Query.Error

/-
  This file defines the states of reading a query token by
  token, and the step from one state to the next.

  Key definitions include:
    * `FilterQuery.Level`
    * `FilterQuery.Group`
    * `FilterQuery.Phase`
    * `FilterQuery.State`
    * `FilterQuery.State.expected`
    * `FilterQuery.State.step`
    * `FilterQuery.State.finish`
    * `FilterQuery.State.run`

  Between two lexemes, a state is all that matters of what
  was read: the operands that still wait for their
  neighbours, one level for each open group.  One token is
  enough to decide each step.  Facts about queries are proved
  of runs, which give the same outcomes as the descent.
-/

------------------------------------------------------------
-- Levels And Groups
------------------------------------------------------------

namespace FilterQuery

/-
  The operands read so far inside one pair of parentheses, or
  outside all of them: finished conjunctions and the operands
  of the conjunction being read, latest first.
-/
structure Level where
  conjunctions : List Node
  operands : List Node

namespace Level

/- A level in which nothing has been read. -/
def empty : Level :=
  ⟨[], []⟩

/- Add an operand and go on with the same conjunction. -/
def pushOperand
    (level : Level)
    (n : Node) :
    Level :=
  { level with operands := n :: level.operands }

/- The conjunction that ends with the operand. -/
def conjunction
    (level : Level)
    (n : Node) :
    Node :=
  Node.connect .and (n :: level.operands).reverse

/- Add the last operand of a conjunction. -/
def pushConjunction
    (level : Level)
    (n : Node) :
    Level :=
  ⟨level.conjunction n :: level.conjunctions, []⟩

/- The tree of a level that ends with the operand. -/
def close
    (level : Level)
    (n : Node) :
    Node :=
  Node.connect .or
    (level.conjunction n :: level.conjunctions).reverse

end Level

/-
  A group that is still open: whether it is negated, and the
  level around it.
-/
structure Group where
  negated : Bool
  outer : Level

/- The operand that a closed group stands for. -/
def Group.operand
    (group : Group)
    (n : Node) :
    Node :=
  if group.negated then n.negate else n

end FilterQuery

------------------------------------------------------------
-- States
------------------------------------------------------------

namespace FilterQuery

/- The left side of a comparison and where it starts. -/
structure Head where
  operator : Operator
  selector : String
  start : Nat

/-
  What has been read of the current operand: nothing, an
  exclamation mark, a selector, a symbol, the opening
  parenthesis of a list, arguments of a list (latest first),
  or all of it.  A list after a comma wants one more argument.
-/
inductive Phase
  | operand
  | negation
  | selector (selector : String) (start : Nat)
  | symbol (head : Head)
  | list (head : Head) (arguments : List String)
  | argument
      (head : Head) (argument : String)
      (arguments : List String)
  | complete (n : Node)

/- The state of reading a query. -/
structure State where
  groups : List Group
  level : Level
  phase : Phase

namespace State

/- The state before the first token. -/
def start : State :=
  ⟨[], .empty, .operand⟩

/- The same state with another phase. -/
def goto
    (st : State)
    (phase : Phase) :
    State :=
  { st with phase := phase }

/- The state inside a group that opens here. -/
def openGroup
    (st : State)
    (negated : Bool) :
    State :=
  ⟨⟨negated, st.level⟩ :: st.groups, .empty, .operand⟩

/- What the grammar allows in a state. -/
def expected (st : State) : Expected :=
  match st.phase with
  | .operand => .operand
  | .negation => .group
  | .selector _ _ => .symbol
  | .symbol _ => .argument
  | .list _ _ => .argument
  | .argument _ _ _ => .closing
  | .complete _ =>
      match st.groups with
      | [] => .connective
      | _ :: _ => .closing

end State

end FilterQuery

------------------------------------------------------------
-- Steps
------------------------------------------------------------

namespace FilterQuery

/-
  An error that ends the reading, and whether the token at
  which it was found had been consumed.
-/
structure Halt where
  error : ParseError
  consumed : Bool

namespace State

/- The token is not allowed in the state. -/
def reject
    (st : State)
    (x : Lexeme) :
    Except Halt State :=
  .error
    ⟨.unexpectedToken st.expected x.token x.start, false⟩

/- Complete a comparison, which is checked only now. -/
def compare
    (st : State)
    (head : Head)
    (arguments : List String) :
    Except Halt State :=
  match Comparison.ofParts head.operator head.selector
      arguments with
  | .ok c => .ok (st.goto (.complete (.comparison c)))
  | .error cause =>
      .error ⟨.invalidNode head.start cause, true⟩

/- A token where an operand must start. -/
def stepOperand
    (st : State)
    (x : Lexeme) :
    Except Halt State :=
  match x.token with
  | .openParen => .ok (st.openGroup false)
  | .bang => .ok (st.goto .negation)
  | t =>
      match t.value? with
      | some value => .ok (st.goto (.selector value x.start))
      | none => st.reject x

/- A token where a comparison operator must stand. -/
def stepSelector
    (R : Registry)
    (st : State)
    (selector : String)
    (start : Nat)
    (x : Lexeme) :
    Except Halt State :=
  match x.token with
  | .operator symbol =>
      match R.get? symbol with
      | some operator =>
          .ok (st.goto (.symbol ⟨operator, selector, start⟩))
      | none =>
          .error
            ⟨.invalidNode x.start (.unknownOperator symbol),
              false⟩
  | _ => st.reject x

/- A token after the operator of a comparison. -/
def stepSymbol
    (st : State)
    (head : Head)
    (x : Lexeme) :
    Except Halt State :=
  match x.token with
  | .openParen => .ok (st.goto (.list head []))
  | t =>
      match t.value? with
      | some value => st.compare head [value]
      | none => st.reject x

/- A token where an argument of a list must stand. -/
def stepList
    (st : State)
    (head : Head)
    (arguments : List String)
    (x : Lexeme) :
    Except Halt State :=
  match x.token.value? with
  | some value =>
      .ok (st.goto (.argument head value arguments))
  | none => st.reject x

/- A token after an argument of a list. -/
def stepArgument
    (st : State)
    (head : Head)
    (argument : String)
    (arguments : List String)
    (x : Lexeme) :
    Except Halt State :=
  match x.token with
  | .comma => .ok (st.goto (.list head (argument :: arguments)))
  | .closeParen =>
      st.compare head (argument :: arguments).reverse
  | _ => st.reject x

/- A token after an operand. -/
def stepComplete
    (st : State)
    (n : Node)
    (x : Lexeme) :
    Except Halt State :=
  match x.token with
  | .semicolon =>
      .ok ⟨st.groups, st.level.pushOperand n, .operand⟩
  | .comma =>
      .ok ⟨st.groups, st.level.pushConjunction n, .operand⟩
  | .closeParen =>
      match st.groups with
      | [] => st.reject x
      | group :: groups =>
          .ok ⟨groups, group.outer,
            .complete (group.operand (st.level.close n))⟩
  | _ => st.reject x

/- Read one token. -/
def step
    (R : Registry)
    (st : State)
    (x : Lexeme) :
    Except Halt State :=
  match st.phase with
  | .operand => st.stepOperand x
  | .negation =>
      match x.token with
      | .openParen => .ok (st.openGroup true)
      | _ => st.reject x
  | .selector selector start =>
      st.stepSelector R selector start x
  | .symbol head => st.stepSymbol head x
  | .list head arguments => st.stepList head arguments x
  | .argument head argument arguments =>
      st.stepArgument head argument arguments x
  | .complete n => st.stepComplete n x

/- The tree read when the query ends in the state. -/
def finish (st : State) : Except ParseError Node :=
  match st.phase, st.groups with
  | .complete n, [] => .ok (st.level.close n)
  | _, _ => .error (.unexpectedEnd st.expected)

end State

end FilterQuery

------------------------------------------------------------
-- Runs
------------------------------------------------------------

namespace FilterQuery

namespace State

/-
  Read lexemes until the query ends or an error is found, and
  say which lexemes are left.
-/
def run
    (R : Registry) :
    State → List Lexeme → Except ParseError Node × List Lexeme
| st, [] => (st.finish, [])
| st, x :: xs =>
    match st.step R x with
    | .ok st' => run R st' xs
    | .error halt =>
        (.error halt.error, if halt.consumed then xs else x :: xs)

end State

end FilterQuery
