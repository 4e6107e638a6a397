import FilterQuery.Node.Measure
import FilterQuery.Query.Parse

/-
  This file defines the events that are logged while a
  registry is built and a query is parsed.

  Key definitions include:
    * `FilterQuery.LogLevel`
    * `FilterQuery.LogEvent`
    * `FilterQuery.Registry.buildEvents`
    * `FilterQuery.Registry.parseEvents`
    * `FilterQuery.OperatorSet.events`
-/

------------------------------------------------------------
-- Events
------------------------------------------------------------

namespace FilterQuery

/- How much attention an event deserves. -/
inductive LogLevel
  | warn
  | debug
  | trace
deriving DecidableEq, Repr

/- The level as a word. -/
def LogLevel.name : LogLevel → String
| .warn => "WARN"
| .debug => "DEBUG"
| .trace => "TRACE"

/- A logged message. -/
structure LogEvent where
  level : LogLevel
  message : String
deriving DecidableEq, Repr

namespace LogEvent

/- An operator is dropped because its symbol is taken. -/
def dropped (op : Operator) : LogEvent :=
  ⟨.warn,
    s!"Dropping duplicate comparison operator: {op.symbol}"⟩

/- A registry has been built. -/
def built (size : Nat) : LogEvent :=
  ⟨.debug, s!"Built operator registry with {size} operators"⟩

/- A query is about to be parsed. -/
def parsing (query : String) : LogEvent :=
  ⟨.debug, s!"Parsing query of {query.utf8ByteSize} bytes"⟩

/- A token has been read. -/
def token (x : Lexeme) : LogEvent :=
  ⟨.trace,
    s!"Token {x.token.describe} at {x.start}..{x.stop}"⟩

/- A query has been parsed or rejected. -/
def result : Except ParseError Node → LogEvent
| .ok n => ⟨.debug, s!"Parsed query into {n.count} nodes"⟩
| .error e => ⟨.debug, s!"Rejected query: {e.message}"⟩

end LogEvent

end FilterQuery

------------------------------------------------------------
-- Journals
------------------------------------------------------------

namespace FilterQuery

namespace Registry

/-
  The events of building a registry: the dropped operators,
  and the number of kept ones unless there is none.
-/
def buildEvents (ops : List Operator) : List LogEvent :=
  let intake := Intake.ofList ops
  intake.dropped.map .dropped ++
    match intake.kept with
    | [] => []
    | kept => [.built kept.length]

/-
  The events of parsing a query.  The tokens before a lexical
  error are listed too.
-/
def parseEvents
    (R : Registry)
    (query : String) :
    List LogEvent :=
  .parsing query ::
    ((Lexing.ofString query).lexemes.map .token ++
      [.result (R.parse query)])

end Registry

namespace OperatorSet

/-
  The events of preparing definitions: those of building the
  registry, if all definitions describe operators.
-/
def definitionEvents
    (definitions : List Definition) :
    List LogEvent :=
  match definitions.mapM Definition.operator with
  | .ok ops => Registry.buildEvents ops
  | .error _ => []

/- The events of preparing an operator set. -/
def events : OperatorSet → List LogEvent
| .basic => []
| .standard => []
| .extended => definitionEvents extendedDefinitions
| .listed definitions => definitionEvents definitions

end OperatorSet

end FilterQuery
