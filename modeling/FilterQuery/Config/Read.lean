import FilterQuery.Config.Document
import FilterQuery.Node.Basic

/-
  This file defines how operators, registries and connectives
  are read from configuration documents.

  Key definitions include:
    * `FilterQuery.DocumentError`
    * `FilterQuery.DocumentError.message`
    * `FilterQuery.Operator.ofDocument`
    * `FilterQuery.Registry.ofDocument`
    * `FilterQuery.Connective.ofDocument`

  An operator is an object with its spellings and, where it
  takes a list of arguments, a mark of that; or a list of the
  two.  All types of one operator are checked before its
  spellings are, and one operator after the other.
-/

------------------------------------------------------------
-- Document Errors
------------------------------------------------------------

namespace FilterQuery

/- What a document was expected to hold. -/
inductive Wanted
  | operator
  | sequence
  | string
  | boolean
  | connective
  | unit
deriving DecidableEq, Repr

/- The expectation as error messages name it. -/
def Wanted.describe : Wanted → String
| .operator => "struct OperatorDefinition"
| .sequence => "a sequence"
| .string => "a string"
| .boolean => "a boolean"
| .connective => "string or map"
| .unit => "unit"

/- Reasons why a document cannot be read. -/
inductive DocumentError
  | invalidType (got : Document) (wanted : Wanted)
  | missingField (name : String)
  | noElements
  | tooManyElements (count : Nat)
  | unknownVariant (name : String)
  | notSingleKey
  | config (cause : ConfigError)
deriving Repr

/- The text of a document error. -/
def DocumentError.message : DocumentError → String
| .invalidType got wanted =>
    s!"invalid type: {got.describe}, " ++
      s!"expected {wanted.describe}"
| .missingField name => s!"missing field `{name}`"
| .noElements =>
    "invalid length 0, expected " ++
      "struct OperatorDefinition with 2 elements"
| .tooManyElements count =>
    s!"invalid length {count}, " ++
      "expected fewer elements in array"
| .unknownVariant name =>
    s!"unknown variant `{name}`, " ++
      "expected one of `AND`, `OR`, `NOT`"
| .notSingleKey =>
    "invalid value: map, expected map with a single key"
| .config cause => cause.message

end FilterQuery

------------------------------------------------------------
-- Scalars And Lists
------------------------------------------------------------

namespace FilterQuery

namespace Document

/- The text of a string. -/
def toText : Document → Except DocumentError String
| .string value => .ok value
| d => .error (.invalidType d .string)

/- The truth value of a boolean. -/
def toTruth : Document → Except DocumentError Bool
| .bool value => .ok value
| d => .error (.invalidType d .boolean)

/- The texts of a list of strings. -/
def toTexts : Document → Except DocumentError (List String)
| .list items => items.mapM toText
| d => .error (.invalidType d .sequence)

end Document

end FilterQuery

------------------------------------------------------------
-- Operators And Registries
------------------------------------------------------------

namespace FilterQuery

namespace Operator

/-
  The spellings and the arity of an object's fields.  The
  arity is read first and is single if it is left out; other
  fields are ignored.
-/
def partsOfFields
    (fields : List (String × Document)) :
    Except DocumentError (List String × Bool) := do
  let multiValue ←
    match fields.lookup "multi_value" with
    | some d => d.toTruth
    | none => .ok false
  match fields.lookup "symbols" with
  | some d => return (← d.toTexts, multiValue)
  | none => .error (.missingField "symbols")

/-
  The spellings and the arity by position.  The arity may be
  left out.
-/
def partsOfItems :
    List Document → Except DocumentError (List String × Bool)
| [] => .error .noElements
| [symbols] => do
    return (← symbols.toTexts, false)
| [symbols, multiValue] => do
    return (← symbols.toTexts, ← multiValue.toTruth)
| symbols :: multiValue :: more => do
    let _ ← symbols.toTexts
    let _ ← multiValue.toTruth
    .error (.tooManyElements (more.length + 2))

/- The spellings and the arity of an operator. -/
def partsOfDocument :
    Document → Except DocumentError (List String × Bool)
| .object fields => partsOfFields fields
| .list items => partsOfItems items
| d => .error (.invalidType d .operator)

/- Read an operator; its spellings are checked last. -/
def ofDocument
    (d : Document) :
    Except DocumentError Operator := do
  let (symbols, multiValue) ← partsOfDocument d
  (ofSymbols symbols multiValue).mapError .config

end Operator

/- Read a registry from a list of operators. -/
def Registry.ofDocument :
    Document → Except DocumentError Registry
| .list items => do
    let ops ← items.mapM Operator.ofDocument
    (Registry.ofList ops).mapError .config
| d => .error (.invalidType d .sequence)

end FilterQuery

------------------------------------------------------------
-- Connectives
------------------------------------------------------------

namespace FilterQuery

namespace Connective

/- The connective of a word. -/
def ofName : String → Except DocumentError Connective
| "AND" => .ok .and
| "OR" => .ok .or
| "NOT" => .ok .not
| name => .error (.unknownVariant name)

/-
  Read a connective from its name, which may also be the one
  key of an object whose value is null.
-/
def ofDocument : Document → Except DocumentError Connective
| .string name => ofName name
| .object [(name, content)] => do
    let connective ← ofName name
    match content with
    | .null => return connective
    | d => .error (.invalidType d .unit)
| .object _ => .error .notSingleKey
| d => .error (.invalidType d .connective)

end Connective

end FilterQuery
