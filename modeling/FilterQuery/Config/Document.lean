import FilterQuery.Config.Number
import FilterQuery.Text.Hidden

/-
  This file defines configuration documents: values made of
  scalars, lists and objects.

  Key definitions include:
    * `FilterQuery.Document`
    * `FilterQuery.Document.debugText`
    * `FilterQuery.Document.describe`
-/

------------------------------------------------------------
-- Documents
------------------------------------------------------------

namespace FilterQuery

/-
  A configuration value.  The keys of an object are distinct,
  and their order carries no meaning.
-/
inductive Document
  | null
  | bool (value : Bool)
  | number (value : Number)
  | string (value : String)
  | list (items : List Document)
  | object (fields : List (String × Document))
deriving Repr

end FilterQuery

------------------------------------------------------------
-- Text In Messages
------------------------------------------------------------

namespace FilterQuery

namespace Document

/- A character inside the quoted text of a message. -/
def debugChar (c : Char) : List Char :=
  match c with
  | '"' => ['\\', '"']
  | '\\' => ['\\', '\\']
  | '\n' => ['\\', 'n']
  | '\r' => ['\\', 'r']
  | '\t' => ['\\', 't']
  | '\x00' => ['\\', '0']
  | _ =>
      if Text.isHidden c then
        ['\\', 'u', '\x7b'] ++ Nat.toDigits 16 c.toNat ++
          ['\x7d']
      else
        [c]

/-
  A text between double quotes, with escapes for quotes,
  backslashes and hidden characters.
-/
def debugText (text : String) : String :=
  String.ofList ('"' :: (text.toList.flatMap debugChar ++ ['"']))

/- The kind of a value, with the value if it is a scalar. -/
def describe : Document → String
| .null => "null"
| .bool value => s!"boolean `{value}`"
| .number value => value.describe
| .string value => s!"string {debugText value}"
| .list _ => "sequence"
| .object _ => "map"

end Document

end FilterQuery
