import FilterQuery.Operator.Symbol

/-
  This file defines comparison operators and the ways to make
  one.

  Key definitions include:
    * `FilterQuery.ConfigError`
    * `FilterQuery.Operator`
    * `FilterQuery.Operator.ofSymbols`
    * `FilterQuery.Operator.same`
    * `FilterQuery.Builtin`
    * `FilterQuery.Definition`

  An operator is identified by its canonical symbol.  The
  alternate spellings are carried along and written to
  configuration, but no query can use them.
-/

------------------------------------------------------------
-- Configuration Errors
------------------------------------------------------------

namespace FilterQuery

/- Reasons why operators cannot be configured. -/
inductive ConfigError
  | emptySymbols
  | invalidSymbol (symbol : String)
  | emptyOperators
deriving DecidableEq, Repr

/- The text of a configuration error. -/
def ConfigError.message : ConfigError → String
| .emptySymbols => "Operator symbols must not be empty"
| .invalidSymbol symbol =>
    s!"Invalid operator symbol '{symbol}': must match " ++
      Symbol.pattern
| .emptyOperators => "Operator set must not be empty"

end FilterQuery

------------------------------------------------------------
-- Operators
------------------------------------------------------------

namespace FilterQuery

/-
  A comparison operator: its canonical symbol, its alternate
  spellings, and whether it takes a list of arguments.  Every
  spelling is a valid symbol.
-/
structure Operator where
  symbol : String
  alternates : List String
  multiValue : Bool
  valid :
    ∀ s ∈ symbol :: alternates, Symbol.isValid s = true
deriving DecidableEq, Repr

namespace Operator

/- All spellings, the canonical one first. -/
def symbols (op : Operator) : List String :=
  op.symbol :: op.alternates

/- The first spelling that is no symbol. -/
def firstInvalid? (symbols : List String) : Option String :=
  symbols.find? fun s => !Symbol.isValid s

/- Spellings are valid if none is found to be invalid. -/
theorem isValid_of_firstInvalid?
    {symbols : List String}
    (hNone : firstInvalid? symbols = none) :
    ∀ s ∈ symbols, Symbol.isValid s = true := by
  intro s hs
  simpa using List.find?_eq_none.mp hNone s hs

/- No valid spelling is found to be invalid. -/
theorem firstInvalid?_eq_none
    {symbols : List String}
    (hValid : ∀ s ∈ symbols, Symbol.isValid s = true) :
    firstInvalid? symbols = none := by
  apply List.find?_eq_none.mpr
  intro s hs
  simp [hValid s hs]

/-
  Make an operator from its spellings, the canonical one
  first.  The first spelling that is no symbol is the error.
-/
def ofSymbols
    (symbols : List String)
    (multiValue : Bool) :
    Except ConfigError Operator :=
  match symbols with
  | [] => .error .emptySymbols
  | symbol :: alternates =>
      match hFirst : firstInvalid? (symbol :: alternates) with
      | some bad => .error (.invalidSymbol bad)
      | none =>
          .ok ⟨symbol, alternates, multiValue,
            isValid_of_firstInvalid? hFirst⟩

/- Operators are the same when their symbols are equal. -/
def same (op other : Operator) : Bool :=
  op.symbol == other.symbol

/- A hash code on which the same operators agree. -/
def hashCode (op : Operator) : UInt64 :=
  hash op.symbol

/- An operator made from spellings has those spellings. -/
theorem symbols_of_ofSymbols
    {symbols : List String}
    {multiValue : Bool}
    {op : Operator}
    (hMade : ofSymbols symbols multiValue = .ok op) :
    op.symbols = symbols ∧ op.multiValue = multiValue := by
  unfold ofSymbols at hMade
  split at hMade
  · simp at hMade
  · split at hMade
    · simp at hMade
    · simp only [Except.ok.injEq] at hMade
      subst hMade
      exact ⟨rfl, rfl⟩

/- The spellings of an operator make that operator again. -/
theorem ofSymbols_symbols
    (op : Operator) :
    ofSymbols op.symbols op.multiValue = .ok op := by
  have hNone := firstInvalid?_eq_none op.valid
  unfold ofSymbols
  simp only [symbols]
  split
  · rename_i hSome
    simp [hNone] at hSome
  · rfl

end Operator

end FilterQuery

------------------------------------------------------------
-- Built-In Operators
------------------------------------------------------------

namespace FilterQuery

/- The operators that need no configuration. -/
inductive Builtin
  | equal
  | notEqual
  | greaterThan
  | greaterThanOrEqual
  | lessThan
  | lessThanOrEqual
  | inList
  | notInList
deriving DecidableEq, Repr

namespace Builtin

/- The operator behind the name. -/
def operator : Builtin → Operator
| .equal => ⟨"==", [], false, by decide⟩
| .notEqual => ⟨"!=", [], false, by decide⟩
| .greaterThan => ⟨"=gt=", [">"], false, by decide⟩
| .greaterThanOrEqual => ⟨"=ge=", [">="], false, by decide⟩
| .lessThan => ⟨"=lt=", ["<"], false, by decide⟩
| .lessThanOrEqual => ⟨"=le=", ["<="], false, by decide⟩
| .inList => ⟨"=in=", [], true, by decide⟩
| .notInList => ⟨"=out=", [], true, by decide⟩

end Builtin

/-
  A description of an operator: spellings still to be
  checked, or the name of a built-in operator.
-/
inductive Definition
  | spelled (symbols : List String) (multiValue : Bool)
  | builtin (name : Builtin)
deriving Repr

/- The operator that a definition describes. -/
def Definition.operator :
    Definition → Except ConfigError Operator
| .spelled symbols multiValue =>
    Operator.ofSymbols symbols multiValue
| .builtin name => .ok name.operator

end FilterQuery
