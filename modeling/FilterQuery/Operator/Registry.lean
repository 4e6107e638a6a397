import FilterQuery.Operator.Basic
import FilterQuery.Operator.Places

/-
  This file defines registries: the comparison operators that
  a query may use, looked up by canonical symbol.

  Key definitions include:
    * `FilterQuery.Intake`
    * `FilterQuery.Registry`
    * `FilterQuery.Registry.ofList`
    * `FilterQuery.Registry.get?`
    * `FilterQuery.Registry.position?`
    * `FilterQuery.Registry.same`
    * `FilterQuery.OperatorSet`

  A registry is never empty and holds one operator for each
  canonical symbol.  Of several operators with one symbol the
  first is kept and the others are dropped.  A map from the
  canonical symbols to the places of their operators is built
  along with the list, and lookups go through that map.
-/

------------------------------------------------------------
-- Intake
------------------------------------------------------------

namespace FilterQuery

/-
  Operators sorted into those kept, with the places of their
  canonical symbols, and those dropped because their canonical
  symbol was already taken.
-/
structure Intake where
  kept : List Operator
  places : Places
  dropped : List Operator

namespace Intake

/- Nothing has been taken in. -/
def empty : Intake :=
  ⟨[], ∅, []⟩

/- Take in one more operator. -/
def add
    (intake : Intake)
    (op : Operator) :
    Intake :=
  if intake.places.contains op.symbol then
    { intake with dropped := intake.dropped ++ [op] }
  else
    { intake with
      kept := intake.kept ++ [op]
      places := intake.places.insert op.symbol
        intake.kept.length }

/- Take in operators in order. -/
def ofList (ops : List Operator) : Intake :=
  ops.foldl add empty

/- The map is in step with the operators kept so far. -/
def InStep (intake : Intake) : Prop :=
  intake.places.Locates (intake.kept.map Operator.symbol)

/- Before anything is taken in the map is in step. -/
theorem inStep_empty : empty.InStep :=
  Places.locates_nil

/- Taking in one more operator keeps the map in step. -/
theorem inStep_add
    {intake : Intake}
    (hStep : intake.InStep)
    (op : Operator) :
    (intake.add op).InStep := by
  unfold add
  split
  · exact hStep
  · rename_i hNew
    rw [Bool.not_eq_true] at hNew
    have hSnoc := Places.Locates.snoc hStep hNew
    rw [List.length_map] at hSnoc
    unfold InStep
    rw [List.map_append]
    exact hSnoc

/- Taking in operators keeps the map in step. -/
theorem inStep_foldl
    {intake : Intake}
    (hStep : intake.InStep)
    (ops : List Operator) :
    (ops.foldl add intake).InStep := by
  induction ops generalizing intake with
  | nil =>
      exact hStep
  | cons op ops ih =>
      exact ih (inStep_add hStep op)

/- After taking in a list the map is in step. -/
theorem inStep_ofList
    (ops : List Operator) :
    (ofList ops).InStep :=
  inStep_foldl inStep_empty ops

end Intake

end FilterQuery

------------------------------------------------------------
-- Registries
------------------------------------------------------------

namespace FilterQuery

/-
  A non-empty list of operators in order of registration, and
  the places of their canonical symbols.  As each symbol has
  one place, the symbols are distinct.
-/
structure Registry where
  operators : List Operator
  places : Places
  nonempty : operators ≠ []
  located : places.Locates (operators.map Operator.symbol)

namespace Registry

/- Build a registry; later duplicates are dropped. -/
def ofList
    (ops : List Operator) :
    Except ConfigError Registry :=
  if h : (Intake.ofList ops).kept = [] then
    .error .emptyOperators
  else
    .ok ⟨(Intake.ofList ops).kept, (Intake.ofList ops).places,
      h, Intake.inStep_ofList ops⟩

/- The registry of operators with distinct symbols. -/
def ofDistinct
    (ops : List Operator)
    (nonempty : ops ≠ [])
    (distinct : (ops.map Operator.symbol).Nodup) :
    Registry where
  operators := ops
  places := .ofList (ops.map Operator.symbol).zipIdx
  nonempty := nonempty
  located := Places.locates_zipIdx distinct

/- The canonical symbols in order of registration. -/
def symbols (R : Registry) : List String :=
  R.operators.map Operator.symbol

/- The number of operators. -/
def size (R : Registry) : Nat :=
  R.operators.length

/- The place of a canonical symbol in registration order. -/
def position?
    (R : Registry)
    (symbol : String) :
    Option Nat :=
  R.places[symbol]?

/- A canonical symbol has a place among the operators. -/
theorem lt_length_of_position?
    {R : Registry}
    {symbol : String}
    {i : Nat}
    (hPlace : R.position? symbol = some i) :
    i < R.operators.length := by
  have hLt := R.located.lt_length hPlace
  rw [List.length_map] at hLt
  exact hLt

/- The operator whose canonical symbol is given. -/
def get?
    (R : Registry)
    (symbol : String) :
    Option Operator :=
  match hPlace : R.position? symbol with
  | none => none
  | some i =>
      have := lt_length_of_position? hPlace
      some R.operators[i]

/- Whether the text is a registered canonical symbol. -/
def contains
    (R : Registry)
    (symbol : String) :
    Bool :=
  R.places.contains symbol

/-
  Registries are the same when their operators are the same
  in the same order, and their maps are equal.
-/
def same (R S : Registry) : Bool :=
  R.operators.isEqv S.operators Operator.same &&
    R.places == S.places

/- The operator found is the one at the place of the symbol. -/
theorem get?_eq_some_iff
    {R : Registry}
    {symbol : String}
    {op : Operator} :
    R.get? symbol = some op ↔
      ∃ i,
        R.position? symbol = some i ∧
          R.operators[i]? = some op := by
  unfold get?
  split
  · rename_i hNone
    simp [hNone]
  · rename_i i hPlace
    have hLt := lt_length_of_position? hPlace
    simp [hPlace, List.getElem?_eq_getElem hLt]

/- An operator found has the symbol it was looked up by. -/
theorem symbol_of_get?
    {R : Registry}
    {symbol : String}
    {op : Operator}
    (hGet : R.get? symbol = some op) :
    op.symbol = symbol := by
  rcases get?_eq_some_iff.mp hGet with ⟨i, hPlace, hOperator⟩
  have hSymbol := (R.located symbol i).mp hPlace
  rw [List.getElem?_map, hOperator] at hSymbol
  exact Option.some.inj hSymbol

/- Containing a symbol means that the lookup succeeds. -/
theorem contains_iff_get?
    (R : Registry)
    (symbol : String) :
    R.contains symbol = true ↔
      ∃ op, R.get? symbol = some op := by
  unfold contains
  rw [Std.ExtTreeMap.contains_eq_isSome_getElem?,
    Option.isSome_iff_exists]
  constructor
  · rintro ⟨i, hPlace⟩
    have hLt := lt_length_of_position? hPlace
    exact ⟨_, get?_eq_some_iff.mpr
      ⟨i, hPlace, List.getElem?_eq_getElem hLt⟩⟩
  · rintro ⟨op, hGet⟩
    rcases get?_eq_some_iff.mp hGet with ⟨i, hPlace, _⟩
    exact ⟨i, hPlace⟩

end Registry

end FilterQuery

------------------------------------------------------------
-- Ready-Made Registries
------------------------------------------------------------

namespace FilterQuery

namespace Registry

/- `==` and the many-valued `=in=`. -/
def basic : Registry :=
  ofDistinct ([Builtin.equal, .inList].map Builtin.operator)
    (by decide) (by decide)

/- All built-in operators. -/
def standard : Registry :=
  ofDistinct
    ([Builtin.equal, .notEqual, .greaterThan,
      .greaterThanOrEqual, .lessThan, .lessThanOrEqual,
      .inList, .notInList].map Builtin.operator)
    (by decide) (by decide)

end Registry

/-
  Definitions in which each operator has one spelling and the
  order comparisons are angle brackets.
-/
def extendedDefinitions : List Definition :=
  [.spelled ["=="] false, .spelled ["=in="] true,
    .spelled ["!="] false, .spelled ["=out="] true,
    .spelled [">"] false, .spelled ["<"] false,
    .spelled [">="] false, .spelled ["<="] false]

/- Build a registry from definitions, first to last. -/
def Registry.ofDefinitions
    (definitions : List Definition) :
    Except ConfigError Registry :=
  (definitions.mapM Definition.operator).bind Registry.ofList

/- The operator sets that a parser can be asked for. -/
inductive OperatorSet
  | basic
  | standard
  | extended
  | listed (definitions : List Definition)
deriving Repr

/- The registry of an operator set. -/
def OperatorSet.registry :
    OperatorSet → Except ConfigError Registry
| .basic => .ok Registry.basic
| .standard => .ok Registry.standard
| .extended => Registry.ofDefinitions extendedDefinitions
| .listed definitions => Registry.ofDefinitions definitions

end FilterQuery
