import FilterQuery.Config.Binary

/-
  This file defines the numbers of configuration documents,
  how they are read and how messages show them.

  Key definitions include:
    * `FilterQuery.Number`
    * `FilterQuery.Number.describe`
    * `FilterQuery.Literal`
    * `FilterQuery.Literal.integer?`
    * `FilterQuery.Literal.decimal`
    * `FilterQuery.Number.ofLiteral?`

  A literal without decimals and exponent that fits 64 bits is
  an integer.  Any other literal is a real.  Its digits count
  up to the first one with which they would not fit 64 bits;
  the remaining whole digits only count as places, and the
  remaining decimals not at all.
-/

------------------------------------------------------------
-- Numbers
------------------------------------------------------------

namespace FilterQuery

/-
  A number of a document: an integer, or a signed real given
  by the fewest digits that determine it.
-/
inductive Number
  | integer (value : Int)
  | real (negative : Bool) (size : Decimal)
deriving DecidableEq, Repr

namespace Number

/- The number as error messages show it. -/
def describe : Number → String
| .integer value => s!"integer `{value}`"
| .real negative size =>
    let sign := if negative then "-" else ""
    s!"floating point `{sign}{size.text}`"

end Number

end FilterQuery

------------------------------------------------------------
-- Literals
------------------------------------------------------------

namespace FilterQuery

/-
  A number as it is written: its sign, the digits before the
  point, the digits behind it and the exponent.
-/
structure Literal where
  negative : Bool
  whole : List Nat
  decimals : Option (List Nat)
  exponent : Option Int
deriving DecidableEq, Repr

namespace Literal

/- The greatest number of 64 bits. -/
def greatest : Nat :=
  18446744073709551615

/- The greatest size of a negative integer. -/
def greatestNegative : Nat :=
  9223372036854775808

/-
  The number that digits extend, up to the first digit with
  which it would exceed 64 bits, and the digits from there on.
-/
def gather (value : Nat) : List Nat → Nat × List Nat
| [] => (value, [])
| digit :: digits =>
    if value * 10 + digit ≤ greatest then
      gather (value * 10 + digit) digits
    else
      (value, digit :: digits)

/-
  The integer that a literal writes.  A negative zero is not
  an integer.
-/
def integer? (l : Literal) : Option Int :=
  match gather 0 l.whole, l.decimals, l.exponent with
  | (value, []), none, none =>
      if !l.negative then
        some value
      else if 0 < value && value ≤ greatestNegative then
        some (-value)
      else
        none
  | _, _, _ => none

/- The decimal of the digits that count. -/
def decimal (l : Literal) : Decimal :=
  let decimals := l.decimals.getD []
  let (whole, places) := gather 0 l.whole
  let (digits, dropped) := gather whole decimals
  let taken := decimals.length - dropped.length
  let exponent : Int := places.length - taken
  ⟨digits, exponent + l.exponent.getD 0⟩

end Literal

end FilterQuery

------------------------------------------------------------
-- Reading
------------------------------------------------------------

namespace FilterQuery

namespace Number

/- The number of a literal, unless it is out of range. -/
def ofLiteral? (l : Literal) : Option Number :=
  match l.integer? with
  | some value => some (.integer value)
  | none =>
      (Binary.ofDecimal? l.decimal).map fun b =>
        .real l.negative b.shortest

end Number

end FilterQuery
