import FilterQuery.Config.Decimal

/-
  This file defines binary numbers of limited precision.

  Key definitions include:
    * `FilterQuery.Binary`
    * `FilterQuery.Binary.nearest`
    * `FilterQuery.Binary.times`
    * `FilterQuery.Binary.dividedBy`
    * `FilterQuery.Binary.ofDecimal?`
    * `FilterQuery.Binary.shortest`

  A binary number has at most 53 significant bits.  Products
  and quotients are rounded to the nearest binary number, and
  a decimal is read by one product or by quotients, each of
  them rounded.  A binary number is shown by the fewest
  decimal digits that are nearest to it.
-/

------------------------------------------------------------
-- Rounding
------------------------------------------------------------

namespace FilterQuery

/- The number `mantissa * 2 ^ exponent`. -/
structure Binary where
  mantissa : Nat
  exponent : Int
deriving DecidableEq, Repr

namespace Binary

/- A power of two. -/
def power (exponent : Nat) : Nat :=
  Nat.pow 2 exponent

/- The binary number as a fraction of two natural numbers. -/
def fraction (b : Binary) : Nat × Nat :=
  (b.mantissa * power b.exponent.toNat,
    power (-b.exponent).toNat)

/- The least exponent of a binary number. -/
def leastExponent : Int :=
  -1074

/- The greatest exponent of a binary number. -/
def greatestExponent : Int :=
  971

/- The quotient rounded to the nearest, ties to even. -/
def roundDiv (above below : Nat) : Nat :=
  let quotient := above / below
  let twice := 2 * (above % below)
  if twice < below then
    quotient
  else if below < twice then
    quotient + 1
  else
    quotient + quotient % 2

/- The fraction divided by a power of two. -/
def scaleDown
    (above below : Nat)
    (exponent : Int) :
    Nat × Nat :=
  (above * power (-exponent).toNat,
    below * power exponent.toNat)

/-
  The binary number nearest to a fraction: the mantissa has 53
  bits unless the exponent would become too small.
-/
def nearest (above below : Nat) : Binary :=
  let guess : Int := (above.log2 : Int) - below.log2 - 53
  let (a, b) := scaleDown above below guess
  let fitted := if a < power 53 * b then guess else guess + 1
  let exponent := max fitted leastExponent
  let (a, b) := scaleDown above below exponent
  let mantissa := roundDiv a b
  if mantissa = power 53 then
    ⟨power 52, exponent + 1⟩
  else
    ⟨mantissa, exponent⟩

end Binary

end FilterQuery

------------------------------------------------------------
-- Products And Quotients
------------------------------------------------------------

namespace FilterQuery

namespace Binary

/- The product, rounded to the nearest. -/
def times (a b : Binary) : Binary :=
  nearest (a.fraction.1 * b.fraction.1)
    (a.fraction.2 * b.fraction.2)

/- The quotient, rounded to the nearest. -/
def dividedBy (a b : Binary) : Binary :=
  nearest (a.fraction.1 * b.fraction.2)
    (a.fraction.2 * b.fraction.1)

/- The binary number nearest to a power of ten. -/
def powerOfTen (exponent : Nat) : Binary :=
  nearest (Decimal.power exponent) 1

/- The exponent of the greatest power of ten in range. -/
def greatestPower : Nat :=
  308

/-
  The quotient by a power of ten.  A power out of range is
  taken in steps, each of them rounded, until nothing is left.
-/
def shiftDown
    (b : Binary)
    (exponent : Nat) :
    Binary :=
  if exponent ≤ greatestPower then
    b.dividedBy (powerOfTen exponent)
  else if b.mantissa = 0 then
    b
  else
    (b.dividedBy (powerOfTen greatestPower)).shiftDown
      (exponent - greatestPower)
termination_by exponent
decreasing_by
  simp only [greatestPower] at *
  omega

/- The product with a power of ten, if it is in range. -/
def shiftUp?
    (b : Binary)
    (exponent : Nat) :
    Option Binary :=
  if b.mantissa = 0 then
    some b
  else if exponent ≤ greatestPower then
    let product := b.times (powerOfTen exponent)
    if product.exponent ≤ greatestExponent then
      some product
    else
      none
  else
    none

/-
  A decimal as a binary number: its digits are rounded first,
  then the product or quotient with the power of ten.
-/
def ofDecimal? (d : Decimal) : Option Binary :=
  let digits := nearest d.digits 1
  if d.exponent < 0 then
    some (digits.shiftDown (-d.exponent).toNat)
  else
    digits.shiftUp? d.exponent.toNat

end Binary

end FilterQuery

------------------------------------------------------------
-- Shortest Decimals
------------------------------------------------------------

namespace FilterQuery

namespace Binary

/-
  The decimal nearest to a fraction with a given exponent, or
  else its other neighbor, if the binary number is nearest to
  that decimal in turn.  Of two equally near decimals the one
  with an even last digit comes first.
-/
def onGrid
    (b : Binary)
    (above below : Nat)
    (exponent : Int) :
    Option Decimal :=
  let a := above * Decimal.power (-exponent).toNat
  let c := below * Decimal.power exponent.toNat
  let closest := roundDiv a c
  let other :=
    if closest = a / c then closest + 1 else a / c
  let neighbors : List Decimal :=
    [⟨closest, exponent⟩, ⟨other, exponent⟩]
  neighbors.find? fun d =>
    nearest d.fraction.1 d.fraction.2 == b

/-
  The shortest decimal that is nearest to the binary number,
  sought among the decimals with one more digit at each step.
-/
def shortestFrom
    (b : Binary)
    (above below : Nat) :
    Nat → Int → Option Decimal
| 0, _ => none
| steps + 1, exponent =>
    match b.onGrid above below exponent with
    | some d => some d
    | none => shortestFrom b above below steps (exponent - 1)

/- The number of decimal digits before the point. -/
def wholeDigits (above below : Nat) : Nat :=
  (Nat.toDigits 10 (above / below)).length

/-
  The fewest digits that round to the binary number.  A number
  below one is enlarged first, so that its digits are found by
  counting digits before the point.
-/
def shortest (b : Binary) : Decimal :=
  if b.mantissa = 0 then
    ⟨0, 0⟩
  else
    let (above, below) := b.fraction
    let top : Int :=
      (wholeDigits (above * Decimal.power 330) below : Int) -
        330
    (b.shortestFrom above below 20 (top - 1)).getD ⟨0, 0⟩

end Binary

end FilterQuery
