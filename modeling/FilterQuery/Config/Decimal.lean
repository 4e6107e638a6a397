/-
  This file defines decimal numbers and their text.

  Key definitions include:
    * `FilterQuery.Decimal`
    * `FilterQuery.Decimal.fraction`
    * `FilterQuery.Decimal.magnitude`
    * `FilterQuery.Decimal.text`

  A decimal is written with a point among its digits when its
  first digit stands from the fifth place behind the point to
  the sixteenth before it.  Any other decimal is written with
  one digit before the point and a power of ten.
-/

------------------------------------------------------------
-- Decimals
------------------------------------------------------------

namespace FilterQuery

/- The number `digits * 10 ^ exponent`. -/
structure Decimal where
  digits : Nat
  exponent : Int
deriving DecidableEq, Repr

namespace Decimal

/- A power of ten. -/
def power (exponent : Nat) : Nat :=
  Nat.pow 10 exponent

/- The decimal as a fraction of two natural numbers. -/
def fraction (d : Decimal) : Nat × Nat :=
  (d.digits * power d.exponent.toNat,
    power (-d.exponent).toNat)

/- The power of ten that the first digit stands for. -/
def magnitude (d : Decimal) : Int :=
  (Nat.toDigits 10 d.digits).length - 1 + d.exponent

/- The digits without the zeros at their end; zero has none. -/
def figures (d : Decimal) : List Char :=
  ((Nat.toDigits 10 d.digits).reverse.dropWhile
    (· == '0')).reverse

end Decimal

end FilterQuery

------------------------------------------------------------
-- Text
------------------------------------------------------------

namespace FilterQuery

namespace Decimal

/- A row of zeros. -/
def zeros (count : Nat) : List Char :=
  List.replicate count '0'

/-
  Figures with a point behind the place of ones, where the
  first figure stands for a given power of ten.  At least one
  digit stands on each side of the point.
-/
def positional
    (figures : List Char)
    (magnitude : Int) :
    List Char :=
  if magnitude < 0 then
    '0' :: '.' :: (zeros (-magnitude - 1).toNat ++ figures)
  else
    let places := magnitude.toNat + 1
    let whole :=
      figures.take places ++ zeros (places - figures.length)
    let rest := figures.drop places
    whole ++ '.' :: (if rest.isEmpty then ['0'] else rest)

/-
  Figures with a point behind the first, if it is not the
  only one, and the signed power of ten.
-/
def scientific
    (figures : List Char)
    (magnitude : Int) :
    List Char :=
  let rest := figures.drop 1
  let sign := if magnitude < 0 then '-' else '+'
  figures.take 1 ++
    (if rest.isEmpty then [] else '.' :: rest) ++
    'e' :: sign :: Nat.toDigits 10 magnitude.natAbs

/- The text is positional. -/
def isPositional (d : Decimal) : Bool :=
  decide (-5 ≤ d.magnitude) && decide (d.magnitude < 16)

/- The text of a decimal. -/
def text (d : Decimal) : String :=
  String.ofList
    (if d.isPositional then
      positional d.figures d.magnitude
    else
      scientific d.figures d.magnitude)

end Decimal

end FilterQuery
