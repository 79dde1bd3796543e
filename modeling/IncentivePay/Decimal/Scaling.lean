import IncentivePay.Binary64.Arithmetic
import IncentivePay.Decimal.Numeral

/-!
# Reading numerals by scaling

`Numeral.scaled` reads a numeral with the arithmetic of the format itself.
The leading digits, as many as sixty-four bits hold, are taken as a whole
number and rounded to the format; the number is then multiplied or divided by
a power of ten, which is rounded to the format too.

Each step rounds, so the result may miss the nearest number, which is
`Numeral.toBinary64`.  It is exact when fifty-three bits hold the digits and
no scaling is needed.  A numeral close to the bound of the format may run
over to an infinity, and one close to the unit may vanish.
-/

namespace IncentivePay

namespace Numeral

/--
Writes digits after a whole number for as long as sixty-four bits hold the
result, and hands back the digits that are left.
-/
def extend
    (start : Nat) :
    List Char →
    Nat × List Char
  | [] => (start, [])
  | digit :: digits =>
      let longer := start * 10 + (digit.toNat - '0'.toNat)
      if longer < UInt64.size then
        extend longer digits
      else
        (start, digit :: digits)

/--
The decimal of the leading digits of a numeral.  The digits after the point
are written after what was taken of those before it.  A digit before the
point that is left counts as a place; one after the point counts for nothing.
-/
def leading (numeral : Numeral) : Decimal :=
  let (whole, wholeLeft) := extend 0 numeral.whole
  let (coefficient, fractionLeft) := extend whole numeral.fraction
  let places := numeral.fraction.length - fractionLeft.length
  ⟨coefficient, numeral.exponent + wholeLeft.length - places⟩

end Numeral

namespace Binary64

/-- The exponent of the greatest power of ten in the format. -/
def maxTenExponent : Nat :=
  308

/-- The number nearest to a power of ten. -/
def powerOfTen (exponent : Nat) : Binary64 :=
  Decimal.toBinary64 false ⟨1, exponent⟩

/--
A number that is not negative, multiplied by a power of ten.  A power beyond
the format takes every number but zero to infinity.
-/
def scaleUp
    (value : Binary64)
    (exponent : Nat) :
    Binary64 :=
  if exponent ≤ maxTenExponent then
    value.multiply (powerOfTen exponent)
  else if value = zero then
    zero
  else
    infinity

/--
A number that is not negative, divided by a power of ten.  For a power beyond
the format the division goes by steps of the greatest power in it, until the
rest is a power of the format or the number has vanished.
-/
def scaleDown
    (value : Binary64)
    (exponent : Nat) :
    Binary64 :=
  if exponent ≤ maxTenExponent then
    value.divide (powerOfTen exponent)
  else if value = zero then
    zero
  else
    scaleDown
      (value.divide (powerOfTen maxTenExponent))
      (exponent - maxTenExponent)
termination_by exponent
decreasing_by
  simp only [maxTenExponent] at *
  omega

/-- A number that is not negative, times a power of ten. -/
def scale
    (value : Binary64) :
    (exponent : Int) →
    Binary64
  | .ofNat exponent => value.scaleUp exponent
  | .negSucc exponent => value.scaleDown (exponent + 1)

end Binary64

/-- The number that a numeral denotes by its leading digits, with a sign. -/
def Numeral.scaled
    (negative : Bool)
    (numeral : Numeral) :
    Binary64 :=
  let decimal := numeral.leading
  let magnitude :=
    (Binary64.ofNat decimal.coefficient).scale decimal.exponent
  if negative then magnitude.negate else magnitude

end IncentivePay
