import IncentivePay.Binary64.Rounding

/-!
# Decimals

A decimal is a natural coefficient and a power of ten.  `Decimal.nearestUnits`
is the magnitude of the binary64 format that is nearest to it, and
`Decimal.toBinary64` the number with a given sign.

A decimal far above the largest number or far below the unit is recognised by
its exponent and its digit count, so that no power of ten larger than the
format can hold is ever computed.
-/

namespace IncentivePay

attribute [local instance (2000)] instPowNat

/-- The number `coefficient * 10 ^ exponent`. -/
structure Decimal where
  coefficient : Nat
  exponent : Int
deriving DecidableEq, Repr

namespace Decimal

/-- The number of decimal digits of a natural number; nought has one. -/
def digitCount (value : Nat) : Nat :=
  (Nat.toDigits 10 value).length

/-- The magnitude, in units, that is nearest to a decimal. -/
def nearestUnits (decimal : Decimal) : Nat :=
  match decimal.exponent with
  | .ofNat exponent =>
      IncentivePay.nearestUnits
        (decimal.coefficient * 10 ^ exponent * unitsPerOne) 1
  | .negSucc exponent =>
      IncentivePay.nearestUnits
        (decimal.coefficient * unitsPerOne) (10 ^ (exponent + 1))

/-- From this power of ten on, a positive decimal exceeds every number. -/
def overflowExponent : Int :=
  309

/-- Below this power of ten, a decimal is less than half a unit. -/
def underflowExponent : Int :=
  -324

/-- The number nearest to a decimal, with a sign. -/
def toBinary64
    (negative : Bool)
    (decimal : Decimal) :
    Binary64 :=
  if decimal.coefficient = 0 then
    Binary64.signedZero negative
  else if overflowExponent ≤ decimal.exponent then
    .infinite negative
  else if
      decimal.exponent + digitCount decimal.coefficient <
        underflowExponent then
    Binary64.signedZero negative
  else
    match decimal.exponent with
    | .ofNat exponent =>
        Binary64.ofRatio negative
          (decimal.coefficient * 10 ^ exponent * unitsPerOne) 1
    | .negSucc exponent =>
        Binary64.ofRatio negative
          (decimal.coefficient * unitsPerOne) (10 ^ (exponent + 1))

/-- Moves the trailing zeros of a positive coefficient into the exponent. -/
def stripZeros
    (coefficient : Nat)
    (exponent : Int) :
    Decimal :=
  if positive : 0 < coefficient then
    if coefficient % 10 = 0 then
      stripZeros (coefficient / 10) (exponent + 1)
    else
      ⟨coefficient, exponent⟩
  else
    ⟨0, 0⟩
termination_by coefficient
decreasing_by omega

/-- A run of digits with zeros before it up to a width. -/
def paddedDigits
    (width value : Nat) :
    List Char :=
  let digits := Nat.toDigits 10 value
  List.replicate (width - digits.length) '0' ++ digits

/-- The decimal written out by position, without an exponent. -/
def positional (decimal : Decimal) : List Char :=
  match decimal.exponent with
  | .ofNat exponent =>
      Nat.toDigits 10 (decimal.coefficient * 10 ^ exponent)
  | .negSucc exponent =>
      let scale := 10 ^ (exponent + 1)
      Nat.toDigits 10 (decimal.coefficient / scale) ++
        '.' :: paddedDigits (exponent + 1) (decimal.coefficient % scale)

end Decimal

end IncentivePay
