import IncentivePay.Decimal.Basic

/-!
# The shortest decimal that reads back

A finite number is written with the fewest decimal digits that read back to
the same number, and among the decimals with that many digits with the
nearest one.  On a grid of so many digits only the two neighbours of the
number can be nearest; when both read back and are equally near, the larger
one is taken.

Seventeen digits suffice for every number.  Should none of them read back,
the exact decimal expansion is written, which always does, so that the result
reads back by construction.
-/

namespace IncentivePay

attribute [local instance (2000)] instPowNat

namespace Decimal

/--
The power of ten by which a magnitude is scaled before its digits are cut.
-/
def guardDigits : Nat :=
  400

/-- The number of digits of the scaled magnitude. -/
def scaledDigitCount (units : Nat) : Nat :=
  digitCount (units * 10 ^ guardDigits / unitsPerOne)

/--
The nearest decimal of so many digits that reads back to a magnitude, if one
of the two neighbours on that grid does; `count` is the number of digits of
the scaled magnitude.
-/
def neighbour?
    (units count digits : Nat) :
    Option Decimal :=
  let dropped := count - digits
  let exponent : Int := (dropped : Int) - (guardDigits : Int)
  let scaled := units * 10 ^ guardDigits
  let step := unitsPerOne * 10 ^ dropped
  let lower : Decimal := ⟨scaled / step, exponent⟩
  let upper : Decimal := ⟨scaled / step + 1, exponent⟩
  let lowerReadsBack := lower.nearestUnits = units
  let upperReadsBack := upper.nearestUnits = units
  if lowerReadsBack ∧ upperReadsBack then
    if 2 * (scaled % step) < step then some lower else some upper
  else if lowerReadsBack then
    some lower
  else if upperReadsBack then
    some upper
  else
    none

/-- The exact decimal expansion of a magnitude. -/
def exact (units : Nat) : Decimal :=
  ⟨units * 5 ^ (1074 : Nat), -1074⟩

/-- The most digits that a shortest decimal has. -/
def mostDigits : Nat :=
  17

/-- The shortest decimal of a positive magnitude, before zeros are stripped. -/
def shortestCandidate (units : Nat) : Decimal :=
  let count := scaledDigitCount units
  ((List.range' 1 mostDigits).findSome? (neighbour? units count)).getD
    (exact units)

/-- The shortest decimal that reads back to a magnitude. -/
def shortest (units : Nat) : Decimal :=
  let candidate := shortestCandidate units
  stripZeros candidate.coefficient candidate.exponent

end Decimal

namespace Binary64

/--
The text of a number: the shortest decimal that reads back, by position and
without an exponent, with a sign for negative numbers and negative zero.
-/
def text : Binary64 → String
  | .nan => "NaN"
  | .infinite false => "inf"
  | .infinite true => "-inf"
  | .finite negative units _ =>
      let digits := (Decimal.shortest units).positional
      String.ofList (if negative then '-' :: digits else digits)

instance : ToString Binary64 :=
  ⟨text⟩

end Binary64

end IncentivePay
