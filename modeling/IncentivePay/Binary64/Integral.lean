import IncentivePay.Binary64.Arithmetic

/-!
# Whole numbers among the binary64 numbers

`floor` is the largest whole number that is not larger, `roundHalfUp` is the
nearest whole number with halves going up, and `toInt64` cuts off the
fraction and clamps to the range of a 64-bit integer, with a NaN at nought.
-/

namespace IncentivePay

namespace Binary64

/-- The largest whole number that is not larger than a number. -/
def floor : Binary64 → Binary64
  | .finite false units _ =>
      ofUnits false (units / unitsPerOne * unitsPerOne)
  | .finite true units _ =>
      ofUnits true
        ((units + (unitsPerOne - 1)) / unitsPerOne * unitsPerOne)
  | other => other

/--
The nearest whole number, a half going up.  The fraction is the rounded
difference to the floor, and one is added to the floor when it is at least a
half.
-/
def roundHalfUp (value : Binary64) : Binary64 :=
  if value.isFinite then
    if isAtMost half (value.subtract value.floor) then
      value.floor.add one
    else
      value.floor
  else
    value

/-- The integer clamped to the range of a 64-bit integer. -/
def clampInt64 (value : Int) : Int64 :=
  if value < Int64.minValue.toInt then Int64.minValue
  else if Int64.maxValue.toInt < value then Int64.maxValue
  else Int64.ofInt value

/-- The number without its fraction as a 64-bit integer, saturating. -/
def toInt64 : Binary64 → Int64
  | .nan => 0
  | .infinite true => Int64.minValue
  | .infinite false => Int64.maxValue
  | .finite negative units _ =>
      clampInt64 (signedUnits negative (units / unitsPerOne))

end Binary64

end IncentivePay
