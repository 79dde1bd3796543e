import IncentivePay.Binary64.Integral
import IncentivePay.Payout.Config

/-!
# Limits

A raw amount is clamped between the minimum, or zero, and the maximum, or
infinity; its fraction is cut off and it is never less than zero.  A NaN
counts as absent and falls to the lower bound.  The amount is a whole number
of currency units in sixty-four bits, at which it saturates.
-/

namespace IncentivePay

namespace Parameters

/-- The least amount that the limits allow. -/
def lowerBound (parameters : Parameters) : Binary64 :=
  parameters.minAmount.getD .zero

/-- The largest amount that the limits allow. -/
def upperBound (parameters : Parameters) : Binary64 :=
  parameters.maxAmount.getD .infinity

/-- The whole amount that the limits make of a raw amount. -/
def limit
    (parameters : Parameters)
    (raw : Binary64) :
    Int64 :=
  let bounded :=
    (raw.maxPresent parameters.lowerBound).minPresent parameters.upperBound
  (bounded.floor.maxPresent .zero).toInt64

end Parameters

end IncentivePay
