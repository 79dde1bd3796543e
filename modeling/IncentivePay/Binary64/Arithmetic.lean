import IncentivePay.Binary64.Order
import IncentivePay.Binary64.Rounding

/-!
# Arithmetic of binary64 numbers

Each operation computes its exact result on the numbers of units and rounds
it once.  Infinities follow the limits: a sum of opposite infinities, a
product of an infinity and a zero, a quotient of two zeros or of two
infinities, and a remainder of an infinity or by a zero are NaNs; a nonzero
number divided by zero is an infinity.

An exact sum of nought is positive zero unless both summands are negative
zeros.  A product or a quotient takes the sign that its operands give, also
when it is a zero, and a remainder takes the sign of its dividend.
-/

namespace IncentivePay

namespace Binary64

/-- The sum, rounded to the nearest number. -/
def add : Binary64 → Binary64 → Binary64
  | .nan, _ => .nan
  | _, .nan => .nan
  | .infinite left, .infinite right =>
      if left = right then .infinite left else .nan
  | .infinite left, .finite .. => .infinite left
  | .finite .., .infinite right => .infinite right
  | .finite left leftUnits _, .finite right rightUnits _ =>
      let total := signedUnits left leftUnits + signedUnits right rightUnits
      if total = 0 then
        signedZero (left && right)
      else
        ofUnits (total < 0) total.natAbs

/-- The difference, which is the sum with the negated subtrahend. -/
def subtract
    (left right : Binary64) :
    Binary64 :=
  left.add right.negate

/-- The product, rounded to the nearest number. -/
def multiply : Binary64 → Binary64 → Binary64
  | .nan, _ => .nan
  | _, .nan => .nan
  | .infinite left, .infinite right => .infinite (left != right)
  | .infinite left, .finite right rightUnits _ =>
      if rightUnits = 0 then .nan else .infinite (left != right)
  | .finite left leftUnits _, .infinite right =>
      if leftUnits = 0 then .nan else .infinite (left != right)
  | .finite left leftUnits _, .finite right rightUnits _ =>
      ofRatio (left != right) (leftUnits * rightUnits) unitsPerOne

/-- The quotient, rounded to the nearest number. -/
def divide : Binary64 → Binary64 → Binary64
  | .nan, _ => .nan
  | _, .nan => .nan
  | .infinite _, .infinite _ => .nan
  | .infinite left, .finite right .. => .infinite (left != right)
  | .finite left .., .infinite right => signedZero (left != right)
  | .finite left leftUnits _, .finite right rightUnits _ =>
      if rightUnits = 0 then
        if leftUnits = 0 then .nan else .infinite (left != right)
      else
        ofRatio (left != right) (leftUnits * unitsPerOne) rightUnits

/-- The remainder of the division truncated towards zero. -/
def remainder : Binary64 → Binary64 → Binary64
  | .nan, _ => .nan
  | _, .nan => .nan
  | .infinite _, _ => .nan
  | .finite left leftUnits representable, .infinite _ =>
      .finite left leftUnits representable
  | .finite left leftUnits _, .finite _ rightUnits _ =>
      if rightUnits = 0 then
        .nan
      else
        ofUnits left (leftUnits % rightUnits)

/-- One for true and zero for false. -/
def ofBool (condition : Bool) : Binary64 :=
  if condition then one else zero

end Binary64

end IncentivePay
