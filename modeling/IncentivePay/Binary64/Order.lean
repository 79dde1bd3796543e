import IncentivePay.Binary64.Basic

/-!
# Comparing binary64 numbers

Two numbers are compared by their places on the line.  A NaN has no place, so
it is neither less than, nor equal to, nor greater than anything, itself
included; the two zeros share one place and are equal.

Of the larger of two numbers there are two readings.  `maxPresent` treats a
NaN as an absent number and answers with the other one, while `maxStrict`
answers a NaN as soon as one operand is a NaN; likewise for the smaller.
-/

namespace IncentivePay

namespace Binary64

/-- A relation between the places of two numbers; false when one has none. -/
def comparePlaces
    (relation : Int → Int → Bool)
    (left right : Binary64) :
    Bool :=
  match left.place?, right.place? with
  | some leftPlace, some rightPlace => relation leftPlace rightPlace
  | _, _ => false

/-- Strictly less. -/
def isLess
    (left right : Binary64) :
    Bool :=
  comparePlaces (fun leftPlace rightPlace => leftPlace < rightPlace) left right

/-- Less or equal. -/
def isAtMost
    (left right : Binary64) :
    Bool :=
  comparePlaces (fun leftPlace rightPlace => leftPlace ≤ rightPlace) left right

/-- Equal as numbers: the zeros are equal, and a NaN is not equal to itself. -/
def isEqual
    (left right : Binary64) :
    Bool :=
  comparePlaces (fun leftPlace rightPlace => leftPlace = rightPlace) left right

/-- The larger of the operands that are numbers; the first of two equal ones. -/
def maxPresent
    (left right : Binary64) :
    Binary64 :=
  if left.isNaN then right
  else if isLess left right then right
  else left

/--
The smaller of the operands that are numbers; the first of two equal ones.
-/
def minPresent
    (left right : Binary64) :
    Binary64 :=
  if left.isNaN then right
  else if isLess right left then right
  else left

/-- The larger operand, or a NaN when one operand is a NaN. -/
def maxStrict
    (left right : Binary64) :
    Binary64 :=
  if left.isNaN || right.isNaN then .nan else maxPresent left right

/-- The smaller operand, or a NaN when one operand is a NaN. -/
def minStrict
    (left right : Binary64) :
    Binary64 :=
  if left.isNaN || right.isNaN then .nan else minPresent left right

@[simp]
theorem isLess_nan_left (right : Binary64) :
    isLess .nan right = false :=
  rfl

@[simp]
theorem isLess_nan_right (left : Binary64) :
    isLess left .nan = false := by
  cases left <;> rfl

@[simp]
theorem isAtMost_nan_left (right : Binary64) :
    isAtMost .nan right = false :=
  rfl

@[simp]
theorem isAtMost_nan_right (left : Binary64) :
    isAtMost left .nan = false := by
  cases left <;> rfl

@[simp]
theorem maxPresent_nan_left (right : Binary64) :
    maxPresent .nan right = right :=
  rfl

@[simp]
theorem maxPresent_nan_right (left : Binary64) :
    maxPresent left .nan = left := by
  cases left <;> rfl

@[simp]
theorem minPresent_nan_left (right : Binary64) :
    minPresent .nan right = right :=
  rfl

@[simp]
theorem minPresent_nan_right (left : Binary64) :
    minPresent left .nan = left := by
  cases left <;> rfl

end Binary64

end IncentivePay
