import IncentivePay.Binary64.Rounding

/-!
# Sales figures and employee profiles

The inputs of a calculation: the sales of one employee in one period, and the
facts about the employee that a custom formula may read.  A figure that is
absent counts as zero where a formula reads it.
-/

namespace IncentivePay

/-- Sales of one employee in one period. -/
structure Sales where
  personal : Binary64
  total : Binary64
  team : Option Binary64
deriving DecidableEq

/-- Facts about an employee that are not sales. -/
structure Profile where
  baseSalary : Option Binary64
  years : Option Binary64
  performance : Option Binary64
deriving DecidableEq

namespace Sales

/-- The sales of an employee without any record for the period. -/
def none : Sales where
  personal := .zero
  total := .zero
  team := .none

/-- A representative data set on which formulas are tried out. -/
def sample : Sales where
  personal := .ofNat 10000000
  total := .ofNat 100000000
  team := some (.ofNat 30000000)

end Sales

namespace Profile

/-- The profile of which nothing is known. -/
def empty : Profile where
  baseSalary := .none
  years := .none
  performance := .none

/-- The profile that goes with the representative sales. -/
def sample : Profile where
  baseSalary := some (.ofNat 3000000)
  years := some (.ofNat 5)
  performance := some (.ofNat 1)

end Profile

end IncentivePay
