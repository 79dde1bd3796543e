import IncentivePay.Proofs.Payout.RuleViolations

/-!
# Violations that only a trial finds

The rules of a configuration never report that its formula cannot be read or
has no finite value: such a failure of the formula is found when the formula
is tried out.
-/

namespace IncentivePay

/-- The formula cannot be read, cannot be evaluated or has no finite value. -/
def Violation.isFormulaFailure : Violation → Bool
  | .unreadable _ => true
  | .evaluation _ => true
  | .nonFinite _ => true
  | _ => false

/-- No rule of a configuration reports a failure of its formula. -/
theorem Config.not_isFormulaFailure_of_mem
    {config : Config}
    {violation : Violation}
    (member : violation ∈ config.violations) :
    violation.isFormulaFailure = false := by
  have violates : Violates config violation :=
    (config.itemizes_violations.mem_iff violation).1 member
  cases violates <;> rfl

end IncentivePay
