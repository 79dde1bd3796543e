import IncentivePay.Payout.Violation

/-!
# The rules for configurations

`Config.IsSound` states what a configuration has to be, and `Violates` relates
a configuration to each rule that it breaks, both by the places of the numbers
on the line and without a list.  `Violation.rank` is the place of a violation
in a report: what the type requires comes first, with a missing threshold
before a missing rate and both before a formula that is not wanted, and then
the ranges in the order of the parameters.
-/

namespace IncentivePay

/-- A rate of a sales figure. -/
def PlanType.IsPercent (planType : PlanType) : Prop :=
  planType = .personalPercent ∨ planType = .totalPercent

/-- A rate of the excess of a sales figure over a threshold. -/
def PlanType.IsExcess (planType : PlanType) : Prop :=
  planType = .personalExcess ∨ planType = .totalExcess

namespace Binary64

/-- A number that is at least zero; a NaN is not. -/
def IsNonnegative (value : Binary64) : Prop :=
  ∃ place, value.place? = some place ∧ 0 ≤ place

/-- A number from zero to one; a NaN is not. -/
def IsFraction (value : Binary64) : Prop :=
  ∃ place, value.place? = some place ∧ 0 ≤ place ∧ place ≤ unitsPerOne

/-- A number that is larger than another; a NaN is not. -/
def Exceeds (value other : Binary64) : Prop :=
  ∃ place otherPlace,
    value.place? = some place ∧
      other.place? = some otherPlace ∧
      otherPlace < place

end Binary64

/-- Every parameter that is given lies in its range. -/
structure Parameters.AreInRange (parameters : Parameters) : Prop where
  rate : ∀ rate ∈ parameters.rate, rate.IsFraction
  threshold : ∀ threshold ∈ parameters.threshold, threshold.IsNonnegative
  minAmount : ∀ minAmount ∈ parameters.minAmount, minAmount.IsNonnegative
  maxAmount : ∀ maxAmount ∈ parameters.maxAmount, maxAmount.IsNonnegative
  inOrder :
    ∀ minAmount ∈ parameters.minAmount,
      ∀ maxAmount ∈ parameters.maxAmount, ¬ minAmount.Exceeds maxAmount

/-- The rules for configurations. -/
structure Config.IsSound (config : Config) : Prop where
  configurable : config.planType ≠ .noPlan
  formula :
    config.planType = .custom ↔ ∃ formula, config.formula? = some formula
  percentRate :
    config.planType.IsPercent → config.parameters.rate ≠ none
  excessThreshold :
    config.planType.IsExcess → config.parameters.threshold ≠ none
  excessRate :
    config.planType.IsExcess → config.parameters.rate ≠ none
  inRange : config.parameters.AreInRange

/-- A configuration breaks the rule that a violation names. -/
inductive Violates (config : Config) : Violation → Prop
  | unconfigurable :
      config.planType = .noPlan →
      Violates config (.unconfigurable .noPlan)
  | missingFormula :
      config.planType = .custom →
      config.formula? = none →
      Violates config .missingFormula
  | missingThreshold :
      config.planType.IsExcess →
      config.parameters.threshold = none →
      Violates config (.missingParameter config.planType .threshold)
  | missingRate :
      config.planType.IsPercent ∨ config.planType.IsExcess →
      config.parameters.rate = none →
      Violates config (.missingParameter config.planType .rate)
  | unexpectedFormula {formula : String} :
      config.planType.IsPercent ∨ config.planType.IsExcess →
      config.formula? = some formula →
      Violates config (.unexpectedFormula config.planType)
  | rateOutOfRange {rate : Binary64} :
      config.parameters.rate = some rate →
      ¬ rate.IsFraction →
      Violates config (.rateOutOfRange rate)
  | negativeThreshold {threshold : Binary64} :
      config.parameters.threshold = some threshold →
      ¬ threshold.IsNonnegative →
      Violates config (.negativeThreshold threshold)
  | negativeMinAmount {minAmount : Binary64} :
      config.parameters.minAmount = some minAmount →
      ¬ minAmount.IsNonnegative →
      Violates config (.negativeMinAmount minAmount)
  | negativeMaxAmount {maxAmount : Binary64} :
      config.parameters.maxAmount = some maxAmount →
      ¬ maxAmount.IsNonnegative →
      Violates config (.negativeMaxAmount maxAmount)
  | minExceedsMax {minAmount maxAmount : Binary64} :
      config.parameters.minAmount = some minAmount →
      config.parameters.maxAmount = some maxAmount →
      minAmount.Exceeds maxAmount →
      Violates config (.minExceedsMax minAmount maxAmount)

/-- The place of a violation among the violations of a configuration. -/
def Violation.rank : Violation → Nat
  | .unconfigurable _ => 0
  | .missingFormula => 1
  | .missingParameter _ .threshold => 2
  | .missingParameter _ _ => 3
  | .unexpectedFormula _ => 4
  | .rateOutOfRange _ => 5
  | .negativeThreshold _ => 6
  | .negativeMinAmount _ => 7
  | .negativeMaxAmount _ => 8
  | .minExceedsMax .. => 9
  | .unreadable _ => 10
  | .evaluation _ => 11
  | .nonFinite _ => 12

end IncentivePay
