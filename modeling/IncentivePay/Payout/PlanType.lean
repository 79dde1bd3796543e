/-!
# Plan types

The ways in which an incentive is computed: a rate of a sales figure, a rate
of its excess over a threshold, or a custom formula.  `noPlan` cannot be
configured; it labels the results of employees without a plan.

The catalog describes the five configurable types to an administrator.
-/

namespace IncentivePay

/-- How an incentive is computed. -/
inductive PlanType
  | personalPercent
  | totalPercent
  | personalExcess
  | totalExcess
  | custom
  | noPlan
deriving DecidableEq, Repr

/-- A part of a configuration that a type may require. -/
inductive Requirement
  | rate
  | threshold
  | customFormula
deriving DecidableEq, Repr

/-- The name of a required part. -/
def Requirement.name : Requirement → String
  | .rate => "rate"
  | .threshold => "threshold"
  | .customFormula => "customFormula"

namespace PlanType

/-- The types that an administrator may configure, in display order. -/
def configurable : List PlanType :=
  [.personalPercent, .totalPercent, .personalExcess, .totalExcess, .custom]

/-- Every type. -/
def all : List PlanType :=
  configurable ++ [.noPlan]

/-- The written name of a type. -/
def name : PlanType → String
  | .personalPercent => "PERSONAL_PERCENT"
  | .totalPercent => "TOTAL_PERCENT"
  | .personalExcess => "PERSONAL_EXCESS"
  | .totalExcess => "TOTAL_EXCESS"
  | .custom => "CUSTOM"
  | .noPlan => "NONE"

/-- The type with a name. -/
def ofName? (name : String) : Option PlanType :=
  all.find? fun candidate => candidate.name = name

/-- What a type requires, in the order in which it is reported. -/
def required : PlanType → List Requirement
  | .personalPercent => [.rate]
  | .totalPercent => [.rate]
  | .personalExcess => [.threshold, .rate]
  | .totalExcess => [.threshold, .rate]
  | .custom => [.customFormula]
  | .noPlan => []

/-- The title of a type in the catalog. -/
def title : PlanType → String
  | .personalPercent => "Personal sales percentage"
  | .totalPercent => "Total sales percentage"
  | .personalExcess => "Personal sales over threshold"
  | .totalExcess => "Total sales over threshold"
  | .custom => "Custom formula"
  | .noPlan => "No incentive"

/-- The description of a type in the catalog. -/
def description : PlanType → String
  | .personalPercent => "A fixed rate of the employee's own sales"
  | .totalPercent => "A fixed rate of total company sales"
  | .personalExcess =>
      "A fixed rate of the employee's sales above a threshold"
  | .totalExcess => "A fixed rate of total company sales above a threshold"
  | .custom =>
      "An administrator-defined formula over sales and profile variables"
  | .noPlan => "No incentive plan"

@[simp]
theorem ofName?_name (planType : PlanType) :
    ofName? planType.name = some planType := by
  cases planType <;> decide

theorem name_of_ofName?
    {name : String}
    {planType : PlanType}
    (found : ofName? name = some planType) :
    planType.name = name := by
  simpa using List.find?_some found

end PlanType

end IncentivePay
