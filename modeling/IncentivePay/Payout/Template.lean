import IncentivePay.Binary64.Arithmetic
import IncentivePay.Payout.Config
import IncentivePay.Payout.Sales

/-!
# Template rules

A template rule is one of the four built-in ways to compute an amount, with
all its numbers: a rate of a sales figure, or a rate of the part of a sales
figure above a threshold, which is never less than zero.  The amount is raw;
limits and rounding come later.
-/

namespace IncentivePay

/-- The sales figure that a template reads. -/
inductive Basis
  | personal
  | total
deriving DecidableEq, Repr

/-- The figure of a basis. -/
def Basis.figure
    (basis : Basis)
    (sales : Sales) :
    Binary64 :=
  match basis with
  | .personal => sales.personal
  | .total => sales.total

/-- A built-in rule with all its numbers. -/
inductive Template
  | percent (basis : Basis) (rate : Binary64)
  | excess (basis : Basis) (threshold rate : Binary64)
deriving DecidableEq

/-- Why a type and its parameters give no template rule. -/
inductive TemplateError
  | missing (planType : PlanType) (requirement : Requirement)
  | notTemplate (planType : PlanType)
deriving DecidableEq

/-- The wording of a template error. -/
def TemplateError.message : TemplateError → String
  | .missing planType requirement =>
      planType.name ++ " requires parameter '" ++ requirement.name ++ "'"
  | .notTemplate planType => planType.name ++ " is not a template type"

namespace Template

/-- A parameter that a type requires. -/
def require
    (planType : PlanType)
    (requirement : Requirement)
    (value : Option Binary64) :
    Except TemplateError Binary64 :=
  match value with
  | some value => .ok value
  | none => .error (.missing planType requirement)

/-- A percent rule from the parameters of a type. -/
def percentOf
    (planType : PlanType)
    (basis : Basis)
    (parameters : Parameters) :
    Except TemplateError Template := do
  let rate ← require planType .rate parameters.rate
  .ok (.percent basis rate)

/-- An excess rule from the parameters of a type. -/
def excessOf
    (planType : PlanType)
    (basis : Basis)
    (parameters : Parameters) :
    Except TemplateError Template := do
  let threshold ← require planType .threshold parameters.threshold
  let rate ← require planType .rate parameters.rate
  .ok (.excess basis threshold rate)

/-- The rule of a type with its parameters. -/
def ofParameters
    (planType : PlanType)
    (parameters : Parameters) :
    Except TemplateError Template :=
  match planType with
  | .personalPercent => percentOf planType .personal parameters
  | .totalPercent => percentOf planType .total parameters
  | .personalExcess => excessOf planType .personal parameters
  | .totalExcess => excessOf planType .total parameters
  | .custom => .error (.notTemplate planType)
  | .noPlan => .error (.notTemplate planType)

/-- The type to which a rule belongs. -/
def planType : Template → PlanType
  | .percent .personal _ => .personalPercent
  | .percent .total _ => .totalPercent
  | .excess .personal .. => .personalExcess
  | .excess .total .. => .totalExcess

/-- The sales figure that a rule reads. -/
def basis : Template → Basis
  | .percent basis _ => basis
  | .excess basis .. => basis

/-- The amount of a rule before limits and rounding. -/
def rawAmount
    (template : Template)
    (sales : Sales) :
    Binary64 :=
  match template with
  | .percent basis rate => (basis.figure sales).multiply rate
  | .excess basis threshold rate =>
      (((basis.figure sales).subtract threshold).maxPresent .zero).multiply rate

end Template

end IncentivePay
