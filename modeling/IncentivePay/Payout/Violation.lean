import IncentivePay.Binary64.Order
import IncentivePay.Formula.Evaluation
import IncentivePay.Formula.Token
import IncentivePay.Payout.Config

/-!
# Violations of the rules for configurations

A configuration has to give what its type requires and nothing that is not
for its type, and its numbers have to lie in their ranges.  Every rule is
checked, and the violated ones are listed in a fixed order: first what the
type requires, then the ranges of rate, threshold, minimum and maximum, and
last the order of minimum and maximum.  A NaN lies in no range.

The same list of causes serves the trial of a formula on sample data, which
may find that the formula cannot be read or has no finite value.
-/

namespace IncentivePay

open Formula

/-- What is wrong with a configuration. -/
inductive Violation
  | unconfigurable (planType : PlanType)
  | missingParameter (planType : PlanType) (requirement : Requirement)
  | missingFormula
  | unexpectedFormula (planType : PlanType)
  | rateOutOfRange (rate : Binary64)
  | negativeThreshold (threshold : Binary64)
  | negativeMinAmount (minAmount : Binary64)
  | negativeMaxAmount (maxAmount : Binary64)
  | minExceedsMax (minAmount maxAmount : Binary64)
  | unreadable (error : SyntaxError)
  | evaluation (error : EvaluationError)
  | nonFinite (value : Binary64)
deriving DecidableEq

namespace Violation

/-- The wording of a violation. -/
def message : Violation → String
  | .unconfigurable planType =>
      planType.name ++ " cannot be configured; deactivate the config instead"
  | .missingParameter planType requirement =>
      planType.name ++ " requires parameter '" ++ requirement.name ++ "'"
  | .missingFormula => "CUSTOM requires a non-empty customFormula"
  | .unexpectedFormula planType =>
      "customFormula is only allowed for CUSTOM, not " ++ planType.name
  | .rateOutOfRange rate => "rate " ++ rate.text ++ " must be between 0 and 1"
  | .negativeThreshold threshold =>
      "threshold " ++ threshold.text ++ " must be >= 0"
  | .negativeMinAmount minAmount =>
      "minAmount " ++ minAmount.text ++ " must be >= 0"
  | .negativeMaxAmount maxAmount =>
      "maxAmount " ++ maxAmount.text ++ " must be >= 0"
  | .minExceedsMax minAmount maxAmount =>
      "minAmount " ++ minAmount.text ++ " exceeds maxAmount " ++ maxAmount.text
  | .unreadable error => "Formula syntax error: " ++ error.message
  | .evaluation error =>
      "Formula evaluation failed on sample data: " ++ error.message
  | .nonFinite value =>
      "Formula result on sample data is not a finite number (" ++
        value.text ++ ")"

/-- The stable code of a violation, for machines. -/
def code : Violation → String
  | .unconfigurable _ => "unconfigurable_type"
  | .missingParameter .. => "missing_parameter"
  | .missingFormula => "missing_formula"
  | .unexpectedFormula _ => "unexpected_formula"
  | .rateOutOfRange _ => "rate_out_of_range"
  | .negativeThreshold _ => "negative_threshold"
  | .negativeMinAmount _ => "negative_min_amount"
  | .negativeMaxAmount _ => "negative_max_amount"
  | .minExceedsMax .. => "min_exceeds_max"
  | .unreadable _ => "syntax_error"
  | .evaluation _ => "evaluation_error"
  | .nonFinite _ => "non_finite_result"

/-- The position of a violation in a formula text, if it has one. -/
def position? : Violation → Option Nat
  | .unreadable error => some error.position
  | _ => none

end Violation

/-- A parameter is given; the formula is no parameter and counts as given. -/
def Parameters.gives
    (parameters : Parameters) :
    Requirement →
    Bool
  | .rate => parameters.rate.isSome
  | .threshold => parameters.threshold.isSome
  | .customFormula => true

/-- A violation that is listed when a condition holds. -/
def violationIf
    (condition : Bool)
    (violation : Violation) :
    List Violation :=
  if condition then [violation] else []

/-- A violation of the range of a parameter, when the parameter is given. -/
def violationOf
    (value : Option Binary64)
    (inRange : Binary64 → Bool)
    (violation : Binary64 → Violation) :
    List Violation :=
  match value with
  | some value => violationIf (!inRange value) (violation value)
  | none => []

namespace Parameters

/-- The violated ranges of the parameters. -/
def rangeViolations (parameters : Parameters) : List Violation :=
  violationOf parameters.rate
      (fun rate =>
        Binary64.zero.isAtMost rate && rate.isAtMost Binary64.one)
      .rateOutOfRange ++
    violationOf parameters.threshold
      (fun threshold => Binary64.zero.isAtMost threshold)
      .negativeThreshold ++
    violationOf parameters.minAmount
      (fun minAmount => Binary64.zero.isAtMost minAmount)
      .negativeMinAmount ++
    violationOf parameters.maxAmount
      (fun maxAmount => Binary64.zero.isAtMost maxAmount)
      .negativeMaxAmount ++
    match parameters.minAmount, parameters.maxAmount with
    | some minAmount, some maxAmount =>
        violationIf (maxAmount.isLess minAmount)
          (.minExceedsMax minAmount maxAmount)
    | _, _ => []

end Parameters

namespace Config

/--
What a template type requires and does not get, or gets and must not have.
-/
def templateViolations (config : Config) : List Violation :=
  ((config.planType.required.filter fun requirement =>
      !config.parameters.gives requirement).map
    (Violation.missingParameter config.planType)) ++
  violationIf config.formula?.isSome (.unexpectedFormula config.planType)

/-- The violated requirements of the type. -/
def requirementViolations (config : Config) : List Violation :=
  match config.planType with
  | .noPlan => [.unconfigurable .noPlan]
  | .custom => violationIf config.formula?.isNone .missingFormula
  | _ => config.templateViolations

/-- Every violated rule of a configuration, in the fixed order. -/
def violations (config : Config) : List Violation :=
  config.requirementViolations ++ config.parameters.rangeViolations

end Config

end IncentivePay
