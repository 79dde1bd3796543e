import IncentivePay.Formula.Cache
import IncentivePay.Payout.Limits
import IncentivePay.Payout.Template
import IncentivePay.Payout.Violation

/-!
# Calculating a payout

A configuration is checked, resolved into a plan, and the plan is run on a
sales record and a profile: a template rule directly, a formula through the
cache of parsed formulas.  The raw amount has to be finite; the limits make
the payout of it.

A computation records how far it came.  A preview of a configuration hands
its error to the caller, a real calculation fails closed: it pays nothing and
keeps the error with what was recorded.
-/

namespace IncentivePay

open Formula

/-- Why a calculation has no amount. -/
inductive CalculationError
  | invalidParameters (violations : List Violation)
  | template (error : TemplateError)
  | unreadable (error : SyntaxError)
  | evaluation (error : EvaluationError)
  | nonFinite (value : Binary64)
deriving DecidableEq

/-- The wording of a calculation error. -/
def CalculationError.message : CalculationError → String
  | .invalidParameters violations =>
      "Invalid parameters: " ++
        "; ".intercalate (violations.map Violation.message)
  | .template error => "Template error: " ++ error.message
  | .unreadable error => "Formula syntax error: " ++ error.message
  | .evaluation error => "Formula evaluation error: " ++ error.message
  | .nonFinite value =>
      "Calculated amount is not a finite number (" ++ value.text ++ ")"

/-- What is run for a configuration. -/
inductive Plan
  | noIncentive
  | template (rule : Template)
  | custom (formula : String)
deriving DecidableEq

/-- The plan of a configuration. -/
def Config.plan (config : Config) : Except CalculationError Plan :=
  match config.planType with
  | .noPlan => .ok .noIncentive
  | .custom =>
      match config.formula? with
      | some formula => .ok (.custom formula)
      | none => .error (.invalidParameters [.missingFormula])
  | planType =>
      match Template.ofParameters planType config.parameters with
      | .ok rule => .ok (.template rule)
      | .error error => .error (.template error)

/-- What is recorded about a payout, for an audit. -/
structure Details where
  template : Option PlanType
  formula : Option String
  parameters : Parameters
  salesData : Option Sales
  profile : Option Profile
  rawAmount : Option Binary64
  salesAssumedZero : Bool
  error : Option String
deriving DecidableEq

/-- Details of which nothing is known. -/
def Details.empty : Details where
  template := none
  formula := none
  parameters := .empty
  salesData := none
  profile := none
  rawAmount := none
  salesAssumedZero := false
  error := none

/-- The incentive of one employee, or of a preview. -/
structure Payout where
  amount : Int64
  planType : PlanType
  details : Details
deriving DecidableEq

namespace Payout

/-- The payout of an employee without an active plan. -/
def noIncentive : Payout where
  amount := 0
  planType := .noPlan
  details := .empty

/-- The calculation failed closed and needs a review. -/
def isFailedClosed (payout : Payout) : Bool :=
  payout.details.error.isSome

end Payout

/-- How far a calculation came, and its amount or error. -/
structure Computation where
  template : Option PlanType
  formula : Option String
  rawAmount : Option Binary64
  outcome : Except CalculationError Int64

namespace Computation

/-- A calculation that ended before a rule was run. -/
def stopped (outcome : Except CalculationError Int64) : Computation where
  template := none
  formula := none
  rawAmount := none
  outcome := outcome

/-- The amount of a raw amount, which has to be finite. -/
def settle
    (parameters : Parameters)
    (raw : Binary64) :
    Except CalculationError Int64 :=
  if raw.isFinite then .ok (parameters.limit raw) else .error (.nonFinite raw)

/-- A raw amount has one error only. -/
theorem eq_nonFinite_of_settle
    {parameters : Parameters}
    {raw : Binary64}
    {error : CalculationError}
    (failed : settle parameters raw = .error error) :
    error = .nonFinite raw := by
  unfold settle at failed
  split at failed
  · contradiction
  · exact (Except.error.inj failed).symm

/-- The run of a template rule. -/
def ofTemplate
    (parameters : Parameters)
    (rule : Template)
    (sales : Sales) :
    Computation where
  template := some rule.planType
  formula := none
  rawAmount := some (rule.rawAmount sales)
  outcome := settle parameters (rule.rawAmount sales)

/-- The run of a formula whose text has or has not been read. -/
def ofFormula
    (parameters : Parameters)
    (formula : String)
    (tree : Except SyntaxError Expr)
    (bindings : Bindings) :
    Computation :=
  match tree with
  | .error error => ⟨none, some formula, none, .error (.unreadable error)⟩
  | .ok tree =>
      match evaluate tree bindings with
      | .error error => ⟨none, some formula, none, .error (.evaluation error)⟩
      | .ok raw => ⟨none, some formula, some raw, settle parameters raw⟩

end Computation

namespace Config

/-- Checks a configuration and runs its plan. -/
def compute
    (config : Config)
    (sales : Sales)
    (profile : Profile)
    (cache : Cache) :
    Computation × Cache :=
  if config.violations.isEmpty then
    match config.plan with
    | .error error => (.stopped (.error error), cache)
    | .ok .noIncentive => (.stopped (.ok 0), cache)
    | .ok (.template rule) =>
        (.ofTemplate config.parameters rule sales, cache)
    | .ok (.custom formula) =>
        let (tree, cache) := cache.getOrParse formula
        (.ofFormula config.parameters formula tree
            (.ofRecords sales profile), cache)
  else
    (.stopped (.error (.invalidParameters config.violations)), cache)

/-- The details of a computation; a profile is recorded for formulas only. -/
def details
    (config : Config)
    (sales : Sales)
    (profile : Profile)
    (computation : Computation) :
    Details where
  template := computation.template
  formula := computation.formula
  parameters := config.parameters
  salesData := some sales
  profile := if config.planType = .custom then some profile else none
  rawAmount := computation.rawAmount
  salesAssumedZero := false
  error := none

/--
The payout that a configuration would make, whether it is active or not, or
the reason why there is none.
-/
def simulate
    (config : Config)
    (sales : Sales)
    (profile : Profile)
    (cache : Cache) :
    Except CalculationError Payout × Cache :=
  if config.planType = .noPlan then
    (.ok .noIncentive, cache)
  else
    let (computation, cache) := config.compute sales profile cache
    let details := config.details sales profile computation
    match computation.outcome with
    | .ok amount => (.ok ⟨amount, config.planType, details⟩, cache)
    | .error error => (.error error, cache)

/--
The payout that a configuration makes on the sales of a period, where absent
sales count as none.  An error pays nothing and is recorded.
-/
def payOut
    (config : Config)
    (sales? : Option Sales)
    (profile : Profile)
    (cache : Cache) :
    Payout × Cache :=
  let sales := sales?.getD .none
  let (computation, cache) := config.compute sales profile cache
  let details :=
    { config.details sales profile computation with
      salesAssumedZero := sales?.isNone }
  match computation.outcome with
  | .ok amount => (⟨amount, config.planType, details⟩, cache)
  | .error error =>
      (⟨0, config.planType, { details with error := some error.message }⟩,
        cache)

end Config

end IncentivePay
