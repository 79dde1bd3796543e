import IncentivePay.Engine.Settings
import IncentivePay.Engine.Sources
import IncentivePay.Payout.Validation

/-!
# The engine

The engine calculates the payout of a user for a period: it asks its sources
for what it needs, and for nothing else, and hands the answers to the
calculation.  A user without an active plan is paid nothing; the profile is
asked for only when the plan is a formula.  The failure of a source is an
error of the engine, never a payout.

A batch is the list of the payouts of its users, in their order.  The cache
of parsed formulas is handed from one calculation to the next.
-/

namespace IncentivePay

open Formula

/-- Why the engine gives no payout. -/
inductive EngineError
  | source (error : SourceError)
  | calculation (error : CalculationError)
deriving DecidableEq

/-- The wording of an engine error. -/
def EngineError.message : EngineError → String
  | .source error => "Provider error: " ++ error.message
  | .calculation error => "Calculation failed: " ++ error.message

/-- The configuration of a user that has an active plan. -/
def plannedConfig?
    (sources : Sources)
    (user : String) :
    Except SourceError (Option Config) := do
  let config? ← sources.config user
  .ok
    (config?.filter fun config =>
      config.isActive && config.planType ≠ .noPlan)

/-- The profile for a configuration, which only formulas read. -/
def profileFor
    (sources : Sources)
    (user : String)
    (config : Config) :
    Except SourceError Profile :=
  if config.planType = .custom then sources.profile user else .ok .empty

/-- What a calculation needs from the sources; nothing without a plan. -/
def gather
    (sources : Sources)
    (user : String)
    (period : Period) :
    Except SourceError (Option (Config × Option Sales × Profile)) := do
  match ← plannedConfig? sources user with
  | none => .ok none
  | some config => do
      let sales? ← sources.sales user period
      let profile ← profileFor sources user config
      .ok (some (config, sales?, profile))

/-- The payout of a user for a period. -/
def calculate
    (sources : Sources)
    (user : String)
    (period : Period)
    (cache : Cache) :
    Except SourceError Payout × Cache :=
  match gather sources user period with
  | .error error => (.error error, cache)
  | .ok none => (.ok .noIncentive, cache)
  | .ok (some (config, sales?, profile)) =>
      let (payout, cache) := config.payOut sales? profile cache
      (.ok payout, cache)

/-- The line of one user in a batch. -/
structure Outcome where
  user : String
  result : Except SourceError Payout

namespace Outcome

/-- The payout of a line, unless a source failed. -/
def payout? (outcome : Outcome) : Option Payout :=
  match outcome.result with
  | .ok payout => some payout
  | .error _ => none

/-- The wording of the failure of a source. -/
def error? (outcome : Outcome) : Option String :=
  match outcome.result with
  | .ok _ => none
  | .error error => some (EngineError.source error).message

/-- A source failed, or the calculation failed closed. -/
def needsReview (outcome : Outcome) : Bool :=
  match outcome.result with
  | .ok payout => payout.isFailedClosed
  | .error _ => true

end Outcome

/-- The lines of a batch, in the order of the users. -/
structure Batch where
  period : Period
  outcomes : List Outcome

namespace Batch

/-- The number of lines that need no review. -/
def calculatedCount (batch : Batch) : Nat :=
  batch.outcomes.countP fun outcome => !outcome.needsReview

/-- The number of lines that need a review. -/
def reviewCount (batch : Batch) : Nat :=
  batch.outcomes.countP Outcome.needsReview

/-- The first line of a user. -/
def find?
    (batch : Batch)
    (user : String) :
    Option Outcome :=
  batch.outcomes.find? fun outcome => outcome.user = user

end Batch

/-- The lines of the users, one calculation after the other. -/
def calculateAll
    (sources : Sources)
    (period : Period) :
    (users : List String) →
    (cache : Cache) →
    List Outcome × Cache
  | [], cache => ([], cache)
  | user :: users, cache =>
      let (result, cache) := calculate sources user period cache
      let (outcomes, cache) := calculateAll sources period users cache
      (⟨user, result⟩ :: outcomes, cache)

/-- The batch of the users for a period. -/
def calculateBatch
    (sources : Sources)
    (users : List String)
    (period : Period)
    (cache : Cache) :
    Batch × Cache :=
  let (outcomes, cache) := calculateAll sources period users cache
  (⟨period, outcomes⟩, cache)

end IncentivePay
