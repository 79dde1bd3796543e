import IncentivePay.Engine.Basic
import IncentivePay.Wire.Config

/-!
# The JSON form of payouts, reports and batches

A calculation does not depend on when it is made, so a payout and a batch know
nothing of the time.  What is written of them does: a payout is written with
the instant at which it was calculated, as a `StampedPayout`, and a batch with
its identifier and its `Times`.
-/

namespace IncentivePay

/-- The JSON form of details. -/
def Details.toJson (details : Details) : Json :=
  .record
    [("template", details.template.map PlanType.toJson),
     ("formula", optionalString details.formula),
     ("parameters", some details.parameters.toJson),
     ("salesData", details.salesData.map Sales.toJson),
     ("profile", details.profile.map Profile.toJson),
     ("rawAmount", optionalNumber details.rawAmount),
     ("salesAssumedZero",
      if details.salesAssumedZero then some (.boolean true) else none),
     ("error", optionalString details.error)]

/-- The details in a JSON value. -/
def Details.ofJson? (json : Json) : Option Details := do
  let fields ←
    json.fields?
      ["template", "formula", "parameters", "salesData", "profile",
       "rawAmount", "salesAssumedZero", "error"]
  let template ← fields.optional "template" PlanType.ofJson?
  let formula ← fields.optional "formula" Json.string?
  let parameters ← fields.withDefault "parameters" .empty Parameters.ofJson?
  let salesData ← fields.optional "salesData" Sales.ofJson?
  let profile ← fields.optional "profile" Profile.ofJson?
  let rawAmount ← fields.optional "rawAmount" Json.number?
  let salesAssumedZero ←
    fields.withDefault "salesAssumedZero" false Json.boolean?
  let error ← fields.optional "error" Json.string?
  some
    ⟨template, formula, parameters, salesData, profile, rawAmount,
      salesAssumedZero, error⟩

/-- A payout and the instant at which it was calculated. -/
structure StampedPayout where
  payout : Payout
  calculatedAt : Instant
deriving DecidableEq

namespace StampedPayout

/-- The JSON form of a stamped payout. -/
def toJson (stamped : StampedPayout) : Json :=
  .record
    [("amount", some (.integer stamped.payout.amount.toInt)),
     ("type", some stamped.payout.planType.toJson),
     ("details", some stamped.payout.details.toJson),
     ("calculatedAt", some stamped.calculatedAt.toJson)]

/-- The stamped payout in a JSON value. -/
def ofJson? (json : Json) : Option StampedPayout := do
  let fields ← json.fields? ["amount", "type", "details", "calculatedAt"]
  let amount ← fields.required "amount" Json.int64?
  let planType ← fields.required "type" PlanType.ofJson?
  let details ← fields.required "details" Details.ofJson?
  let calculatedAt ← fields.required "calculatedAt" Instant.ofJson?
  some ⟨⟨amount, planType, details⟩, calculatedAt⟩

end StampedPayout

/-- The JSON form of a violation. -/
def Violation.toJson (violation : Violation) : Json :=
  .record
    [("code", some (.ofString violation.code)),
     ("message", some (.ofString violation.message)),
     ("position",
      violation.position?.map fun position => .integer (position : Int))]

/-- The JSON form of a report. -/
def Report.toJson (report : Report) : Json :=
  .record
    [("isValid", some (.boolean report.isValid)),
     ("errors", some (.array (report.violations.map Violation.toJson))),
     ("testResult", optionalNumber report.testResult),
     ("testAmount",
      report.testAmount.map fun amount => .integer amount.toInt)]

/-- When a run began and ended, and when each of its payouts was calculated. -/
structure Times where
  startedAt : Instant
  finishedAt : Instant
  calculatedAt : (place : Nat) → Instant

/--
The JSON form of a line of a batch, whose payout was calculated at an instant.
-/
def Outcome.toJson
    (outcome : Outcome)
    (calculatedAt : Instant) :
    Json :=
  .record
    [("userId", some (.ofString outcome.user)),
     ("result",
      outcome.payout?.map fun payout =>
        StampedPayout.toJson ⟨payout, calculatedAt⟩),
     ("error", optionalString outcome.error?)]

/-- The JSON form of a batch with an identifier and its times. -/
def Batch.toJson
    (batch : Batch)
    (identifier : String)
    (times : Times) :
    Json :=
  .record
    [("runId", some (.ofString identifier)),
     ("period", some batch.period.toJson),
     ("startedAt", some times.startedAt.toJson),
     ("finishedAt", some times.finishedAt.toJson),
     ("outcomes",
      some
        (.array
          (batch.outcomes.mapIdx fun place outcome =>
            outcome.toJson (times.calculatedAt place))))]

/-- The JSON form of a type in the catalog. -/
def PlanType.catalogEntry (planType : PlanType) : Json :=
  .record
    [("value", some planType.toJson),
     ("name", some (.ofString planType.title)),
     ("description", some (.ofString planType.description)),
     ("requiredParams",
      some
        (.array
          (planType.required.map fun requirement =>
            .ofString requirement.name)))]

/-- The JSON form of the catalog. -/
def catalogJson : Json :=
  .array (PlanType.configurable.map PlanType.catalogEntry)

end IncentivePay
