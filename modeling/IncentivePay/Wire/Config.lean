import IncentivePay.Calendar.Period
import IncentivePay.Payout.Config
import IncentivePay.Payout.Sales
import IncentivePay.Wire.Record

/-!
# The JSON form of configurations, sales and periods

Each type has a writer and a reader of its JSON form.  Members that are
absent are not written, and a number that is not finite is written as null.
-/

namespace IncentivePay

/-- The JSON form of an optional number. -/
def optionalNumber (value : Option Binary64) : Option Json :=
  value.map Json.ofNumber

/-- The JSON form of an optional text. -/
def optionalString (value : Option String) : Option Json :=
  value.map Json.ofString

/-- The JSON form of a plan type. -/
def PlanType.toJson (planType : PlanType) : Json :=
  .ofString planType.name

/-- The plan type in a JSON value. -/
def PlanType.ofJson? (json : Json) : Option PlanType :=
  json.constantName?.bind PlanType.ofName?

/-- The JSON form of parameters. -/
def Parameters.toJson (parameters : Parameters) : Json :=
  .record
    [("rate", optionalNumber parameters.rate),
     ("threshold", optionalNumber parameters.threshold),
     ("minAmount", optionalNumber parameters.minAmount),
     ("maxAmount", optionalNumber parameters.maxAmount)]

/-- The parameters in a JSON value. -/
def Parameters.ofJson? (json : Json) : Option Parameters := do
  let fields ←
    json.fields? ["rate", "threshold", "minAmount", "maxAmount"]
  let rate ← fields.optional "rate" Json.number?
  let threshold ← fields.optional "threshold" Json.number?
  let minAmount ← fields.optional "minAmount" Json.number?
  let maxAmount ← fields.optional "maxAmount" Json.number?
  some ⟨rate, threshold, minAmount, maxAmount⟩

/-- The JSON form of sales. -/
def Sales.toJson (sales : Sales) : Json :=
  .record
    [("personal", some (.ofNumber sales.personal)),
     ("total", some (.ofNumber sales.total)),
     ("team", optionalNumber sales.team)]

/-- The sales in a JSON value. -/
def Sales.ofJson? (json : Json) : Option Sales := do
  let fields ← json.fields? ["personal", "total", "team"]
  let personal ← fields.required "personal" Json.number?
  let total ← fields.required "total" Json.number?
  let team ← fields.optional "team" Json.number?
  some ⟨personal, total, team⟩

/-- The JSON form of a profile. -/
def Profile.toJson (profile : Profile) : Json :=
  .record
    [("baseSalary", optionalNumber profile.baseSalary),
     ("years", optionalNumber profile.years),
     ("performance", optionalNumber profile.performance)]

/-- The profile in a JSON value. -/
def Profile.ofJson? (json : Json) : Option Profile := do
  let fields ← json.fields? ["baseSalary", "years", "performance"]
  let baseSalary ← fields.optional "baseSalary" Json.number?
  let years ← fields.optional "years" Json.number?
  let performance ← fields.optional "performance" Json.number?
  some ⟨baseSalary, years, performance⟩

/-- The JSON form of a period. -/
def Period.toJson (period : Period) : Json :=
  .ofString period.text

/-- The period that a text denotes, without the reason when there is none. -/
def Period.read? (text : String) : Option Period :=
  (Period.parse text).toOption

/-- The period in a JSON value. -/
def Period.ofJson? (json : Json) : Option Period :=
  json.string?.bind Period.read?

/-- The JSON form of a date. -/
def Date.toJson (date : Date) : Json :=
  .ofString date.text

/-- The date in a JSON value. -/
def Date.ofJson? (json : Json) : Option Date :=
  json.string?.bind Date.read?

/-- The JSON form of an instant. -/
def Instant.toJson (instant : Instant) : Json :=
  .ofString instant.text

/-- The instant in a JSON value. -/
def Instant.ofJson? (json : Json) : Option Instant :=
  json.string?.bind Instant.read?

/-- The JSON form of a configuration. -/
def Config.toJson (config : Config) : Json :=
  .record
    [("type", some config.planType.toJson),
     ("parameters", some config.parameters.toJson),
     ("customFormula", optionalString config.customFormula),
     ("isActive", some (.boolean config.isActive)),
     ("effectiveDate", config.effectiveDate.map Date.toJson),
     ("lastModified", config.lastModified.map Instant.toJson),
     ("modifiedBy", optionalString config.modifiedBy)]

/-- The configuration in a JSON value; one is inactive unless it says so. -/
def Config.ofJson? (json : Json) : Option Config := do
  let fields ←
    json.fields?
      ["type", "parameters", "customFormula", "isActive", "effectiveDate",
       "lastModified", "modifiedBy"]
  let planType ← fields.required "type" PlanType.ofJson?
  let parameters ← fields.withDefault "parameters" .empty Parameters.ofJson?
  let customFormula ← fields.optional "customFormula" Json.string?
  let isActive ← fields.withDefault "isActive" false Json.boolean?
  let effectiveDate ← fields.optional "effectiveDate" Date.ofJson?
  let lastModified ← fields.optional "lastModified" Instant.ofJson?
  let modifiedBy ← fields.optional "modifiedBy" Json.string?
  some
    ⟨planType, parameters, customFormula, isActive, effectiveDate,
      lastModified, modifiedBy⟩

end IncentivePay
