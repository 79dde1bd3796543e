import IncentivePay.Engine.Basic

/-!
# Texts for human readers

The lines that the command line prints for a reader: the catalog of types, a
verdict, a payout and a batch.  Columns are padded to a width counted in
characters.
-/

namespace IncentivePay.CommandLine

/-- A text with blanks after it up to a width. -/
def padRight
    (width : Nat)
    (text : String) :
    String :=
  text ++ String.ofList (List.replicate (width - text.length) ' ')

/-- Lines with a line break between two. -/
def joinLines (lines : List String) : String :=
  "\n".intercalate lines

/-- The line of a type in the catalog. -/
def typeLine (planType : PlanType) : String :=
  padRight 18 planType.name ++ " " ++ padRight 32 planType.title ++
    " params: " ++
    ", ".intercalate (planType.required.map Requirement.name)

/-- The catalog of types. -/
def catalogText : String :=
  joinLines (PlanType.configurable.map typeLine)

/-- The line of a violation. -/
def violationLine (violation : Violation) : String :=
  "  - [" ++ violation.code ++ "] " ++ violation.message

/-- The lines of a verdict without the trial. -/
def verdictLines (report : Report) : List String :=
  if report.isValid then
    ["Valid"]
  else
    ("Invalid (" ++ toString report.violations.length ++ " error(s))") ::
      report.violations.map violationLine

/-- The lines of a trial; a blank one parts them from violations. -/
def trialLines (report : Report) : List String :=
  let result :=
    (report.testResult.map fun raw => "Sample result: " ++ raw.text).toList
  let amount :=
    (report.testAmount.map fun amount =>
      "Sample amount: " ++ toString amount.toInt).toList
  match result ++ amount with
  | [] => []
  | lines => if report.isValid then lines else "" :: lines

/-- The text of a verdict. -/
def reportText (report : Report) : String :=
  joinLines (verdictLines report ++ trialLines report)

/-- The text of a payout. -/
def payoutText (payout : Payout) : String :=
  let amount :=
    "Amount: " ++ toString payout.amount.toInt ++ " (" ++
      payout.planType.name ++ ")"
  let raw :=
    (payout.details.rawAmount.map fun raw => "Raw amount: " ++ raw.text).toList
  joinLines (amount :: raw)

/-- What the line of a batch says about a user. -/
def outcomeSummary (result : Except SourceError Payout) : String :=
  match result with
  | .error error => "error: " ++ (EngineError.source error).message
  | .ok payout =>
      match payout.details.error with
      | some error => "0 (failed closed: " ++ error ++ ")"
      | none =>
          toString payout.amount.toInt ++ " (" ++ payout.planType.name ++ ")"

/-- The line of a user in a batch. -/
def outcomeLine (outcome : Outcome) : String :=
  "  " ++ padRight 16 outcome.user ++ " " ++ outcomeSummary outcome.result

/-- The text of a batch that has an identifier. -/
def batchText
    (identifier : String)
    (batch : Batch) :
    String :=
  joinLines
    (("Run " ++ identifier ++ " for " ++ batch.period.text) ::
      batch.outcomes.map outcomeLine ++
      [toString batch.calculatedCount ++ " calculated, " ++
        toString batch.reviewCount ++ " need review"])

end IncentivePay.CommandLine
