import IncentivePay.Payout.Calculation

/-!
# Validating a configuration

Before a configuration is activated, every rule is checked and its plan is
tried out on sample data.  All violations are reported together; the trial
adds at most one, when the formula cannot be read or has no finite value.
-/

namespace IncentivePay

open Formula

/-- The verdict on a configuration. -/
structure Report where
  violations : List Violation
  testResult : Option Binary64
  testAmount : Option Int64
deriving DecidableEq

/-- A configuration without violations is valid. -/
def Report.isValid (report : Report) : Bool :=
  report.violations.isEmpty

/--
The raw amount of a formula on sample data, which has to be finite.
-/
def tryFormula
    (tree : Except SyntaxError Expr)
    (bindings : Bindings) :
    Except Violation Binary64 :=
  match tree with
  | .error error => .error (.unreadable error)
  | .ok tree =>
      match evaluate tree bindings with
      | .error error => .error (.evaluation error)
      | .ok raw => if raw.isFinite then .ok raw else .error (.nonFinite raw)

namespace Config

/--
The raw amount on sample data, or nothing when the configuration is too
incomplete to be run, which the rules report already.
-/
def trial
    (config : Config)
    (sales : Sales)
    (profile : Profile)
    (cache : Cache) :
    Except Violation (Option Binary64) × Cache :=
  match config.planType with
  | .noPlan => (.ok none, cache)
  | .custom =>
      match config.formula? with
      | none => (.ok none, cache)
      | some formula =>
          let (tree, cache) := cache.getOrParse formula
          ((tryFormula tree (.ofRecords sales profile)).map some, cache)
  | planType =>
      match Template.ofParameters planType config.parameters with
      | .ok rule => (.ok (some (rule.rawAmount sales)), cache)
      | .error _ => (.ok none, cache)

/-- The verdict on a configuration, with sample data to try it out on. -/
def validate
    (config : Config)
    (sales : Sales)
    (profile : Profile)
    (cache : Cache) :
    Report × Cache :=
  let (outcome, cache) := config.trial sales profile cache
  let (found, testResult) :=
    match outcome with
    | .ok testResult => ([], testResult)
    | .error violation => ([violation], none)
  let violations := config.violations ++ found
  let testAmount :=
    if violations.isEmpty then testResult.map config.parameters.limit else none
  (⟨violations, testResult, testAmount⟩, cache)

end Config

/-- The verdict on a bare formula, as a configuration without limits. -/
def validateFormula
    (formula : String)
    (sales : Sales)
    (profile : Profile)
    (cache : Cache) :
    Report × Cache :=
  (Config.active .custom .empty (some formula)).validate sales profile cache

end IncentivePay
