import IncentivePay.Proofs.Engine.Refinement
import IncentivePay.Proofs.Formula.HostileTexts
import IncentivePay.Proofs.Payout.TrialAgreement

/-!
# Hostile formulas are stopped

A formula that the parser refuses never comes to an evaluation: a report lists
the error of the parser and has no result, a preview answers it, and a
calculation pays nothing and keeps it.  Hostile texts are refused by the
parser and they are not blank, so they are stopped in these three ways and not
taken for a missing formula.
-/

namespace IncentivePay

open Formula

/-! ## Unreadable formulas -/

namespace Config

variable
  {config : Config}
  {formula : String}
  {error : SyntaxError}
  {sales : Sales}
  {profile : Profile}
  {cache : Cache}

theorem validate_of_unreadable
    (isCustom : config.planType = .custom)
    (hasFormula : config.formula? = some formula)
    (isRead : config.IsReadBy cache)
    (refused : parse formula = .error error) :
    (config.validate sales profile cache).1 =
      ⟨config.parameters.rangeViolations ++ [.unreadable error], none,
        none⟩ := by
  have tried :
      (config.trial sales profile cache).1 = .error (.unreadable error) := by
    rw [trial_custom isCustom hasFormula isRead, refused]
    rfl
  rw [validate_of_trial_error tried, violations_of_formula isCustom hasFormula]

/-- The error of a custom configuration whose formula is not read. -/
def refusal
    (config : Config)
    (error : SyntaxError) :
    CalculationError :=
  if config.parameters.rangeViolations = [] then
    .unreadable error
  else
    .invalidParameters config.parameters.rangeViolations

theorem simulate_of_unreadable
    (isCustom : config.planType = .custom)
    (hasFormula : config.formula? = some formula)
    (isRead : config.IsReadBy cache)
    (refused : parse formula = .error error) :
    (config.simulate sales profile cache).1 =
      .error (config.refusal error) := by
  have planned : config.planType ≠ .noPlan := by simp [isCustom]
  have same := violations_of_formula isCustom hasFormula
  rw [simulate_eq planned, refusal]
  by_cases inRange : config.parameters.rangeViolations = []
  · rw [if_pos inRange,
      compute_custom (same.trans inRange) isCustom hasFormula isRead, refused]
    rfl
  · have broken : config.violations ≠ [] := by rwa [same]
    rw [if_neg inRange, compute_of_violations broken, same]
    rfl

/--
A payout of an unreadable formula is nothing, and no raw amount is recorded.
-/
theorem payOut_of_unreadable
    (isCustom : config.planType = .custom)
    (hasFormula : config.formula? = some formula)
    (isRead : config.IsReadBy cache)
    (refused : parse formula = .error error)
    (sales? : Option Sales) :
    (config.payOut sales? profile cache).1.FailsClosedWith config sales?
        profile (config.refusal error) ∧
      (config.payOut sales? profile cache).1.details.rawAmount = none := by
  have planned : config.planType ≠ .noPlan := by simp [isCustom]
  have closed :=
    @payOut_refines_simulate config profile cache cache planned
      (fun _ => isRead) (fun _ => isRead) sales?
  rw [simulate_of_unreadable isCustom hasFormula isRead refused] at closed
  refine ⟨closed, ?_⟩
  have reached := closed.reached
  unfold refusal at reached
  split at reached
  · exact reached.2
  · exact reached.2.2

end Config

/-! ## Hostile texts -/

theorem Config.formula?_of_isHostile
    {config : Config}
    {text : String}
    (hostile : IsHostile text)
    (hasText : config.customFormula = some text) :
    config.formula? = some text := by
  simp [Config.formula?, hasText, hostile.isBlankText_eq_false]

/--
The parser refuses a hostile text, wherever the hostile fragment stands in it.
Over every cache that a run leaves, a report on the text alone lists the error
of the parser and nothing else and has no result, a preview of a configuration
with the text and parameters in their ranges answers that error, and a
calculation for a user with an active plan of that text pays nothing, records
an error and no raw amount.
-/
theorem hostile_text_is_stopped
    {text : String}
    (hostile : IsHostile text)
    (capacity : Nat)
    (commands : List CacheCommand)
    (collisionFree : CollisionFree (text :: textsOf commands)) :
    let cache := (Cache.ofCapacity capacity).run commands
    ∃ error,
      parse text = .error error ∧
      (∀ sales profile,
        let report := (validateFormula text sales profile cache).1
        report.isValid = false ∧
          report.violations = [.unreadable error] ∧
          report.violations.map Violation.code = ["syntax_error"] ∧
          report.testResult = none ∧
          report.testAmount = none) ∧
      (∀ (config : Config) sales profile,
        config.planType = .custom →
        config.customFormula = some text →
        config.parameters.rangeViolations = [] →
        (config.simulate sales profile cache).1 =
          .error (.unreadable error)) ∧
      (∀ (sources : Sources) user period config sales? profile,
        sources.Answer user period config sales? profile →
        config.planType = .custom →
        config.customFormula = some text →
        ∃ payout,
          (calculate sources user period cache).1 = .ok payout ∧
            payout.amount = 0 ∧
            payout.details.error ≠ none ∧
            payout.details.rawAmount = none ∧
            (config.parameters.rangeViolations = [] →
              payout.FailsClosedWith config sales? profile
                (.unreadable error))) := by
  intro cache
  obtain ⟨error, refused⟩ := hostile.exists_error
  have isRead
      {config : Config}
      (hasText : config.customFormula = some text) :
      config.IsReadBy cache :=
    Config.isReadBy_run_of_formula
      (config.formula?_of_isHostile hostile hasText) collisionFree
  refine ⟨error, refused, ?_, ?_, ?_⟩
  · intro sales profile report
    have hasText :
        (Config.active .custom .empty (some text)).customFormula =
          some text := rfl
    have reported :
        report = ⟨[.unreadable error], none, none⟩ :=
      Config.validate_of_unreadable rfl
        (Config.formula?_of_isHostile hostile hasText) (isRead hasText) refused
    rw [reported]
    exact ⟨rfl, rfl, rfl, rfl, rfl⟩
  · intro config sales profile isCustom hasText inRange
    rw [Config.simulate_of_unreadable isCustom
        (Config.formula?_of_isHostile hostile hasText) (isRead hasText) refused,
      Config.refusal, if_pos inRange]
  · intro sources user period config sales? profile answer isCustom hasText
    obtain ⟨closed, noRaw⟩ :=
      @Config.payOut_of_unreadable config text error profile cache isCustom
        (Config.formula?_of_isHostile hostile hasText) (isRead hasText) refused
        sales?
    refine
      ⟨_, calculate_of_answer answer cache, closed.amount, ?_, noRaw, ?_⟩
    · simp [closed.kept]
    · intro inRange
      rwa [Config.refusal, if_pos inRange] at closed

/-- A plan that compares with three equals signs. -/
def thriceEqual : Config :=
  .active .custom .empty (some "personalSales === 1")

/-- The third equals sign is refused, and nothing is paid. -/
theorem hostile_text_is_stopped_thriceEqual :
    let period : Period := ⟨2024, 1, by decide, by decide, by decide⟩
    let cache := (Cache.ofCapacity 1).run [.getOrParse "personalSales === 1"]
    (validateFormula "personalSales === 1" .sample .sample cache).1.isValid =
        false ∧
      ∃ payout,
        (calculate (Sources.ofConfig thriceEqual) "ada" period cache).1 =
            .ok payout ∧
          payout.amount = 0 := by
  intro period cache
  have hostile : IsHostile "personalSales === 1" := .equals (by decide)
  have answer :=
    @Sources.answer_ofConfig thriceEqual rfl (by decide) "ada" period
  obtain ⟨error, -, reported, -, calculated⟩ :=
    hostile_text_is_stopped hostile 1 [.getOrParse "personalSales === 1"]
      (@CollisionFree.of_all_eq _ "personalSales === 1" (by decide))
  obtain ⟨payout, paid, nothing, -⟩ :=
    calculated (Sources.ofConfig thriceEqual) "ada" period thriceEqual none
      .empty answer rfl rfl
  exact ⟨(reported .sample .sample).1, payout, paid, nothing⟩

end IncentivePay
