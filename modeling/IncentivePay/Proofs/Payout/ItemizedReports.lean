import IncentivePay.Proofs.Payout.ValidatedConfig

/-!
# Both callers report the violated rules

The rules are checked before a configuration is activated and again before it
is run.  A report begins with the list of the violated rules and adds at most
the failure of the trial, `Config.FailsTrialWith`; a computation answers with
the same list, and with it only when it is not empty.
-/

namespace IncentivePay

open Formula

/-- The formula of a configuration fails on sample data, and how. -/
inductive Config.FailsTrialWith
    (config : Config)
    (sales : Sales)
    (profile : Profile) :
    Violation →
    Prop
  | unreadable {formula : String} {error : SyntaxError} :
      config.planType = .custom →
      config.formula? = some formula →
      parse formula = .error error →
      FailsTrialWith config sales profile (.unreadable error)
  | nonFinite {formula : String} {tree : Expr} {raw : Binary64} :
      config.planType = .custom →
      config.formula? = some formula →
      parse formula = .ok tree →
      evaluate tree (.ofRecords sales profile) = .ok raw →
      raw.isFinite = false →
      FailsTrialWith config sales profile (.nonFinite raw)

namespace Config

variable
  {config : Config}
  {sales : Sales}
  {profile : Profile}
  {cache : Cache}

/-! ## The report -/

theorem trial_of_not_custom
    (notCustom : config.planType ≠ .custom)
    (violation : Violation) :
    (config.trial sales profile cache).1 ≠ .error violation := by
  unfold trial
  split
  · simp
  · contradiction
  · split <;> simp

/-- A formula that is read fails in its trial as it fails. -/
theorem tryFormula_eq_error_iff
    {formula : String}
    (isCustom : config.planType = .custom)
    (hasFormula : config.formula? = some formula)
    (violation : Violation) :
    tryFormula (parse formula) (.ofRecords sales profile) =
        .error violation ↔
      config.FailsTrialWith sales profile violation := by
  have isFormula :
      ∀ {other : String}, config.formula? = some other → other = formula := by
    intro other hasOther
    simpa using hasOther.symm.trans hasFormula
  constructor
  · intro failed
    cases parsed : parse formula with
    | error error =>
        obtain rfl : .unreadable error = violation := by
          simpa [parsed, tryFormula] using failed
        exact .unreadable isCustom hasFormula parsed
    | ok tree =>
        obtain ⟨raw, evaluated⟩ :=
          exists_evaluate_of_parse parsed
            (Bindings.bindsAll_ofRecords sales profile)
        simp only [parsed, tryFormula, evaluated] at failed
        split at failed
        · contradiction
        · rename_i notFinite
          obtain rfl : .nonFinite raw = violation := by simpa using failed
          exact
            .nonFinite isCustom hasFormula parsed evaluated
              (by simpa using notFinite)
  · intro fails
    cases fails with
    | unreadable _ hasOther refused =>
        rw [isFormula hasOther] at refused
        rw [refused]
        rfl
    | nonFinite _ hasOther parsed evaluated notFinite =>
        rw [isFormula hasOther] at parsed
        simp [parsed, tryFormula, evaluated, notFinite]

theorem trial_eq_error_iff
    (isRead : config.planType = .custom → config.IsReadBy cache)
    (violation : Violation) :
    (config.trial sales profile cache).1 = .error violation ↔
      config.FailsTrialWith sales profile violation := by
  by_cases isCustom : config.planType = .custom
  · cases hasFormula : config.formula? with
    | none =>
        constructor
        · simp [trial, isCustom, hasFormula]
        · intro fails
          cases fails <;> simp_all
    | some formula =>
        rw [trial_custom isCustom hasFormula (isRead isCustom),
          ← tryFormula_eq_error_iff isCustom hasFormula]
        cases tryFormula (parse formula) (.ofRecords sales profile) <;>
          simp [Except.map]
  · constructor
    · intro failed
      exact absurd failed (trial_of_not_custom isCustom violation)
    · intro fails
      cases fails <;> contradiction

/-- A report has the violated rules first and then the failure of the trial. -/
theorem exists_found_validate
    (isRead : config.planType = .custom → config.IsReadBy cache) :
    ∃ found,
      (config.validate sales profile cache).1.violations =
          config.violations ++ found ∧
        found.length ≤ 1 ∧
        ∀ violation,
          violation ∈ found ↔
            config.FailsTrialWith sales profile violation := by
  simp only [← trial_eq_error_iff isRead]
  cases tried : (config.trial sales profile cache).1 with
  | ok testResult =>
      rw [validate_of_trial_ok tried]
      exact ⟨[], by simp⟩
  | error violation =>
      rw [validate_of_trial_error tried]
      exact ⟨[violation], by simp [eq_comm]⟩

/-! ## The computation -/

/-- A computation answers with violated rules exactly when there are some. -/
theorem outcome_eq_invalidParameters_iff
    (isRead : config.planType = .custom → config.IsReadBy cache)
    (violations : List Violation) :
    (config.compute sales profile cache).1.outcome =
        .error (.invalidParameters violations) ↔
      violations = config.violations ∧ violations ≠ [] := by
  by_cases sound : config.violations = []
  · have never :
        (config.compute sales profile cache).1.outcome ≠
          .error (.invalidParameters violations) := by
      intro failed
      have computes :
          config.ComputesTo sales profile
            (config.compute sales profile cache).1 :=
        computesTo_compute (planned_of_sound sound) isRead
      generalize (config.compute sales profile cache).1 = computation
        at computes failed
      cases computes with
      | violating broken => contradiction
      | template => cases Computation.eq_nonFinite_of_settle failed
      | unreadable => cases Except.error.inj failed
      | formula => cases Computation.eq_nonFinite_of_settle failed
    simp [never, sound]
  · rw [compute_of_violations sound]
    constructor
    · intro answered
      obtain rfl : config.violations = violations := by
        simpa [Computation.stopped] using answered
      exact ⟨rfl, sound⟩
    · rintro ⟨rfl, -⟩
      rfl

/-- A configuration that violates nothing has a plan. -/
theorem exists_plan_of_sound (sound : config.violations = []) :
    ∃ plan, config.plan = .ok plan ∧ plan ≠ .noIncentive := by
  have planned := planned_of_sound sound
  by_cases isCustom : config.planType = .custom
  · obtain ⟨formula, hasFormula⟩ := isSome_formula?_of_sound sound isCustom
    exact ⟨.custom formula, plan_of_formula isCustom hasFormula, by simp⟩
  · obtain ⟨rule, hasRule⟩ := exists_rule_of_sound sound isCustom planned
    exact
      ⟨.template rule, plan_of_rule isCustom planned hasRule, by simp⟩

/-! ## Every configuration -/

theorem violations_of_noPlan (noPlan : config.planType = .noPlan) :
    config.violations =
      .unconfigurable .noPlan :: config.parameters.rangeViolations := by
  simp [violations, requirementViolations, noPlan]

/-- A NaN violates the rule of the parameter that it is given for. -/
theorem violates_of_nan :
    (config.parameters.rate = some .nan →
        Violates config (.rateOutOfRange .nan)) ∧
      (config.parameters.threshold = some .nan →
        Violates config (.negativeThreshold .nan)) ∧
      (config.parameters.minAmount = some .nan →
        Violates config (.negativeMinAmount .nan)) ∧
      (config.parameters.maxAmount = some .nan →
        Violates config (.negativeMaxAmount .nan)) := by
  obtain ⟨notFraction, notNonnegative⟩ := Binary64.nan_in_no_range
  exact
    ⟨fun given => .rateOutOfRange given notFraction,
      fun given => .negativeThreshold given notNonnegative,
      fun given => .negativeMinAmount given notNonnegative,
      fun given => .negativeMaxAmount given notNonnegative⟩

end Config

/--
The list of violations of a configuration is empty exactly when the
configuration is sound, and then it has a plan; it has the violated rules and
no others, each once and in the order of their ranks.  A NaN violates the rule
of its own parameter, and without a plan only the ranges are checked besides.

A computation over a cache that some run leaves answers with the list exactly
when it is not empty.  A report on any sample data begins with the list, adds
at most the failure of the formula on the data, and is valid when there is
neither.
-/
theorem violations_exact (config : Config) :
    (config.violations = [] ↔ config.IsSound) ∧
      (config.violations = [] →
        ∃ plan, config.plan = .ok plan ∧ plan ≠ .noIncentive) ∧
      (∀ violation,
        violation ∈ config.violations ↔ Violates config violation) ∧
      (config.violations.Pairwise fun earlier later =>
        earlier.rank < later.rank) ∧
      ((config.parameters.rate = some .nan →
          .rateOutOfRange .nan ∈ config.violations) ∧
        (config.parameters.threshold = some .nan →
          .negativeThreshold .nan ∈ config.violations) ∧
        (config.parameters.minAmount = some .nan →
          .negativeMinAmount .nan ∈ config.violations) ∧
        (config.parameters.maxAmount = some .nan →
          .negativeMaxAmount .nan ∈ config.violations)) ∧
      (config.planType = .noPlan →
        config.violations =
          .unconfigurable .noPlan :: config.parameters.rangeViolations) ∧
      ∀ (sales : Sales)
        (profile : Profile)
        (capacity : Nat)
        (commands : List CacheCommand),
        (∀ formula,
          config.planType = .custom →
          config.formula? = some formula →
          CollisionFree (formula :: textsOf commands)) →
        let cache := (Cache.ofCapacity capacity).run commands
        let report := (config.validate sales profile cache).1
        (∀ violations,
          (config.compute sales profile cache).1.outcome =
              .error (.invalidParameters violations) ↔
            violations = config.violations ∧ violations ≠ []) ∧
          (∃ found,
            report.violations = config.violations ++ found ∧
              found.length ≤ 1 ∧
              ∀ violation,
                violation ∈ found ↔
                  config.FailsTrialWith sales profile violation) ∧
          (report.isValid = true ↔
            config.IsSound ∧
              ∀ violation,
                ¬ config.FailsTrialWith sales profile violation) := by
  have itemizes := config.itemizes_violations
  refine
    ⟨config.violations_eq_nil_iff, Config.exists_plan_of_sound,
      itemizes.mem_iff, itemizes.ordered, ?_, Config.violations_of_noPlan, ?_⟩
  · simp only [itemizes.mem_iff]
    exact Config.violates_of_nan
  · intro sales profile capacity commands collisionFree cache report
    have isRead : config.planType = .custom → config.IsReadBy cache :=
      fun isCustom =>
        Config.isReadBy_run fun formula hasFormula =>
          collisionFree formula isCustom hasFormula
    obtain ⟨found, listed, atMostOne, isFailure⟩ :=
      @Config.exists_found_validate _ sales profile _ isRead
    refine
      ⟨Config.outcome_eq_invalidParameters_iff isRead,
        ⟨found, listed, atMostOne, isFailure⟩, ?_⟩
    have noneFound :
        found = [] ↔
          ∀ violation, ¬ config.FailsTrialWith sales profile violation := by
      simp only [← isFailure, List.eq_nil_iff_forall_not_mem]
    rw [Report.isValid, List.isEmpty_iff, listed, List.append_eq_nil_iff,
      config.violations_eq_nil_iff, noneFound]

/--
The personal sales, at a rate that is no number and with limits in the wrong
order.
-/
def mislimitedSales : Config :=
  .active .custom ⟨some .nan, none, some .one, some .zero⟩ (some "sales")

/-- Infinite sales. -/
def infiniteSales : Sales where
  personal := .infinity
  team := none
  total := .infinity

/--
On infinite sales the failure of the formula follows the two violated rules.
-/
theorem violations_exact_mislimitedSales :
    let cache := (Cache.ofCapacity 1).run []
    (mislimitedSales.compute infiniteSales .empty cache).1.outcome =
        .error
          (.invalidParameters [.rateOutOfRange .nan, .minExceedsMax .one .zero]) ∧
      (mislimitedSales.validate infiniteSales .empty cache).1.violations =
        [.rateOutOfRange .nan, .minExceedsMax .one .zero,
          .nonFinite .infinity] := by
  intro cache
  have isFormula : mislimitedSales.formula? = some "sales" := by decide
  have violated :
      mislimitedSales.violations =
        [.rateOutOfRange .nan, .minExceedsMax .one .zero] := by
    decide +kernel
  have collisionFree :
      ∀ formula,
        mislimitedSales.planType = .custom →
        mislimitedSales.formula? = some formula →
        CollisionFree (formula :: textsOf []) := by
    intro formula _ hasFormula
    obtain rfl : "sales" = formula := by
      simpa using isFormula.symm.trans hasFormula
    exact @CollisionFree.of_all_eq _ "sales" (by decide)
  have fails :
      mislimitedSales.FailsTrialWith infiniteSales .empty
        (.nonFinite .infinity) :=
    .nonFinite rfl isFormula (parse_name .sales) rfl rfl
  obtain ⟨-, -, -, -, -, -, onData⟩ := violations_exact mislimitedSales
  obtain ⟨answers, ⟨found, listed, atMostOne, isFailure⟩, -⟩ :=
    onData infiniteSales .empty 1 [] collisionFree
  refine ⟨(answers _).2 ⟨violated.symm, by simp⟩, ?_⟩
  have member := (isFailure _).2 fails
  obtain rfl : found = [.nonFinite .infinity] := by
    cases found with
    | nil => simp at member
    | cons first others =>
        obtain rfl : others = [] := by simpa using atMostOne
        simpa [eq_comm] using member
  rw [listed, violated]
  rfl

end IncentivePay
