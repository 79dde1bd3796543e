import IncentivePay.Proofs.Payout.ValidatedConfig

/-!
# Sales figures without an end

A sales figure may be infinite or a NaN.  What a template rule makes of such a
figure is not finite, unless the larger of the excess and zero cuts it off:
the only excess that this leaves without an end is the positive infinity.  The
trial of a formula reports a value that is not finite, and the trial of a
template does not look, so a report may be valid although its test result is
not finite: exactly when a rule overruns on the sample.
-/

namespace IncentivePay

open Formula

/-! ## Products and differences that are not finite -/

namespace Binary64

variable {value rate threshold : Binary64}

/-- What is not finite stays so in a product with a finite number. -/
theorem isFinite_multiply_eq_false
    (endless : value.isFinite = false)
    (isFinite : rate.isFinite = true) :
    (value.multiply rate).isFinite = false := by
  cases rate with
  | nan => simp [Binary64.isFinite] at isFinite
  | infinite rateNegative => simp [Binary64.isFinite] at isFinite
  | finite rateNegative rateUnits representable =>
      cases value with
      | nan => rfl
      | infinite negative =>
          rw [multiply]
          split <;> rfl
      | finite negative units representable =>
          simp [Binary64.isFinite] at endless

/-- A number that is at least zero is finite, or the positive infinity. -/
theorem isFinite_or_eq_infinity
    (nonnegative : zero.isAtMost threshold = true) :
    threshold.isFinite = true ∨ threshold = infinity := by
  obtain ⟨place, stands, notNegative⟩ :=
    exists_place_of_zero_isAtMost nonnegative
  cases threshold with
  | nan => simp [place?] at stands
  | infinite negative =>
      cases negative with
      | false => exact .inr rfl
      | true =>
          have positive := unitBound_pos
          obtain rfl := Option.some.inj stands
          rw [signedUnits, if_pos rfl] at notNegative
          omega
  | finite negative units representable => exact .inl rfl

/-- A difference is infinitely large only when its minuend alone is. -/
theorem subtract_eq_infinity_iff
    (nonnegative : zero.isAtMost threshold = true) :
    value.subtract threshold = infinity ↔
      value = infinity ∧ threshold.isFinite = true := by
  constructor
  · intro endless
    cases value with
    | nan => simp [subtract, add, infinity] at endless
    | finite negative units representable =>
        exact absurd endless (subtract_ne_infinity rfl nonnegative)
    | infinite negative =>
        rcases isFinite_or_eq_infinity nonnegative with isFinite | rfl
        · refine ⟨?_, isFinite⟩
          cases threshold <;>
            simp_all [subtract, negate, add, infinity, Binary64.isFinite]
        · cases negative <;> simp [subtract, negate, add, infinity] at endless
  · rintro ⟨rfl, isFinite⟩
    cases threshold <;>
      simp_all [subtract, negate, add, infinity, Binary64.isFinite]

theorem maxPresent_infinity : infinity.maxPresent zero = infinity := by
  have notLess : infinity.isLess zero = false := by
    have := unitBound_pos
    rw [isLess_of_places place?_infinity place?_zero]
    exact decide_eq_false (by omega)
  rw [maxPresent, notLess]
  rfl

end Binary64

/-! ## Rules -/

namespace Template

variable
  {rule : Template}
  {parameters : Parameters}

/-- A rule makes no finite amount of the sales figure that it reads. -/
def Overruns
    (rule : Template)
    (sales : Sales) :
    Prop :=
  match rule with
  | .percent basis _ => (basis.figure sales).isFinite = false
  | .excess basis threshold _ =>
      basis.figure sales = .infinity ∧ threshold.isFinite = true

theorem isFinite_rawAmount_eq_false_iff
    (inRange : parameters.rangeViolations = [])
    (hasNumbers : rule.HasNumbersOf parameters)
    (sales : Sales) :
    (rule.rawAmount sales).isFinite = false ↔ rule.Overruns sales := by
  cases rule with
  | percent basis rate =>
      obtain ⟨nonnegative, atMostOne⟩ :=
        Parameters.rate_between inRange hasNumbers
      obtain ⟨negative, units, representable, rfl, -⟩ :=
        Binary64.exists_units_of_fraction nonnegative atMostOne
      constructor
      · intro endless
        rw [Overruns, Bool.eq_false_iff]
        intro isFinite
        have isFiniteToo :=
          Binary64.isFinite_multiply isFinite nonnegative atMostOne
        simp [rawAmount, isFiniteToo] at endless
      · intro endless
        exact Binary64.isFinite_multiply_eq_false endless rfl
  | excess basis threshold rate =>
      obtain ⟨thresholdGiven, rateGiven⟩ := hasNumbers
      obtain ⟨nonnegative, atMostOne⟩ :=
        Parameters.rate_between inRange rateGiven
      have thresholdNonnegative :=
        Parameters.threshold_nonneg inRange thresholdGiven
      rw [Overruns, ← Binary64.subtract_eq_infinity_iff thresholdNonnegative,
        rawAmount]
      constructor
      · intro endless
        refine Decidable.byContradiction fun bounded => ?_
        have isFinite :=
          Binary64.isFinite_multiply
            (Binary64.isFinite_maxPresent_zero bounded) nonnegative atMostOne
        simp [isFinite] at endless
      · intro endless
        obtain ⟨negative, units, representable, rfl, -⟩ :=
          Binary64.exists_units_of_fraction nonnegative atMostOne
        rw [endless, Binary64.maxPresent_infinity]
        exact Binary64.isFinite_multiply_eq_false rfl rfl

end Template

/-! ## Reports -/

namespace Config

variable
  {config : Config}
  {rule : Template}
  {sales : Sales}
  {profile : Profile}
  {cache : Cache}

theorem isTemplate_of_rule
    (hasRule :
      Template.ofParameters config.planType config.parameters = .ok rule) :
    config.planType ≠ .custom ∧ config.planType ≠ .noPlan := by
  constructor
  · intro isCustom
    simp [isCustom, Template.ofParameters] at hasRule
  · intro noPlan
    simp [noPlan, Template.ofParameters] at hasRule

/--
The report on a template lists the violated rules, and no value of its trial.
-/
theorem validate_template
    (hasRule :
      Template.ofParameters config.planType config.parameters = .ok rule) :
    (config.validate sales profile cache).1 =
      ⟨config.violations, some (rule.rawAmount sales),
        if config.violations.isEmpty then
          some (config.parameters.limit (rule.rawAmount sales))
        else
          none⟩ := by
  obtain ⟨notCustom, planned⟩ := isTemplate_of_rule hasRule
  exact validate_of_trial_ok (trial_template notCustom planned hasRule)

/-- The report on a formula without a finite value names that value. -/
theorem validate_endlessFormula
    {formula : String}
    {tree : Expr}
    {raw : Binary64}
    (isCustom : config.planType = .custom)
    (hasFormula : config.formula? = some formula)
    (isTree : (cache.getOrParse formula).1 = .ok tree)
    (evaluated : evaluate tree (.ofRecords sales profile) = .ok raw)
    (endless : raw.isFinite = false) :
    (config.validate sales profile cache).1 =
      ⟨config.violations ++ [.nonFinite raw], none, none⟩ := by
  apply validate_of_trial_error
  simp [trial, isCustom, hasFormula, isTree, tryFormula, evaluated, endless,
    Except.map]

/-- A formula whose trial finds a value has found a finite one. -/
theorem isFinite_of_trial
    {raw : Binary64}
    (isCustom : config.planType = .custom)
    (tried : (config.trial sales profile cache).1 = .ok (some raw)) :
    raw.isFinite = true := by
  simp only [trial, isCustom] at tried
  split at tried
  · simp at tried
  · rename_i formula hasFormula
    unfold tryFormula at tried
    split at tried
    · simp [Except.map] at tried
    · split at tried
      · simp [Except.map] at tried
      · split at tried
        · simp_all [Except.map]
        · simp [Except.map] at tried

/-- Without violations there is something to try out. -/
theorem trial_ne_none (sound : config.violations = []) :
    (config.trial sales profile cache).1 ≠ .ok none := by
  intro nothing
  by_cases isCustom : config.planType = .custom
  · obtain ⟨formula, hasFormula⟩ := isSome_formula?_of_sound sound isCustom
    simp only [trial, isCustom, hasFormula] at nothing
    cases tried :
        tryFormula (cache.getOrParse formula).1 (.ofRecords sales profile) with
    | error violation => simp [tried, Except.map] at nothing
    | ok raw => simp [tried, Except.map] at nothing
  · have planned := planned_of_sound sound
    obtain ⟨rule, hasRule⟩ := exists_rule_of_sound sound isCustom planned
    rw [trial_template isCustom planned hasRule] at nothing
    simp at nothing

/--
A valid report has the value that its trial finds, and the limited amount of
it.
-/
theorem exists_raw_of_isValid
    (isValid : (config.validate sales profile cache).1.isValid = true) :
    config.violations = [] ∧
      ∃ raw,
        (config.trial sales profile cache).1 = .ok (some raw) ∧
          (config.validate sales profile cache).1 =
            ⟨[], some raw, some (config.parameters.limit raw)⟩ := by
  cases tried : (config.trial sales profile cache).1 with
  | error violation =>
      rw [validate_of_trial_error tried] at isValid
      simp [Report.isValid] at isValid
  | ok testResult =>
      rw [validate_of_trial_ok tried] at isValid
      have sound : config.violations = [] := List.isEmpty_iff.1 isValid
      cases testResult with
      | none => exact absurd tried (trial_ne_none sound)
      | some raw => exact ⟨sound, raw, rfl, validate_of_sound sound tried⟩

end Config

/--
A valid report has a test result, and the limited amount of it; the result is
not finite exactly when the configuration has a rule that overruns on the
sample.  A formula that is read and has no finite value makes the report
invalid and is named in it.  A rule without a finite amount is never named:
the report is valid exactly when the configuration violates nothing.
-/
theorem validate_endless_iff
    (config : Config)
    (sales : Sales)
    (profile : Profile)
    (cache : Cache) :
    let report := (config.validate sales profile cache).1
    (report.isValid = true →
      ∃ raw,
        report.testResult = some raw ∧
          report.testAmount = some (config.parameters.limit raw) ∧
          (raw.isFinite = false ↔
            ∃ rule,
              Template.ofParameters config.planType config.parameters =
                  .ok rule ∧
                rule.Overruns sales)) ∧
      (∀ formula tree raw,
        config.planType = .custom →
        config.formula? = some formula →
        (cache.getOrParse formula).1 = .ok tree →
        evaluate tree (.ofRecords sales profile) = .ok raw →
        raw.isFinite = false →
        report.isValid = false ∧ .nonFinite raw ∈ report.violations) ∧
      (∀ rule,
        Template.ofParameters config.planType config.parameters = .ok rule →
        (report.isValid = true ↔ config.violations = []) ∧
          ∀ raw, .nonFinite raw ∉ report.violations) := by
  intro report
  refine ⟨?_, ?_, ?_⟩
  · intro isValid
    obtain ⟨sound, raw, tried, reported⟩ := Config.exists_raw_of_isValid isValid
    simp only [report, reported]
    refine ⟨raw, rfl, rfl, ?_⟩
    by_cases isCustom : config.planType = .custom
    · have isFinite := Config.isFinite_of_trial isCustom tried
      constructor
      · intro endless
        simp [isFinite] at endless
      · rintro ⟨rule, hasRule, -⟩
        exact absurd isCustom (Config.isTemplate_of_rule hasRule).1
    · have planned := Config.planned_of_sound sound
      obtain ⟨rule, hasRule⟩ :=
        Config.exists_rule_of_sound sound isCustom planned
      obtain rfl : rule.rawAmount sales = raw := by
        rw [Config.trial_template isCustom planned hasRule] at tried
        exact Option.some.inj (Except.ok.inj tried)
      rw [Template.isFinite_rawAmount_eq_false_iff
        (List.append_eq_nil_iff.1 sound).2
        (Template.planType_and_numbers_of_ofParameters hasRule).2]
      constructor
      · intro overruns
        exact ⟨rule, hasRule, overruns⟩
      · rintro ⟨other, hasOther, overruns⟩
        obtain rfl : rule = other :=
          Except.ok.inj (hasRule.symm.trans hasOther)
        exact overruns
  · intro formula tree raw isCustom hasFormula isTree evaluated endless
    have reported :=
      Config.validate_endlessFormula isCustom hasFormula isTree evaluated
        endless
    simp [report, reported, Report.isValid]
  · intro rule hasRule
    have reported :=
      @Config.validate_template _ _ sales profile cache hasRule
    refine ⟨?_, ?_⟩
    · simp [report, reported, Report.isValid]
    · intro raw member
      simp only [report, reported] at member
      have notFailure := Config.not_isFormulaFailure_of_mem member
      contradiction

/-- A plan that pays a person all of the sales. -/
def allPersonal : Config :=
  .active .personalPercent ⟨some .one, none, none, none⟩ none

/-- Sales of a person that have no end. -/
def endlessSales : Sales :=
  { Sales.sample with personal := .infinity }

/--
On endless sales the report on that plan is valid, with a result to match.
-/
theorem validate_allPersonal_endlessSales :
    (allPersonal.validate endlessSales .sample (.ofCapacity 1)).1 =
        ⟨[], some .infinity, some Int64.maxValue⟩ ∧
      (allPersonal.validate endlessSales .sample
        (.ofCapacity 1)).1.isValid = true ∧
      Binary64.infinity.isFinite = false := by
  decide +kernel

end IncentivePay
