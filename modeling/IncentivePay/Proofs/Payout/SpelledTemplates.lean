import IncentivePay.Proofs.Binary64.ZeroSigns
import IncentivePay.Proofs.Payout.TemplateFormulas
import IncentivePay.Proofs.Payout.ValidatedConfig

/-!
# A template and the formula that spells it out

A template rule is computed on numbers, and its formula is scanned, parsed and
evaluated.  On a sales figure that is a number the two raw amounts are alike:
they are the same, a NaN included, or they are zeros with signs of their own.
Limits do not see the sign of a zero, so a configuration and the custom
configuration with the formula of its rule pay the same, or both fail because
of the same raw amount.
-/

namespace IncentivePay

open Formula

/-! ## Raw amounts -/

namespace Template

variable
  {rule : Template}
  {sales : Sales}

/-- The amount of a rule and the value of its formula are alike. -/
theorem isAlike_rawAmount
    (finite : rule.IsFinite)
    (isNumber : (rule.basis.figure sales).isNaN = false) :
    Binary64.IsAlike (rule.rawAmount sales)
      ((rule.strictPortion sales).multiply rule.rate) := by
  cases rule with
  | percent basis rate => exact .same _
  | excess basis threshold rate =>
      have differenceIsNumber :
          ((basis.figure sales).subtract threshold).isNaN = false :=
        Binary64.isNaN_subtract isNumber (finite.threshold threshold rfl)
      exact
        (Binary64.isAlike_max_zero differenceIsNumber).multiply finite.rate

theorem isFinite_of_parameters
    {parameters : Parameters}
    (inRange : parameters.rangeViolations = [])
    (hasNumbers : rule.HasNumbersOf parameters)
    (finiteThreshold :
      ∀ threshold ∈ rule.threshold?, threshold.isFinite = true) :
    rule.IsFinite := by
  have rateGiven : parameters.rate = some rule.rate := by
    cases rule with
    | percent basis rate => exact hasNumbers
    | excess basis threshold rate => exact hasNumbers.2
  obtain ⟨nonnegative, atMostOne⟩ := Parameters.rate_between inRange rateGiven
  obtain ⟨negative, units, representable, isRate, -⟩ :=
    Binary64.exists_units_of_fraction nonnegative atMostOne
  refine ⟨?_, finiteThreshold⟩
  rw [isRate]
  rfl

end Template

/--
Alike raw amounts are settled alike: the limits do not see the sign of a zero.
-/
theorem Computation.settle_of_isAlike
    {parameters : Parameters}
    {left right : Binary64}
    (inRange : parameters.rangeViolations = [])
    (alike : Binary64.IsAlike left right) :
    settle parameters left = settle parameters right := by
  cases alike with
  | same => rfl
  | zeros negative other =>
      obtain ⟨lower, upper, lowerStands, upperStands, -, -⟩ :=
        Parameters.exists_bounds inRange
      have limited (sign : Bool) :=
        Parameters.limit_of_places (Binary64.place?_signedZero sign)
          lowerStands upperStands
      rw [Config.settle_of_isFinite rfl, Config.settle_of_isFinite rfl,
        limited negative, limited other]

/-! ## Configurations -/

namespace Config

variable
  {config : Config}
  {rule : Template}
  {sales : Sales}
  {profile : Profile}
  {cache : Cache}

/--
The custom configuration with the formula of a rule and the same parameters.
-/
def spelledOut
    (config : Config)
    (rule : Template) :
    Config :=
  { config with
    planType := .custom
    customFormula := some rule.formula }

theorem formula?_spelledOut (finite : rule.IsFinite) :
    (config.spelledOut rule).formula? = some rule.formula := by
  simp [formula?, spelledOut, Template.isBlankText_formula finite]

theorem violations_spelledOut
    (sound : config.violations = [])
    (finite : rule.IsFinite) :
    (config.spelledOut rule).violations = [] := by
  rw [violations_of_formula rfl (formula?_spelledOut finite)]
  exact (List.append_eq_nil_iff.1 sound).2

/-- The formula of a rule is settled as the rule is. -/
theorem outcome_spelledOut
    (sound : config.violations = [])
    (finite : rule.IsFinite)
    (isNumber : (rule.basis.figure sales).isNaN = false)
    (isRead : (config.spelledOut rule).IsReadBy cache) :
    ((config.spelledOut rule).compute sales profile cache).1.outcome =
      Computation.settle config.parameters (rule.rawAmount sales) := by
  obtain ⟨parsed, evaluated⟩ :=
    Template.parse_and_evaluate_formula finite sales profile
  have soundToo := violations_spelledOut sound finite
  have alike := Template.isAlike_rawAmount finite isNumber
  have inRange := (List.append_eq_nil_iff.1 sound).2
  rw [compute_custom soundToo rfl (formula?_spelledOut finite) isRead, parsed,
    Computation.settle_of_isAlike inRange alike]
  simp only [Computation.ofFormula, evaluated]
  rfl

end Config

/--
A template configuration without violations whose threshold is finite, and the
custom configuration with the formula that spells its rule out and the same
parameters: their previews on the same sales, where the figure that the rule
reads is a number, pay the same amount, or both fail because of the same raw
amount, which is not finite.  The profiles and the caches that runs leave do
not matter.
-/
theorem simulate_spelledOut
    {config : Config}
    {rule : Template}
    (sound : config.violations = [])
    (hasRule :
      Template.ofParameters config.planType config.parameters = .ok rule)
    (finiteThreshold :
      ∀ threshold ∈ rule.threshold?, threshold.isFinite = true)
    (sales : Sales)
    (isNumber : (rule.basis.figure sales).isNaN = false)
    (profile otherProfile : Profile)
    (capacity otherCapacity : Nat)
    (commands otherCommands : List CacheCommand)
    (collisionFree : CollisionFree (rule.formula :: textsOf otherCommands)) :
    let native :=
      (config.simulate sales profile
        ((Cache.ofCapacity capacity).run commands)).1
    let spelled :=
      ((config.spelledOut rule).simulate sales otherProfile
        ((Cache.ofCapacity otherCapacity).run otherCommands)).1
    (∃ payout spelledPayout,
        native = .ok payout ∧
          spelled = .ok spelledPayout ∧
          payout.amount = spelledPayout.amount) ∨
      ∃ raw,
        native = .error (.nonFinite raw) ∧
          spelled = .error (.nonFinite raw) ∧
          raw.isFinite = false := by
  intro native spelled
  obtain ⟨belongs, hasNumbers⟩ :=
    Template.planType_and_numbers_of_ofParameters hasRule
  have finite : rule.IsFinite :=
    Template.isFinite_of_parameters (List.append_eq_nil_iff.1 sound).2
      hasNumbers finiteThreshold
  have reads : config.planType.basis? = some rule.basis := by
    rw [← belongs, Template.basis?_planType]
  obtain ⟨notCustom, planned⟩ := PlanType.isTemplate_of_basis? reads
  have isRead :
      (config.spelledOut rule).IsReadBy
        ((Cache.ofCapacity otherCapacity).run otherCommands) :=
    Config.isReadBy_run_of_formula (Config.formula?_spelledOut finite)
      collisionFree
  have nativeSettled :
      (config.compute sales profile
          ((Cache.ofCapacity capacity).run commands)).1.outcome =
        Computation.settle config.parameters (rule.rawAmount sales) := by
    rw [(Config.compute_template sound notCustom planned hasRule).1]
    rfl
  have spelledSettled :=
    @Config.outcome_spelledOut _ _ sales otherProfile _ sound finite isNumber
      isRead
  have spelledPlanned : (config.spelledOut rule).planType ≠ .noPlan := nofun
  simp only [native, spelled]
  rw [Config.simulate_eq planned, Config.simulate_eq spelledPlanned,
    nativeSettled, spelledSettled]
  cases isFinite : (rule.rawAmount sales).isFinite with
  | true =>
      rw [Config.settle_of_isFinite isFinite]
      exact .inl ⟨_, _, rfl, rfl, rfl⟩
  | false =>
      simp only [Computation.settle, isFinite]
      exact .inr ⟨_, rfl, rfl, isFinite⟩

/-- A plan that pays a person all of the sales above a negative zero. -/
def aboveMinusZero : Config :=
  .active .personalExcess ⟨some .one, some (.signedZero true), none, none⟩
    none

/-- The rule of that plan. -/
def excessOverMinusZero : Template :=
  .excess .personal (.signedZero true) .one

/-- The formula pays the sample sales, and fails on sales without an end. -/
theorem simulate_spelledOut_aboveMinusZero :
    let cache :=
      (Cache.ofCapacity 1).run [.getOrParse excessOverMinusZero.formula]
    let endless : Sales := { Sales.sample with personal := .infinity }
    let spelled := aboveMinusZero.spelledOut excessOverMinusZero
    excessOverMinusZero.formula = "Math.max(0, personalSales - -0) * 1" ∧
      (∃ payout,
        (spelled.simulate .sample .empty cache).1 = .ok payout ∧
          payout.amount = 10000000) ∧
      ∃ raw,
        (spelled.simulate endless .empty cache).1 = .error (.nonFinite raw) ∧
          raw.isFinite = false := by
  intro cache endless spelled
  have sound : aboveMinusZero.violations = [] := by decide +kernel
  have hasRule :
      Template.ofParameters aboveMinusZero.planType
        aboveMinusZero.parameters = .ok excessOverMinusZero := rfl
  have finiteThreshold :
      ∀ threshold ∈ excessOverMinusZero.threshold?,
        threshold.isFinite = true := by
    decide +kernel
  have collisionFree :
      CollisionFree
        (excessOverMinusZero.formula ::
          textsOf [.getOrParse excessOverMinusZero.formula]) :=
    @CollisionFree.of_all_eq _ excessOverMinusZero.formula
      (by simp [textsOf, CacheCommand.text?])
  have alike (sales : Sales) (isNumber : sales.personal.isNaN = false) :=
    simulate_spelledOut sound hasRule finiteThreshold sales isNumber .empty
      .empty 1 1 [] _ collisionFree
  have paidNative :
      (aboveMinusZero.simulate .sample .empty
        ((Cache.ofCapacity 1).run [])).1.toOption.map Payout.amount =
        some 10000000 := by
    decide +kernel
  have failedNative :
      (aboveMinusZero.simulate endless .empty
        ((Cache.ofCapacity 1).run [])).1.toOption = none := by
    decide +kernel
  refine ⟨by decide +kernel, ?_, ?_⟩
  · rcases alike .sample (by decide +kernel) with
      ⟨payout, spelledPayout, paid, spelledPaid, same⟩ | ⟨raw, failed, -, -⟩
    · rw [paid] at paidNative
      exact ⟨spelledPayout, spelledPaid, same ▸ Option.some.inj paidNative⟩
    · simp [failed, Except.toOption] at paidNative
  · rcases alike endless rfl with
      ⟨payout, spelledPayout, paid, -, -⟩ | ⟨raw, -, failed, notFinite⟩
    · simp [paid, Except.toOption] at failedNative
    · exact ⟨raw, failed, notFinite⟩

end IncentivePay
