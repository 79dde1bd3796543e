import IncentivePay.Payout.Rules
import IncentivePay.Proofs.Engine.Refinement
import IncentivePay.Proofs.Payout.EndlessFigures
import IncentivePay.Proofs.Payout.SpelledTemplates

/-!
# Sales figures that are NaNs

A percent rule makes a NaN of a NaN, and its preview and its calculation fail
because of it, as those of the formula that spells the rule out do.  In an
excess rule the larger of the excess and zero is the zero, since a NaN counts
there as absent: the rule pays the least amount that its bounds allow, and
nothing in the payout tells that the figure was none.  The formula of the rule
keeps the NaN and fails.
-/

namespace IncentivePay

open Formula

/-! ## Raw amounts -/

namespace Template

variable
  {rule : Template}
  {sales : Sales}

/-- The portion of a rule with a NaN for a figure is a NaN, read strictly. -/
theorem strictPortion_of_nan
    (isNaN : rule.basis.figure sales = .nan) :
    rule.strictPortion sales = .nan := by
  cases rule with
  | percent basis rate => exact isNaN
  | excess basis threshold rate =>
      have figureIsNaN : basis.figure sales = .nan := isNaN
      rw [strictPortion, figureIsNaN]
      rfl

theorem rawAmount_percent_of_nan
    {basis : Basis}
    {rate : Binary64}
    (isNaN : basis.figure sales = .nan) :
    (percent basis rate).rawAmount sales = .nan := by
  rw [rawAmount, isNaN]
  rfl

/-- The excess of a NaN counts as nought. -/
theorem rawAmount_excess_of_nan
    {basis : Basis}
    {threshold rate : Binary64}
    (isNaN : basis.figure sales = .nan)
    (isFinite : rate.isFinite = true) :
    ∃ negative,
      (excess basis threshold rate).rawAmount sales =
        .signedZero negative := by
  obtain ⟨negative, isZero⟩ :=
    Binary64.exists_multiply_signedZero false isFinite
  refine ⟨negative, ?_⟩
  rw [rawAmount, isNaN]
  exact isZero

end Template

/-- The amount of nought is the whole number below the lower bound. -/
theorem Parameters.wholeBelow?_lowerBound
    {parameters : Parameters}
    (inRange : parameters.rangeViolations = [])
    (negative : Bool) :
    parameters.lowerBound.wholeBelow? =
      some (parameters.limit (.signedZero negative)) := by
  obtain ⟨lower, upper, lowerStands, upperStands, nonnegative, ordered⟩ :=
    exists_bounds inRange
  have held : min (max 0 lower) upper = lower := by omega
  have whole : 0 ≤ lower / (unitsPerOne : Int) :=
    Int.ediv_nonneg nonnegative (Int.le_of_lt Binary64.unitsPerOne_cast_pos)
  rw [limit_of_places (Binary64.place?_signedZero negative) lowerStands
    upperStands, held, Int.max_eq_left whole, Binary64.wholeBelow?,
    lowerStands, Option.map_some]

/-! ## Previews and calculations -/

namespace Config

variable
  {config : Config}
  {rule : Template}
  {sales : Sales}
  {profile previewProfile : Profile}
  {cache previewCache : Cache}
  {sources : Sources}
  {user : String}
  {period : Period}

/--
A preview fails because of a NaN, and a calculation fails closed because of
it.
-/
structure FailsWithNaN
    (config : Config)
    (sales : Sales)
    (profile : Profile)
    (preview : Except CalculationError Payout)
    (real : Except SourceError Payout) :
    Prop where
  previewed : preview = .error (.nonFinite .nan)
  calculated :
    ∃ payout,
      real = .ok payout ∧
        payout.FailsClosedWith config (some sales) profile (.nonFinite .nan)

/-- Where computations end in a NaN, preview and calculation fail with it. -/
theorem failsWithNaN_of_outcome
    (answer : sources.Answer user period config (some sales) profile)
    (isRead : config.planType = .custom → config.IsReadBy cache)
    (ends :
      ∀ anyProfile anyCache,
        (config.planType = .custom → config.IsReadBy anyCache) →
        (config.compute sales anyProfile anyCache).1.outcome =
          .error (.nonFinite .nan))
    (isReadToo : config.planType = .custom → config.IsReadBy previewCache) :
    config.FailsWithNaN sales profile
      (config.simulate sales previewProfile previewCache).1
      (calculate sources user period cache).1 := by
  have planned := answer.hasPlan.planned
  have failed :
      (config.simulate sales profile cache).1 = .error (.nonFinite .nan) := by
    rw [simulate_eq planned, ends profile cache isRead]
  have refines :=
    @payOut_refines_simulate config profile cache cache planned isRead isRead
      (some sales)
  rw [Option.getD_some, failed] at refines
  exact
    { previewed := by
        rw [simulate_eq planned, ends previewProfile previewCache isReadToo]
      calculated := ⟨_, calculate_of_answer answer cache, refines⟩ }

/--
The payout of a template on sales with a finite raw amount, previewed or not.
-/
theorem pays_template
    (sound : config.violations = [])
    (hasRule :
      Template.ofParameters config.planType config.parameters = .ok rule)
    (answer : sources.Answer user period config (some sales) profile)
    (isFinite : (rule.rawAmount sales).isFinite = true) :
    ∃ payout,
      (config.simulate sales previewProfile previewCache).1 = .ok payout ∧
        (calculate sources user period cache).1 = .ok payout ∧
        payout.amount = config.parameters.limit (rule.rawAmount sales) ∧
        payout.details.rawAmount = some (rule.rawAmount sales) ∧
        payout.details.error = none := by
  obtain ⟨notCustom, planned⟩ := isTemplate_of_rule hasRule
  have computed (anyProfile : Profile) (anyCache : Cache) :
      (config.compute sales anyProfile anyCache).1 =
        .ofTemplate config.parameters rule sales :=
    (compute_template sound notCustom planned hasRule).1
  have settled :
      (Computation.ofTemplate config.parameters rule sales).outcome =
        .ok (config.parameters.limit (rule.rawAmount sales)) :=
    settle_of_isFinite isFinite _
  refine
    ⟨⟨config.parameters.limit (rule.rawAmount sales), config.planType,
      config.details sales profile
        (.ofTemplate config.parameters rule sales)⟩, ?_, ?_, rfl, rfl, rfl⟩
  · rw [simulate_eq planned, computed, settled]
    simp only [details, if_neg notCustom]
  · rw [calculate_of_answer answer, payOut_eq, Option.getD_some, computed,
      settled]
    rfl

/-- The formula that spells a rule out ends in a NaN. -/
theorem outcome_spelledOut_of_nan
    (sound : config.violations = [])
    (finite : rule.IsFinite)
    (isNaN : rule.basis.figure sales = .nan)
    (isRead : (config.spelledOut rule).IsReadBy cache) :
    ((config.spelledOut rule).compute sales profile cache).1.outcome =
      .error (.nonFinite .nan) := by
  obtain ⟨parsed, evaluated⟩ :=
    Template.parse_and_evaluate_formula finite sales profile
  rw [Template.strictPortion_of_nan isNaN] at evaluated
  rw [compute_custom (violations_spelledOut sound finite) rfl
    (formula?_spelledOut finite) isRead, parsed]
  simp only [Computation.ofFormula, evaluated]
  rfl

/-- A rate of a NaN fails. -/
theorem failsWithNaN_of_percent
    {basis : Basis}
    {rate : Binary64}
    (sound : config.violations = [])
    (hasRule :
      Template.ofParameters config.planType config.parameters =
        .ok (.percent basis rate))
    (isNaN : basis.figure sales = .nan)
    (answer : sources.Answer user period config (some sales) profile) :
    config.FailsWithNaN sales profile
      (config.simulate sales previewProfile previewCache).1
      (calculate sources user period cache).1 := by
  obtain ⟨notCustom, planned⟩ := isTemplate_of_rule hasRule
  refine failsWithNaN_of_outcome answer (absurd · notCustom) ?_
    (absurd · notCustom)
  intro anyProfile anyCache _
  rw [(compute_template sound notCustom planned hasRule).1]
  change Computation.settle config.parameters _ = _
  rw [Template.rawAmount_percent_of_nan isNaN]
  rfl

/-- A rate of the excess of a NaN pays the lower bound, for nought. -/
theorem pays_excess_of_nan
    {basis : Basis}
    {threshold rate : Binary64}
    (sound : config.violations = [])
    (hasRule :
      Template.ofParameters config.planType config.parameters =
        .ok (.excess basis threshold rate))
    (isNaN : basis.figure sales = .nan)
    (answer : sources.Answer user period config (some sales) profile)
    (previewProfile : Profile)
    (cache previewCache : Cache) :
    ∃ payout negative,
      (config.simulate sales previewProfile previewCache).1 = .ok payout ∧
        (calculate sources user period cache).1 = .ok payout ∧
        payout.details.error = none ∧
        payout.details.rawAmount = some (.signedZero negative) ∧
        config.parameters.lowerBound.wholeBelow? = some payout.amount := by
  have inRange : config.parameters.rangeViolations = [] :=
    (List.append_eq_nil_iff.1 sound).2
  obtain ⟨-, -, rateGiven⟩ :=
    Template.planType_and_numbers_of_ofParameters hasRule
  obtain ⟨nonnegative, atMostOne⟩ := Parameters.rate_between inRange rateGiven
  obtain ⟨signed, units, representable, isRate, -⟩ :=
    Binary64.exists_units_of_fraction nonnegative atMostOne
  have isFinite : rate.isFinite = true :=
    congrArg Binary64.isFinite isRate
  obtain ⟨negative, isZero⟩ :
      ∃ negative,
        (Template.excess basis threshold rate).rawAmount sales =
          .signedZero negative :=
    Template.rawAmount_excess_of_nan isNaN isFinite
  obtain ⟨payout, previewed, calculated, isLimit, isRecorded, noError⟩ :=
    pays_template sound hasRule answer
      (congrArg Binary64.isFinite isZero)
  rw [isZero] at isLimit isRecorded
  refine
    ⟨payout, negative, previewed, calculated, noError, isRecorded, ?_⟩
  rw [isLimit]
  exact Parameters.wholeBelow?_lowerBound inRange negative

/-- The formula that spells a rule out fails because of a NaN. -/
theorem spelledOut_failsWithNaN
    (sound : config.violations = [])
    (hasRule :
      Template.ofParameters config.planType config.parameters = .ok rule)
    (finiteThreshold :
      ∀ threshold ∈ rule.threshold?, threshold.isFinite = true)
    (isNaN : rule.basis.figure sales = .nan)
    (answer :
      sources.Answer user period (config.spelledOut rule) (some sales)
        profile)
    {capacity previewCapacity : Nat}
    {commands previewCommands : List CacheCommand}
    (collisionFree : CollisionFree (rule.formula :: textsOf commands))
    (previewCollisionFree :
      CollisionFree (rule.formula :: textsOf previewCommands)) :
    (config.spelledOut rule).FailsWithNaN sales profile
      ((config.spelledOut rule).simulate sales previewProfile
        ((Cache.ofCapacity previewCapacity).run previewCommands)).1
      (calculate sources user period
        ((Cache.ofCapacity capacity).run commands)).1 := by
  have finite : rule.IsFinite :=
    Template.isFinite_of_parameters (List.append_eq_nil_iff.1 sound).2
      (Template.planType_and_numbers_of_ofParameters hasRule).2
      finiteThreshold
  have hasFormula :
      (config.spelledOut rule).formula? = some rule.formula :=
    formula?_spelledOut finite
  exact
    failsWithNaN_of_outcome answer
      (fun _ => isReadBy_run_of_formula hasFormula collisionFree)
      (fun _ _ isRead => outcome_spelledOut_of_nan sound finite isNaN (isRead rfl))
      (fun _ => isReadBy_run_of_formula hasFormula previewCollisionFree)

end Config

/--
A template without violations, on recorded sales where the figure that its rule
reads is a NaN: previews and calculations fail because of the NaN exactly when
the type is a rate of the figure.  For a rate of an excess both pay the whole
number below the lower bound, for a raw amount of nought and without an error.
The formula that spells the rule out fails because of the NaN in either case.
-/
theorem nanFigure_fails_iff
    {config : Config}
    {rule : Template}
    (sound : config.violations = [])
    (hasRule :
      Template.ofParameters config.planType config.parameters = .ok rule)
    {sales : Sales}
    (isNaN : rule.basis.figure sales = .nan)
    {sources : Sources}
    {user : String}
    {period : Period}
    {profile : Profile}
    (answer : sources.Answer user period config (some sales) profile)
    (previewProfile : Profile)
    (cache previewCache : Cache) :
    let preview := (config.simulate sales previewProfile previewCache).1
    let real := (calculate sources user period cache).1
    (config.FailsWithNaN sales profile preview real ↔
        config.planType.IsPercent) ∧
      (config.planType.IsExcess →
        ∃ payout negative,
          preview = .ok payout ∧
            real = .ok payout ∧
            payout.details.error = none ∧
            payout.details.rawAmount = some (.signedZero negative) ∧
            config.parameters.lowerBound.wholeBelow? =
              some payout.amount) ∧
      (∀ otherSources otherUser otherPeriod otherProfile capacity
          otherCapacity commands otherCommands,
        (∀ threshold ∈ rule.threshold?, threshold.isFinite = true) →
        CollisionFree (rule.formula :: textsOf commands) →
        CollisionFree (rule.formula :: textsOf otherCommands) →
        Sources.Answer otherSources otherUser otherPeriod
          (config.spelledOut rule) (some sales) otherProfile →
        (config.spelledOut rule).FailsWithNaN sales otherProfile
          ((config.spelledOut rule).simulate sales previewProfile
            ((Cache.ofCapacity capacity).run commands)).1
          (calculate otherSources otherUser otherPeriod
            ((Cache.ofCapacity otherCapacity).run otherCommands)).1) := by
  intro preview real
  obtain ⟨typed, -⟩ := Template.planType_and_numbers_of_ofParameters hasRule
  refine ⟨?_, ?_, ?_⟩
  · cases rule with
    | percent basis rate =>
        have isPercent : config.planType.IsPercent :=
          typed ▸ (Template.isPercent_planType basis rate).1
        exact
          iff_of_true
            (Config.failsWithNaN_of_percent sound hasRule isNaN answer)
            isPercent
    | excess basis threshold rate =>
        obtain ⟨payout, -, previewed, -⟩ :=
          Config.pays_excess_of_nan sound hasRule isNaN answer previewProfile
            cache previewCache
        have notPercent : ¬ config.planType.IsPercent :=
          typed ▸ (Template.isExcess_planType basis threshold rate).2
        refine iff_of_false (fun failed => ?_) notPercent
        exact absurd (previewed.symm.trans failed.previewed) (by simp)
  · intro isExcess
    cases rule with
    | percent basis rate =>
        rw [← typed] at isExcess
        exact absurd isExcess (Template.isPercent_planType basis rate).2
    | excess basis threshold rate =>
        exact
          Config.pays_excess_of_nan sound hasRule isNaN answer previewProfile
            cache previewCache
  · intro otherSources otherUser otherPeriod otherProfile capacity
      otherCapacity commands otherCommands finiteThreshold collisionFree
      otherCollisionFree otherAnswer
    exact
      Config.spelledOut_failsWithNaN sound hasRule finiteThreshold isNaN
        otherAnswer otherCollisionFree collisionFree

/--
A plan that pays a person all of the sales above one, and one at the least.
-/
def aboveOne : Config :=
  .active .personalExcess ⟨some .one, some .one, some .one, none⟩ none

/-- The rule of that plan. -/
def excessOverOne : Template :=
  .excess .personal .one .one

/-- Sales of a person that are not a number. -/
def nanSales : Sales :=
  { Sales.sample with personal := .nan }

/-- A configuration of every user, with sales of every period. -/
def Sources.ofConfigAndSales (config : Config) (sales : Sales) : Sources :=
  { Sources.ofConfig config with sales := fun _ _ => .ok (some sales) }

theorem Sources.answer_ofConfigAndSales
    {config : Config}
    (isActive : config.isActive = true)
    (planned : config.planType ≠ .noPlan)
    (sales : Sales)
    (user : String)
    (period : Period) :
    (Sources.ofConfigAndSales config sales).Answer user period config
      (some sales) .empty :=
  { hasPlan := ⟨rfl, isActive, planned⟩
    sales := rfl
    profile := (Sources.answer_ofConfig isActive planned user period).profile }

/-- Sales that are not a number earn one, and the formula fails on them. -/
theorem nanFigure_aboveOne :
    let period : Period := ⟨2024, 3, by decide, by decide, by decide⟩
    let spelled := aboveOne.spelledOut excessOverOne
    let cache := (Cache.ofCapacity 1).run []
    excessOverOne.formula = "Math.max(0, personalSales - 1) * 1" ∧
      (∃ payout,
        (calculate (.ofConfigAndSales aboveOne nanSales) "ada" period
            cache).1 = .ok payout ∧
          payout.details.error = none ∧
          payout.amount = 1) ∧
      spelled.FailsWithNaN nanSales .empty
        (spelled.simulate nanSales .empty cache).1
        (calculate (.ofConfigAndSales spelled nanSales) "ada" period
          cache).1 := by
  intro period spelled cache
  have collisionFree :
      CollisionFree (excessOverOne.formula :: textsOf []) :=
    @CollisionFree.of_all_eq _ excessOverOne.formula (by simp [textsOf])
  obtain ⟨-, pays, fails⟩ :=
    @nanFigure_fails_iff aboveOne excessOverOne (by decide +kernel) rfl
      nanSales rfl _ _ _ _
      (Sources.answer_ofConfigAndSales rfl (by decide) nanSales "ada" period)
      .empty cache cache
  obtain ⟨payout, -, -, paid, noError, -, isLower⟩ := pays (.inl rfl)
  have lower : aboveOne.parameters.lowerBound.wholeBelow? = some 1 := by
    decide +kernel
  refine ⟨by decide +kernel, ⟨payout, paid, noError, ?_⟩, ?_⟩
  · exact Option.some.inj (isLower.symm.trans lower)
  · exact
      fails (.ofConfigAndSales spelled nanSales) "ada" period .empty 1 1 [] []
        (by decide +kernel) collisionFree collisionFree
        (Sources.answer_ofConfigAndSales rfl (by decide) nanSales "ada" period)

/--
That plan previews and pays sales that are not a number, without an error.
-/
theorem calculate_aboveOne_nanSales :
    let period : Period := ⟨2024, 3, by decide, by decide, by decide⟩
    let preview := (aboveOne.simulate nanSales .empty (.ofCapacity 1)).1
    let real :=
      (calculate (.ofConfigAndSales aboveOne nanSales) "ada" period
        (.ofCapacity 1)).1
    nanSales.personal = .nan ∧
      preview.toOption.map Payout.amount = some 1 ∧
      real.toOption.map Payout.amount = some 1 ∧
      real.toOption.map (·.details.error) = some none := by
  decide +kernel

end IncentivePay
