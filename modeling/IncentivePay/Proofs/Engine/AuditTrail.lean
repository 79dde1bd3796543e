import IncentivePay.Proofs.Engine.Refinement
import IncentivePay.Proofs.Payout.TrialAgreement

/-!
# The details of a payout are enough to compute it again

A payout records its type, its parameters, the template or the formula that
was run, and the data that it was run on.  From the record alone a
configuration can be rebuilt: it has the same rules as the one that was run,
so its preview on the recorded data is the payout again.  Neither a blank
formula beside a template, nor the audit fields of the configuration, nor the
profile of a template are in the record, and none of them matters.
-/

namespace IncentivePay

open Formula

/--
A preview of a configuration or a calculation for a user answers a payout.
-/
inductive Payout.IsReturned
    (payout : Payout)
    (cache : Cache) :
    Prop
  | previewed {config : Config} {sales : Sales} {profile : Profile} :
      (config.simulate sales profile cache).1 = .ok payout →
      IsReturned payout cache
  | calculated {sources : Sources} {user : String} {period : Period} :
      (calculate sources user period cache).1 = .ok payout →
      IsReturned payout cache

/--
The details name the template or the formula, never both, and hold the data;
a profile is there exactly for a formula.
-/
structure Payout.IsTraced (payout : Payout) : Prop where
  template :
    payout.planType ≠ .custom →
      payout.details.template = some payout.planType ∧
        payout.details.formula = none
  formula :
    payout.planType = .custom →
      payout.details.template = none ∧
        payout.details.formula.isSome = true
  sales : payout.details.salesData.isSome = true
  rawAmount : payout.details.rawAmount.isSome = true
  profile :
    payout.details.profile.isSome = true ↔ payout.planType = .custom

namespace Payout

/-- The active configuration that the details describe. -/
def rebuilt (payout : Payout) : Config :=
  .active payout.planType payout.details.parameters payout.details.formula

/-- The profile that the details hold, or the one of which nothing is known. -/
def recordedProfile (payout : Payout) : Profile :=
  payout.details.profile.getD .empty

/-- A preview of the rebuilt configuration on the recorded data. -/
def replay
    (payout : Payout)
    (cache : Cache) :
    Except CalculationError Payout :=
  (payout.rebuilt.simulate (payout.details.salesData.getD .none)
    payout.recordedProfile cache).1

/-- The payout without the mark that no sales were recorded. -/
def unmarked (payout : Payout) : Payout :=
  { payout with
    details := { payout.details with salesAssumedZero := false } }

/-- The payout of a computation that has an amount. -/
structure Records
    (payout : Payout)
    (config : Config)
    (sales : Sales)
    (profile : Profile)
    (computation : Computation) :
    Prop where
  amount : computation.outcome = .ok payout.amount
  planType : payout.planType = config.planType
  details :
    payout.unmarked.details = config.details sales profile computation

/-! ## Where payouts come from -/

variable
  {payout : Payout}
  {config : Config}
  {sales : Sales}
  {profile : Profile}
  {computation : Computation}
  {cache : Cache}

theorem records_of_simulate
    (planned : config.planType ≠ .noPlan)
    (previewed : (config.simulate sales profile cache).1 = .ok payout) :
    payout.Records config sales profile
      (config.compute sales profile cache).1 := by
  rw [Config.simulate_eq planned] at previewed
  cases ends : (config.compute sales profile cache).1.outcome with
  | error error => simp [ends] at previewed
  | ok amount =>
      rw [ends] at previewed
      obtain rfl := Except.ok.inj previewed
      exact ⟨ends, rfl, rfl⟩

theorem records_of_payOut
    {sales? : Option Sales}
    (noError :
      (config.payOut sales? profile cache).1.details.error = none) :
    (config.payOut sales? profile cache).1.Records config (sales?.getD .none)
      profile (config.compute (sales?.getD .none) profile cache).1 := by
  rw [Config.payOut_eq] at noError ⊢
  cases ends :
      (config.compute (sales?.getD .none) profile cache).1.outcome with
  | error error => simp [ends] at noError
  | ok amount => exact ⟨ends, rfl, rfl⟩

/-- Every payout of a plan without an error is that of some computation. -/
theorem IsReturned.exists_computation
    (returned : payout.IsReturned cache)
    (noError : payout.details.error = none)
    (planned : payout.planType ≠ .noPlan) :
    ∃ config sales profile,
      config.planType ≠ .noPlan ∧
        payout.Records config sales profile
          (config.compute sales profile cache).1 := by
  cases returned with
  | @previewed config sales profile shown =>
      by_cases noPlan : config.planType = .noPlan
      · obtain rfl : .noIncentive = payout := by
          simpa [Config.simulate, noPlan] using shown
        exact absurd rfl planned
      · exact ⟨config, sales, profile, noPlan, records_of_simulate noPlan shown⟩
  | @calculated sources user period calculated =>
      cases gathers : gather sources user period with
      | error error => simp [calculate, gathers] at calculated
      | ok gathered =>
          rcases answer_of_gather gathers with
            ⟨rfl, -⟩ | ⟨config, sales?, profile, rfl, answer⟩
          · obtain rfl : .noIncentive = payout := by
              simpa [calculate, gathers] using calculated
            exact absurd rfl planned
          · obtain rfl : (config.payOut sales? profile cache).1 = payout := by
              simpa [calculate_of_answer answer] using calculated
            exact
              ⟨config, _, profile, answer.hasPlan.planned,
                records_of_payOut noError⟩

/-! ## What is recorded -/

namespace Records

variable
  (records : payout.Records config sales profile computation)

include records

theorem template_eq : payout.details.template = computation.template :=
  congrArg Details.template records.details

theorem formula_eq : payout.details.formula = computation.formula :=
  congrArg Details.formula records.details

theorem parameters_eq : payout.details.parameters = config.parameters :=
  congrArg Details.parameters records.details

theorem salesData_eq : payout.details.salesData = some sales :=
  congrArg Details.salesData records.details

theorem rawAmount_eq : payout.details.rawAmount = computation.rawAmount :=
  congrArg Details.rawAmount records.details

theorem profile_eq :
    payout.details.profile =
      if config.planType = .custom then some profile else none :=
  congrArg Details.profile records.details

/-- The profile of a formula is recorded. -/
theorem recordedProfile_eq (isCustom : config.planType = .custom) :
    payout.recordedProfile = profile := by
  rw [recordedProfile, records.profile_eq, if_pos isCustom, Option.getD_some]

/-- A computation that has an amount leaves a complete record. -/
theorem isTraced
    (computes : config.ComputesTo sales profile computation) :
    payout.IsTraced := by
  have hasProfile :
      payout.details.profile.isSome = true ↔ payout.planType = .custom := by
    rw [records.profile_eq, records.planType]
    split <;> simp_all
  have hasSales : payout.details.salesData.isSome = true := by
    rw [records.salesData_eq, Option.isSome_some]
  have ends := records.amount
  cases computes with
  | violating broken => contradiction
  | unreadable => contradiction
  | @template rule sound notCustom hasRule =>
      have ofType :=
        (Template.planType_and_numbers_of_ofParameters hasRule).1
      exact
        { template := fun _ =>
            ⟨by rw [records.template_eq, records.planType, ← ofType]; rfl,
              records.formula_eq⟩
          formula := fun isCustom =>
            absurd (records.planType.symm.trans isCustom) notCustom
          sales := hasSales
          rawAmount := by rw [records.rawAmount_eq]; rfl
          profile := hasProfile }
  | formula sound isCustom =>
      exact
        { template := fun notCustom =>
            absurd (records.planType.trans isCustom) notCustom
          formula := fun _ =>
            ⟨records.template_eq, by rw [records.formula_eq]; rfl⟩
          sales := hasSales
          rawAmount := by rw [records.rawAmount_eq]; rfl
          profile := hasProfile }

end Records

end Payout

/-! ## The rebuilt configuration -/

theorem Computation.formula_ofFormula
    (parameters : Parameters)
    (formula : String)
    (tree : Except SyntaxError Expr)
    (bindings : Bindings) :
    (ofFormula parameters formula tree bindings).formula = some formula := by
  unfold ofFormula
  split
  · rfl
  · split <;> rfl

namespace Config

variable
  {config other : Config}
  {sales : Sales}
  {profile : Profile}
  {computation : Computation}
  {cache : Cache}

/-- A template without violations has no formula that counts. -/
theorem formula?_of_sound
    (sound : config.violations = [])
    (notCustom : config.planType ≠ .custom) :
    config.formula? = none := by
  have isSound := config.violations_eq_nil_iff.1 sound
  cases hasFormula : config.formula? with
  | none => rfl
  | some formula =>
      exact absurd (isSound.formula.2 ⟨formula, hasFormula⟩) notCustom

/-- A formula that counts still counts in another configuration. -/
theorem formula?_active
    (config : Config)
    (planType : PlanType)
    (parameters : Parameters) :
    (Config.active planType parameters config.formula?).formula? =
      config.formula? := by
  simp [formula?, active, Option.filter_filter]

/-- Type, parameters and formula decide what a computation comes to. -/
theorem ComputesTo.congr
    (computes : config.ComputesTo sales profile computation)
    (sameType : other.planType = config.planType)
    (sameParameters : other.parameters = config.parameters)
    (sameFormula : other.formula? = config.formula?) :
    other.ComputesTo sales profile computation := by
  have sameViolations : other.violations = config.violations := by
    simp [violations, requirementViolations, templateViolations, sameType,
      sameParameters, sameFormula]
  cases computes with
  | violating broken =>
      rw [← sameViolations] at broken ⊢
      exact .violating broken
  | template sound notCustom hasRule =>
      rw [← sameParameters]
      exact
        .template (sameViolations.trans sound) (sameType ▸ notCustom)
          (by rw [sameType, sameParameters, hasRule])
  | unreadable sound isCustom hasFormula refused =>
      exact
        .unreadable (sameViolations.trans sound) (sameType.trans isCustom)
          (sameFormula.trans hasFormula) refused
  | formula sound isCustom hasFormula parsed evaluated =>
      rw [← sameParameters]
      exact
        .formula (sameViolations.trans sound) (sameType.trans isCustom)
          (sameFormula.trans hasFormula) parsed evaluated

/--
A computation that has an amount records the formula, whatever the cache
answers.
-/
theorem formula_compute
    {amount : Int64}
    (planned : config.planType ≠ .noPlan)
    (ends : (config.compute sales profile cache).1.outcome = .ok amount) :
    (config.compute sales profile cache).1.formula = config.formula? := by
  by_cases sound : config.violations = []
  · by_cases isCustom : config.planType = .custom
    · obtain ⟨formula, hasFormula⟩ := isSome_formula?_of_sound sound isCustom
      simp [compute, sound, plan_of_formula isCustom hasFormula, hasFormula,
        Computation.formula_ofFormula]
    · obtain ⟨rule, hasRule⟩ := exists_rule_of_sound sound isCustom planned
      rw [(compute_template sound isCustom planned hasRule).1,
        formula?_of_sound sound isCustom]
      rfl
  · rw [compute_of_violations sound] at ends
    contradiction

end Config

/-! ## The replay -/

namespace Payout

variable
  {payout : Payout}
  {config : Config}
  {sales : Sales}
  {profile : Profile}
  {cache other : Cache}

/-- The record holds the formula of the configuration that was run. -/
theorem Records.formula_eq_formula?
    (records :
      payout.Records config sales profile
        (config.compute sales profile cache).1)
    (planned : config.planType ≠ .noPlan) :
    payout.details.formula = config.formula? :=
  records.formula_eq.trans (Config.formula_compute planned records.amount)

namespace Records

variable
  {computation : Computation}
  (records : payout.Records config sales profile computation)

include records

/-- The rebuilt configuration makes the same computation on the record. -/
theorem rebuilt_computesTo
    (sameFormula : payout.details.formula = config.formula?)
    (computes : config.ComputesTo sales profile computation) :
    payout.rebuilt.ComputesTo sales payout.recordedProfile computation := by
  have counts : payout.rebuilt.formula? = config.formula? := by
    rw [rebuilt, sameFormula, Config.formula?_active]
  have sameRules :
      payout.rebuilt.ComputesTo sales profile computation :=
    computes.congr records.planType records.parameters_eq counts
  by_cases isCustom : config.planType = .custom
  · rw [records.recordedProfile_eq isCustom]
    exact sameRules
  · have notCustom : payout.rebuilt.planType ≠ .custom :=
      fun isRebuiltCustom =>
        isCustom (records.planType.symm.trans isRebuiltCustom)
    exact sameRules.of_not_custom notCustom _

/-- The rebuilt configuration records the same. -/
theorem details_rebuilt :
    payout.rebuilt.details sales payout.recordedProfile computation =
      payout.unmarked.details := by
  have sameType : payout.rebuilt.planType = config.planType :=
    records.planType
  have sameParameters : payout.rebuilt.parameters = config.parameters :=
    records.parameters_eq
  rw [records.details, Config.details, Config.details, sameType,
    sameParameters]
  by_cases isCustom : config.planType = .custom
  · rw [records.recordedProfile_eq isCustom]
  · rw [if_neg isCustom, if_neg isCustom]

/-- The preview of the rebuilt configuration is the payout, without a mark. -/
theorem replay_eq
    (planned : config.planType ≠ .noPlan)
    (replays :
      (payout.rebuilt.compute sales payout.recordedProfile other).1 =
        computation) :
    payout.replay other = .ok payout.unmarked := by
  have rebuiltIsPlanned : payout.rebuilt.planType ≠ .noPlan :=
    fun noPlan => planned (records.planType.symm.trans noPlan)
  rw [replay, records.salesData_eq, Option.getD_some,
    Config.simulate_eq rebuiltIsPlanned, replays, records.amount]
  simp only [records.details_rebuilt]
  rfl

end Records

end Payout

/--
A payout without an error that a preview or a calculation answers, over a cache
that some run leaves: its details name the template of its type or the formula,
hold the sales and the raw amount, and hold a profile exactly for a formula.
The configuration that is rebuilt from them, previewed on the recorded sales
and profile over any cache that a run leaves, pays the same with the same
details, apart from the mark that no sales were recorded.
-/
theorem replay_of_isReturned
    {payout : Payout}
    (capacity otherCapacity : Nat)
    (commands otherCommands : List CacheCommand)
    (returned : payout.IsReturned ((Cache.ofCapacity capacity).run commands))
    (noError : payout.details.error = none)
    (planned : payout.planType ≠ .noPlan)
    (collisionFree :
      ∀ formula,
        payout.details.formula = some formula →
        CollisionFree (formula :: textsOf commands) ∧
          CollisionFree (formula :: textsOf otherCommands)) :
    payout.IsTraced ∧
      payout.replay ((Cache.ofCapacity otherCapacity).run otherCommands) =
        .ok payout.unmarked := by
  obtain ⟨config, sales, profile, configIsPlanned, records⟩ :=
    returned.exists_computation noError planned
  -- The record tells which formula was run before the cache is known to be right.
  have sameFormula : payout.details.formula = config.formula? :=
    records.formula_eq_formula? configIsPlanned
  have isRead :
      config.IsReadBy ((Cache.ofCapacity capacity).run commands) :=
    Config.isReadBy_run fun formula hasFormula =>
      (collisionFree formula (sameFormula.trans hasFormula)).1
  have isReadToo :
      payout.rebuilt.IsReadBy
        ((Cache.ofCapacity otherCapacity).run otherCommands) :=
    Config.isReadBy_run fun formula hasFormula =>
      (collisionFree formula (Option.filter_eq_some_iff.1 hasFormula).1).2
  have computes :=
    @Config.computesTo_compute _ sales profile _ configIsPlanned
      fun _ => isRead
  have rebuiltIsPlanned : payout.rebuilt.planType ≠ .noPlan := planned
  refine ⟨records.isTraced computes, records.replay_eq configIsPlanned ?_⟩
  exact
    (Config.computesTo_compute rebuiltIsPlanned fun _ => isReadToo).unique
      (records.rebuilt_computesTo sameFormula computes)

/--
Without any sales the personal sales are paid as nothing, and traced all the
same.
-/
theorem replay_of_isReturned_personalSales :
    let cache := (Cache.ofCapacity 1).run [.getOrParse "sales"]
    let other := (Cache.ofCapacity 1).run []
    let period : Period := ⟨2024, 1, by decide, by decide, by decide⟩
    ∃ payout,
      (calculate (Sources.ofConfig personalSales) "ada" period cache).1 =
          .ok payout ∧
        payout.details.salesAssumedZero = true ∧
        payout.IsTraced ∧
        payout.replay other = .ok payout.unmarked := by
  intro cache other period
  have isFormula : personalSales.formula? = some "sales" := by decide
  have collisionFree : CollisionFree ("sales" :: textsOf []) :=
    @CollisionFree.of_all_eq _ "sales" (by decide)
  have cachedCollisionFree :
      CollisionFree ("sales" :: textsOf [.getOrParse "sales"]) :=
    @CollisionFree.of_all_eq _ "sales" (by decide)
  obtain ⟨details, previewed⟩ :=
    @simulate_personalSales cache
      (Config.isReadBy_run_of_formula isFormula cachedCollisionFree)
  have ends : (personalSales.compute .none .empty cache).1.outcome = .ok 0 :=
    (Payout.records_of_simulate (by decide) previewed).amount
  obtain ⟨-, noError, -, -⟩ :=
    @Config.payOut_of_ok personalSales .empty cache none 0 ends
  have calculated :=
    @calculate_of_answer (Sources.ofConfig personalSales) "ada" period
      personalSales none .empty ⟨⟨rfl, rfl, by decide⟩, rfl, rfl⟩ cache
  have recorded :
      (personalSales.payOut none .empty cache).1.details.formula =
        some "sales" :=
    ((Payout.records_of_payOut noError).formula_eq_formula?
      (by decide)).trans isFormula
  refine ⟨_, calculated, ?_, ?_⟩
  · rw [Config.payOut_eq, Option.getD_none, ends]
    rfl
  · apply
      replay_of_isReturned 1 1 [.getOrParse "sales"] [] (.calculated calculated)
        noError
    · rw [Config.planType_payOut]
      decide
    · intro formula hasFormula
      obtain rfl : "sales" = formula := by
        simpa using recorded.symm.trans hasFormula
      exact ⟨cachedCollisionFree, collisionFree⟩

end IncentivePay
