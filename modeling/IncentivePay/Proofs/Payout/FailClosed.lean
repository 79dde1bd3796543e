import IncentivePay.Proofs.Formula.CacheContents
import IncentivePay.Proofs.Formula.EvaluationTotality
import IncentivePay.Payout.Calculation
import IncentivePay.Proofs.Payout.LimitBounds
import IncentivePay.Proofs.Payout.RuleViolations

/-!
# Payouts fail closed

`Config.rawAmount?` is the raw amount of a configuration, said without a cache
and without a bound on the depth.  A configuration fails on its data when it
violates a rule, when its formula does not parse, or when its raw amount is
not finite.  `Config.compute` ends in an error in exactly these cases, and
else in the limited raw amount; a payout pays nothing in the first case.
-/

namespace IncentivePay

open Formula

/--
The raw amount of a configuration, without a cache or a bound on the depth.
-/
def Config.rawAmount?
    (config : Config)
    (sales : Sales)
    (profile : Profile) :
    Option Binary64 :=
  match config.planType with
  | .custom => do
      let formula ← config.formula?
      let tree ← (parse formula).toOption
      (tree.value (.ofRecords sales profile)).toOption
  | planType =>
      (Template.ofParameters planType config.parameters).toOption.map
        fun rule => rule.rawAmount sales

/-- A configuration has a formula that does not parse. -/
def Config.IsUnreadable (config : Config) : Prop :=
  config.planType = .custom ∧
    ∃ formula error,
      config.formula? = some formula ∧ parse formula = .error error

/--
Why there is no amount: a violation, an unreadable formula or no finite value.
-/
def Config.FailsOn
    (config : Config)
    (sales : Sales)
    (profile : Profile) :
    Prop :=
  config.violations ≠ [] ∨
    config.IsUnreadable ∨
    ∃ raw,
      config.rawAmount? sales profile = some raw ∧ raw.isFinite = false

/-- A cache answers to the formula of a configuration what the parser does. -/
def Config.IsReadBy
    (config : Config)
    (cache : Cache) :
    Prop :=
  ∀ formula,
    config.formula? = some formula →
    (cache.getOrParse formula).1 = parse formula

/-! ## Template rules -/

namespace Template

theorem percentOf_of_rate
    {planType : PlanType}
    {basis : Basis}
    {parameters : Parameters}
    {rate : Binary64}
    (given : parameters.rate = some rate) :
    percentOf planType basis parameters =
      .ok (.percent basis rate) := by
  rw [percentOf, given]
  rfl

theorem excessOf_of_threshold
    {planType : PlanType}
    {basis : Basis}
    {parameters : Parameters}
    {threshold rate : Binary64}
    (thresholdGiven : parameters.threshold = some threshold)
    (rateGiven : parameters.rate = some rate) :
    excessOf planType basis parameters =
      .ok (.excess basis threshold rate) := by
  rw [excessOf, thresholdGiven, rateGiven]
  rfl

/-- Parameters that give what a template type requires make a rule. -/
theorem exists_of_gives
    {planType : PlanType}
    {parameters : Parameters}
    (notCustom : planType ≠ .custom)
    (planned : planType ≠ .noPlan)
    (gives :
      ∀ requirement ∈ planType.required, parameters.gives requirement = true) :
    ∃ rule, ofParameters planType parameters = .ok rule := by
  cases planType with
  | custom => contradiction
  | noPlan => contradiction
  | personalPercent | totalPercent =>
      obtain ⟨rate, rateGiven⟩ :=
        Option.isSome_iff_exists.1 (gives .rate (by decide))
      exact ⟨_, percentOf_of_rate rateGiven⟩
  | personalExcess | totalExcess =>
      obtain ⟨rate, rateGiven⟩ :=
        Option.isSome_iff_exists.1 (gives .rate (by decide))
      obtain ⟨threshold, thresholdGiven⟩ :=
        Option.isSome_iff_exists.1 (gives .threshold (by decide))
      exact ⟨_, excessOf_of_threshold thresholdGiven rateGiven⟩

end Template

namespace Config

variable
  {config : Config}
  {sales : Sales}
  {profile : Profile}
  {cache : Cache}

/-! ## The plan of a configuration without violations -/

theorem isSome_formula?_of_sound
    (sound : config.violations = [])
    (isCustom : config.planType = .custom) :
    ∃ formula, config.formula? = some formula :=
  (config.violations_eq_nil_iff.1 sound).formula.1 isCustom

/-- A custom configuration with a formula violates nothing but the ranges. -/
theorem violations_of_formula
    {formula : String}
    (isCustom : config.planType = .custom)
    (hasFormula : config.formula? = some formula) :
    config.violations = config.parameters.rangeViolations := by
  simp [violations, requirementViolations, isCustom, hasFormula, violationIf]

theorem exists_rule_of_sound
    (sound : config.violations = [])
    (notCustom : config.planType ≠ .custom)
    (planned : config.planType ≠ .noPlan) :
    ∃ rule,
      Template.ofParameters config.planType config.parameters = .ok rule := by
  have nothing := (List.append_eq_nil_iff.1 sound).1
  have noneMissing : config.templateViolations = [] := by
    unfold requirementViolations at nothing
    split at nothing
    · contradiction
    · contradiction
    · exact nothing
  apply Template.exists_of_gives notCustom planned
  intro requirement required
  have filtered :=
    List.map_eq_nil_iff.1 (List.append_eq_nil_iff.1 noneMissing).1
  simpa using List.filter_eq_nil_iff.1 filtered requirement required

theorem plan_of_rule
    {rule : Template}
    (notCustom : config.planType ≠ .custom)
    (planned : config.planType ≠ .noPlan)
    (hasRule :
      Template.ofParameters config.planType config.parameters = .ok rule) :
    config.plan = .ok (.template rule) := by
  unfold plan
  split
  · contradiction
  · contradiction
  · rw [hasRule]

theorem plan_of_formula
    {formula : String}
    (isCustom : config.planType = .custom)
    (hasFormula : config.formula? = some formula) :
    config.plan = .ok (.custom formula) := by
  simp [plan, isCustom, hasFormula]

/-! ## What a computation comes to -/

theorem compute_of_violations (broken : config.violations ≠ []) :
    (config.compute sales profile cache).1 =
      .stopped (.error (.invalidParameters config.violations)) := by
  have notEmpty : config.violations.isEmpty = false := by
    simpa using broken
  rw [compute, notEmpty]
  rfl

theorem compute_template
    {rule : Template}
    (sound : config.violations = [])
    (notCustom : config.planType ≠ .custom)
    (planned : config.planType ≠ .noPlan)
    (hasRule :
      Template.ofParameters config.planType config.parameters = .ok rule) :
    (config.compute sales profile cache).1 =
        .ofTemplate config.parameters rule sales ∧
      config.rawAmount? sales profile = some (rule.rawAmount sales) := by
  constructor
  · simp [compute, sound, plan_of_rule notCustom planned hasRule]
  · unfold rawAmount?
    split
    · contradiction
    · rw [hasRule]
      rfl

theorem compute_custom
    {formula : String}
    (sound : config.violations = [])
    (isCustom : config.planType = .custom)
    (hasFormula : config.formula? = some formula)
    (isRead : config.IsReadBy cache) :
    (config.compute sales profile cache).1 =
      .ofFormula config.parameters formula (parse formula)
        (.ofRecords sales profile) := by
  simp [compute, sound, plan_of_formula isCustom hasFormula,
    isRead formula hasFormula]

theorem settle_of_isFinite
    {raw : Binary64}
    (isFinite : raw.isFinite = true)
    (parameters : Parameters) :
    Computation.settle parameters raw = .ok (parameters.limit raw) := by
  rw [Computation.settle, if_pos isFinite]

/--
A configuration without violations comes to its raw amount, or is unreadable.
-/
theorem compute_of_sound
    (sound : config.violations = [])
    (planned : config.planType ≠ .noPlan)
    (isRead : config.IsReadBy cache) :
    (∃ raw,
      config.rawAmount? sales profile = some raw ∧
        (config.compute sales profile cache).1.rawAmount = some raw ∧
        (config.compute sales profile cache).1.outcome =
          Computation.settle config.parameters raw) ∨
    (config.IsUnreadable ∧
      ∃ error,
        (config.compute sales profile cache).1.outcome = .error error) := by
  by_cases isCustom : config.planType = .custom
  · obtain ⟨formula, hasFormula⟩ := isSome_formula?_of_sound sound isCustom
    rw [compute_custom sound isCustom hasFormula isRead]
    cases parsed : parse formula with
    | error error =>
        exact .inr ⟨⟨isCustom, formula, error, hasFormula, parsed⟩, _, rfl⟩
    | ok tree =>
        have bindsAll := Bindings.bindsAll_ofRecords sales profile
        obtain ⟨raw, evaluated⟩ := exists_evaluate_of_parse parsed bindsAll
        have valued : tree.value (.ofRecords sales profile) = .ok raw := by
          rw [← evaluate_eq_value_of_parse parsed, evaluated]
        refine .inl ⟨raw, ?_, ?_, ?_⟩
        · simp [rawAmount?, isCustom, hasFormula, parsed, valued,
            Except.toOption]
        · simp [Computation.ofFormula, evaluated]
        · simp [Computation.ofFormula, evaluated]
  · obtain ⟨rule, hasRule⟩ := exists_rule_of_sound sound isCustom planned
    obtain ⟨computed, isRaw⟩ :=
      compute_template sound isCustom planned hasRule
    rw [computed]
    exact .inl ⟨rule.rawAmount sales, isRaw, rfl, rfl⟩

/-! ## What a payout comes to -/

theorem rawAmount?_of_isUnreadable (unreadable : config.IsUnreadable) :
    config.rawAmount? sales profile = none := by
  obtain ⟨isCustom, formula, error, hasFormula, refused⟩ := unreadable
  simp [rawAmount?, isCustom, hasFormula, refused, Except.toOption]

theorem not_failsOn_of_finite
    {raw : Binary64}
    (sound : config.violations = [])
    (isRaw : config.rawAmount? sales profile = some raw)
    (isFinite : raw.isFinite = true) :
    ¬ config.FailsOn sales profile := by
  rintro (broken | unreadable | ⟨other, otherIsRaw, notFinite⟩)
  · exact broken sound
  · rw [rawAmount?_of_isUnreadable unreadable] at isRaw
    contradiction
  · obtain rfl : raw = other := by
      simpa using isRaw.symm.trans otherIsRaw
    simp [isFinite] at notFinite

/-- A computation fails exactly on what the configuration fails on. -/
theorem outcome_of_failsOn
    (planned : config.planType ≠ .noPlan)
    (isRead : config.IsReadBy cache) :
    (config.FailsOn sales profile ∧
      ∃ error,
        (config.compute sales profile cache).1.outcome = .error error) ∨
    (¬ config.FailsOn sales profile ∧
      config.violations = [] ∧
      ∃ raw,
        (config.compute sales profile cache).1.rawAmount = some raw ∧
          raw.isFinite = true ∧
          (config.compute sales profile cache).1.outcome =
            .ok (config.parameters.limit raw)) := by
  by_cases sound : config.violations = []
  · rcases compute_of_sound sound planned isRead with
      ⟨raw, isRaw, recorded, settled⟩ | ⟨unreadable, failed⟩
    · cases isFinite : raw.isFinite with
      | false =>
          refine
            .inl ⟨.inr (.inr ⟨raw, isRaw, isFinite⟩), .nonFinite raw, ?_⟩
          simp [settled, Computation.settle, isFinite]
      | true =>
          refine .inr ⟨not_failsOn_of_finite sound isRaw isFinite, sound, raw,
            recorded, isFinite, ?_⟩
          rw [settled, settle_of_isFinite isFinite]
    · exact .inl ⟨.inr (.inl unreadable), failed⟩
  · rw [compute_of_violations sound]
    exact .inl ⟨.inl sound, _, rfl⟩

theorem planType_payOut (sales? : Option Sales) :
    (config.payOut sales? profile cache).1.planType = config.planType := by
  unfold payOut
  dsimp only
  split <;> rfl

theorem payOut_of_error
    {sales? : Option Sales}
    {error : CalculationError}
    (failed :
      (config.compute (sales?.getD .none) profile cache).1.outcome =
        .error error) :
    (config.payOut sales? profile cache).1.amount = 0 ∧
      (config.payOut sales? profile cache).1.details.error =
        some error.message := by
  simp [payOut, failed]

theorem payOut_of_ok
    {sales? : Option Sales}
    {amount : Int64}
    (succeeded :
      (config.compute (sales?.getD .none) profile cache).1.outcome =
        .ok amount) :
    (config.payOut sales? profile cache).1.amount = amount ∧
      (config.payOut sales? profile cache).1.details.error = none ∧
      (config.payOut sales? profile cache).1.details.rawAmount =
        (config.compute (sales?.getD .none) profile cache).1.rawAmount ∧
      (config.payOut sales? profile cache).1.details.parameters =
        config.parameters := by
  simp [payOut, succeeded, details]

end Config

/-- What a payout of a configuration on some data comes to. -/
structure Payout.IsClosed
    (payout : Payout)
    (config : Config)
    (sales : Sales)
    (profile : Profile) :
    Prop where
  nonnegative : 0 ≤ payout.amount
  nothingOnError : payout.details.error ≠ none → payout.amount = 0
  error_iff : payout.details.error ≠ none ↔ config.FailsOn sales profile
  limited :
    payout.details.error = none →
      payout.details.parameters = config.parameters ∧
      ∃ raw,
        payout.details.rawAmount = some raw ∧
          raw.isFinite = true ∧
          payout.amount = config.parameters.limit raw ∧
          config.parameters.Admits payout.amount

/-- Every payout of a plan fails closed and respects the limits. -/
theorem Config.payOut_isClosed
    {config : Config}
    {profile : Profile}
    {cache : Cache}
    (planned : config.planType ≠ .noPlan)
    (isRead : config.IsReadBy cache)
    (sales? : Option Sales) :
    (config.payOut sales? profile cache).1.IsClosed config
      (sales?.getD .none) profile := by
  rcases outcome_of_failsOn planned isRead with
    ⟨fails, error, failed⟩ | ⟨succeeds, sound, raw, recorded, isFinite, limited⟩
  · obtain ⟨nothing, hasError⟩ := payOut_of_error failed
    exact
      { nonnegative := by rw [nothing]; decide
        nothingOnError := fun _ => nothing
        error_iff := by simp [hasError, fails]
        limited := by simp [hasError] }
  · obtain ⟨isLimit, noError, isRecorded, ofConfig⟩ := payOut_of_ok limited
    obtain ⟨place, stands⟩ := Binary64.place?_of_isFinite isFinite
    have inRange := (List.append_eq_nil_iff.1 sound).2
    exact
      { nonnegative := by
          rw [isLimit]
          exact Parameters.limit_nonneg inRange stands
        nothingOnError := fun hasError => absurd noError hasError
        error_iff := by simp [noError, succeeds]
        limited := fun _ =>
          ⟨ofConfig, raw, isRecorded.trans recorded, isFinite, isLimit,
            isLimit ▸ Parameters.admits_limit inRange stands⟩ }

end IncentivePay
