import IncentivePay.Payout.Rules
import IncentivePay.Proofs.Payout.TrialAgreement

/-!
# What a valid report promises

A report is made on sample data and a payout on the data of some period.  What
a valid report has found does not depend on either: no rule is violated, so
the configuration has a plan, and its formula parses.  So it can fail later in
one way only, by a raw amount that is not finite, and a template whose sales
figure is finite does not fail at all.
-/

namespace IncentivePay

open Formula

/-- The sales figure that a type reads; a formula may read any. -/
def PlanType.basis? : PlanType → Option Basis
  | .personalPercent | .personalExcess => some .personal
  | .totalPercent | .totalExcess => some .total
  | .custom | .noPlan => none

@[simp]
theorem Template.basis?_planType (rule : Template) :
    rule.planType.basis? = some rule.basis := by
  cases rule with
  | percent basis rate => cases basis <;> rfl
  | excess basis threshold rate => cases basis <;> rfl

theorem Template.isPercent_planType
    (basis : Basis)
    (rate : Binary64) :
    (Template.percent basis rate).planType.IsPercent ∧
      ¬ (Template.percent basis rate).planType.IsExcess := by
  cases basis <;>
    simp [Template.planType, PlanType.IsPercent, PlanType.IsExcess]

theorem Template.isExcess_planType
    (basis : Basis)
    (threshold rate : Binary64) :
    (Template.excess basis threshold rate).planType.IsExcess ∧
      ¬ (Template.excess basis threshold rate).planType.IsPercent := by
  cases basis <;>
    simp [Template.planType, PlanType.IsPercent, PlanType.IsExcess]

theorem PlanType.isTemplate_of_basis?
    {planType : PlanType}
    {basis : Basis}
    (reads : planType.basis? = some basis) :
    planType ≠ .custom ∧ planType ≠ .noPlan := by
  cases planType <;> simp_all [basis?]

namespace Config

variable
  {config : Config}
  {sales : Sales}
  {profile : Profile}
  {cache : Cache}

/--
A configuration that violates no rule and has no formula that is unreadable.
-/
structure IsRunnable (config : Config) : Prop where
  sound : config.violations = []
  readable : ¬ config.IsUnreadable

theorem planned_of_sound (sound : config.violations = []) :
    config.planType ≠ .noPlan :=
  (config.violations_eq_nil_iff.1 sound).configurable

/-! ## From the report -/

theorem trial_of_isUnreadable
    (isRead : config.IsReadBy cache)
    (unreadable : config.IsUnreadable) :
    ∃ error,
      (config.trial sales profile cache).1 = .error (.unreadable error) := by
  obtain ⟨isCustom, formula, error, hasFormula, refused⟩ := unreadable
  refine ⟨error, ?_⟩
  rw [trial_custom isCustom hasFormula isRead, refused]
  rfl

/-- A valid report on any data shows that the configuration can be run. -/
theorem isRunnable_of_isValid
    (isRead : config.IsReadBy cache)
    (isValid : (config.validate sales profile cache).1.isValid = true) :
    config.IsRunnable := by
  cases tried : (config.trial sales profile cache).1 with
  | ok testResult =>
      rw [validate_of_trial_ok tried] at isValid
      refine ⟨List.isEmpty_iff.1 isValid, ?_⟩
      intro unreadable
      obtain ⟨error, failed⟩ :=
        @trial_of_isUnreadable _ sales profile _ isRead unreadable
      simp [tried] at failed
  | error violation =>
      rw [validate_of_trial_error tried] at isValid
      simp [Report.isValid] at isValid

/-! ## To the preview -/

/--
A configuration that can be run has a raw amount, which settles its preview.
-/
theorem IsRunnable.exists_raw
    (runnable : config.IsRunnable)
    (isRead : config.IsReadBy cache) :
    ∃ raw,
      config.rawAmount? sales profile = some raw ∧
        ((raw.isFinite = true ∧
            ∃ payout,
              (config.simulate sales profile cache).1 = .ok payout ∧
                payout.details.rawAmount = some raw) ∨
          (raw.isFinite = false ∧
            (config.simulate sales profile cache).1 =
              .error (.nonFinite raw))) := by
  have planned := planned_of_sound runnable.sound
  rcases
      @compute_of_sound _ sales profile _ runnable.sound planned isRead with
    ⟨raw, isRaw, recorded, settled⟩ | ⟨unreadable, -⟩
  · refine ⟨raw, isRaw, ?_⟩
    rw [simulate_eq planned, settled]
    cases isFinite : raw.isFinite with
    | true =>
        rw [settle_of_isFinite isFinite]
        exact .inl ⟨rfl, _, rfl, recorded⟩
    | false => exact .inr ⟨rfl, by simp [Computation.settle, isFinite]⟩
  · exact absurd unreadable runnable.readable

/-- The raw amount of a template is finite where its sales figure is. -/
theorem isFinite_rawAmount?
    {basis : Basis}
    {raw : Binary64}
    (sound : config.violations = [])
    (reads : config.planType.basis? = some basis)
    (isFinite : (basis.figure sales).isFinite = true)
    (isRaw : config.rawAmount? sales profile = some raw) :
    raw.isFinite = true := by
  obtain ⟨notCustom, planned⟩ := PlanType.isTemplate_of_basis? reads
  obtain ⟨rule, hasRule⟩ := exists_rule_of_sound sound notCustom planned
  obtain ⟨belongs, hasNumbers⟩ :=
    Template.planType_and_numbers_of_ofParameters hasRule
  obtain rfl : rule.basis = basis := by simpa [← belongs] using reads
  obtain ⟨-, isRule⟩ :=
    @compute_template _ sales profile (.ofCapacity 1) _ sound notCustom planned
      hasRule
  obtain rfl : rule.rawAmount sales = raw := by simpa [isRule] using isRaw
  exact
    Template.isFinite_rawAmount (List.append_eq_nil_iff.1 sound).2 hasNumbers
      isFinite

end Config

/--
A configuration that some report, on any sample data and over any cache that a
run leaves, has found valid: its preview on any other data, over any cache that
a run leaves, pays, or fails because its raw amount is not finite.  If it is a
template and the sales figure that it reads is finite, then it pays.
-/
theorem simulate_of_isValid
    {config : Config}
    (sample : Sales)
    (sampleProfile : Profile)
    (capacity : Nat)
    (commands : List CacheCommand)
    (isValid :
      (config.validate sample sampleProfile
        ((Cache.ofCapacity capacity).run commands)).1.isValid = true)
    (sales : Sales)
    (profile : Profile)
    (otherCapacity : Nat)
    (otherCommands : List CacheCommand)
    (collisionFree :
      ∀ formula,
        config.formula? = some formula →
        CollisionFree (formula :: textsOf commands) ∧
          CollisionFree (formula :: textsOf otherCommands)) :
    let preview :=
      (config.simulate sales profile
        ((Cache.ofCapacity otherCapacity).run otherCommands)).1
    ((∃ payout, preview = .ok payout) ∨
        ∃ raw, preview = .error (.nonFinite raw) ∧ raw.isFinite = false) ∧
      (∀ basis,
        config.planType.basis? = some basis →
        (basis.figure sales).isFinite = true →
        ∃ payout raw,
          preview = .ok payout ∧
            payout.details.rawAmount = some raw ∧
            raw.isFinite = true) := by
  intro preview
  have runnable : config.IsRunnable :=
    Config.isRunnable_of_isValid
      (Config.isReadBy_run fun formula hasFormula =>
        (collisionFree formula hasFormula).1)
      isValid
  obtain ⟨raw, isRaw, settled⟩ :=
    @Config.IsRunnable.exists_raw _ sales profile _ runnable
      (Config.isReadBy_run fun formula hasFormula =>
        (collisionFree formula hasFormula).2)
  constructor
  · rcases settled with ⟨-, payout, paid, -⟩ | ⟨notFinite, failed⟩
    · exact .inl ⟨payout, paid⟩
    · exact .inr ⟨raw, failed, notFinite⟩
  · intro basis reads isFinite
    have rawIsFinite :=
      Config.isFinite_rawAmount? runnable.sound reads isFinite isRaw
    rcases settled with ⟨-, payout, paid, recorded⟩ | ⟨notFinite, -⟩
    · exact ⟨payout, raw, paid, recorded, rawIsFinite⟩
    · simp [rawIsFinite] at notFinite

/-- A plan that pays all the sales of the company above one unit. -/
def totalAboveOne : Config :=
  .active .totalExcess ⟨some .one, some .one, none, none⟩ none

/-- Checked without any sales, it pays on the sample data. -/
theorem simulate_of_isValid_totalAboveOne :
    ∃ payout raw,
      (totalAboveOne.simulate .sample .empty
          ((Cache.ofCapacity 1).run [])).1 = .ok payout ∧
        payout.details.rawAmount = some raw ∧
        raw.isFinite = true := by
  have isValid :
      (totalAboveOne.validate .none .empty
        ((Cache.ofCapacity 1).run [])).1.isValid = true := by
    decide +kernel
  have noFormula : totalAboveOne.formula? = none := rfl
  exact
    (simulate_of_isValid .none .empty 1 [] isValid .sample .empty 1 []
      (by simp [noFormula])).2 .total rfl (by decide +kernel)

end IncentivePay
