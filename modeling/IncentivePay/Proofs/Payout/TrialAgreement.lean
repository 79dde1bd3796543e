import IncentivePay.Payout.Validation
import IncentivePay.Proofs.Formula.RoundTrip
import IncentivePay.Proofs.Payout.Computation
import IncentivePay.Proofs.Payout.ViolationKinds

/-!
# A report agrees with a preview on the sample data

A report and a preview of one configuration on the same data come from
separate functions.  `Report.AgreesWith` says how their answers belong
together: both list the violated rules, or both have the amount, or both name
the same failure of the formula.  With finite sales figures a template never
fails, which the trial of a report takes for granted and the preview checks.
-/

namespace IncentivePay

open Formula

namespace Config

variable
  {config : Config}
  {sales : Sales}
  {profile : Profile}
  {cache : Cache}

/-! ## Trials -/

theorem trial_template
    {rule : Template}
    (notCustom : config.planType ≠ .custom)
    (planned : config.planType ≠ .noPlan)
    (hasRule :
      Template.ofParameters config.planType config.parameters = .ok rule) :
    (config.trial sales profile cache).1 =
      .ok (some (rule.rawAmount sales)) := by
  unfold trial
  split
  · contradiction
  · contradiction
  · rw [hasRule]

theorem trial_custom
    {formula : String}
    (isCustom : config.planType = .custom)
    (hasFormula : config.formula? = some formula)
    (isRead : config.IsReadBy cache) :
    (config.trial sales profile cache).1 =
      (tryFormula (parse formula) (.ofRecords sales profile)).map some := by
  simp [trial, isCustom, hasFormula, isRead formula hasFormula]

theorem isFormulaFailure_of_tryFormula
    {tree : Except SyntaxError Expr}
    {bindings : Bindings}
    {violation : Violation}
    (failed : tryFormula tree bindings = .error violation) :
    violation.isFormulaFailure = true := by
  unfold tryFormula at failed
  split at failed
  · rw [← Except.error.inj failed]
    rfl
  · split at failed
    · rw [← Except.error.inj failed]
      rfl
    · split at failed
      · contradiction
      · rw [← Except.error.inj failed]
        rfl

/-- What a trial finds wrong is a failure of the formula. -/
theorem isFormulaFailure_of_trial
    {violation : Violation}
    (failed : (config.trial sales profile cache).1 = .error violation) :
    violation.isFormulaFailure = true := by
  unfold trial at failed
  split at failed
  · contradiction
  · split at failed
    · contradiction
    · rename_i formula _
      apply isFormulaFailure_of_tryFormula
      cases tried :
          tryFormula (cache.getOrParse formula).1
            (.ofRecords sales profile) with
      | error found => simpa [tried, Except.map] using failed
      | ok raw => simp [tried, Except.map] at failed
  · split at failed <;> contradiction

/-! ## Reports -/

theorem validate_of_trial_ok
    {testResult : Option Binary64}
    (tried : (config.trial sales profile cache).1 = .ok testResult) :
    (config.validate sales profile cache).1 =
      ⟨config.violations, testResult,
        if config.violations.isEmpty then
          testResult.map config.parameters.limit
        else
          none⟩ := by
  simp [validate, tried]

theorem validate_of_trial_error
    {violation : Violation}
    (tried : (config.trial sales profile cache).1 = .error violation) :
    (config.validate sales profile cache).1 =
      ⟨config.violations ++ [violation], none, none⟩ := by
  simp [validate, tried]

/-- Without violations, a trial that finds a value settles the report. -/
theorem validate_of_sound
    {raw : Binary64}
    (sound : config.violations = [])
    (tried : (config.trial sales profile cache).1 = .ok (some raw)) :
    (config.validate sales profile cache).1 =
      ⟨[], some raw, some (config.parameters.limit raw)⟩ := by
  rw [validate_of_trial_ok tried, sound]
  rfl

end Config

/-- How a report and a preview of one configuration belong together. -/
inductive Report.AgreesWith
    (config : Config) :
    Report →
    Except CalculationError Payout →
    Prop
  | violating {found : List Violation} {testResult : Option Binary64} :
      config.violations ≠ [] →
      found.length ≤ 1 →
      (∀ violation ∈ found, violation.isFormulaFailure = true) →
      AgreesWith config
        ⟨config.violations ++ found, testResult, none⟩
        (.error (.invalidParameters config.violations))
  | paying {payout : Payout} {raw : Binary64} :
      payout.details.rawAmount = some raw →
      AgreesWith config ⟨[], some raw, some payout.amount⟩ (.ok payout)
  | unreadable {error : SyntaxError} :
      AgreesWith config
        ⟨[.unreadable error], none, none⟩
        (.error (.unreadable error))
  | nonFinite {raw : Binary64} :
      AgreesWith config
        ⟨[.nonFinite raw], none, none⟩
        (.error (.nonFinite raw))

namespace Config

variable
  {config : Config}
  {sales : Sales}
  {profile : Profile}
  {cache other : Cache}

/--
Violated rules are what a report begins with, and all that a preview answers.
-/
theorem agrees_of_violations
    (planned : config.planType ≠ .noPlan)
    (broken : config.violations ≠ []) :
    Report.AgreesWith config
      (config.validate sales profile cache).1
      (config.simulate sales profile other).1 := by
  have previewed :
      (config.simulate sales profile other).1 =
        .error (.invalidParameters config.violations) := by
    rw [simulate_eq planned, compute_of_violations broken]
    rfl
  rw [previewed]
  -- The trial takes place all the same, and may add the failure of the formula.
  cases tried : (config.trial sales profile cache).1 with
  | ok testResult =>
      have notEmpty : config.violations.isEmpty = false := by
        simpa using broken
      have agrees :
          Report.AgreesWith config
            ⟨config.violations ++ [], testResult, none⟩
            (.error (.invalidParameters config.violations)) :=
        .violating broken (by simp) (by simp)
      rw [List.append_nil] at agrees
      rw [validate_of_trial_ok tried, notEmpty]
      exact agrees
  | error violation =>
      rw [validate_of_trial_error tried]
      apply Report.AgreesWith.violating broken (by simp)
      intro found member
      rw [List.mem_singleton.1 member]
      exact isFormulaFailure_of_trial tried

/-- A template without violations is paid in a preview as in a report. -/
theorem agrees_template
    (sound : config.violations = [])
    (notCustom : config.planType ≠ .custom)
    (planned : config.planType ≠ .noPlan)
    (personalIsFinite : sales.personal.isFinite = true)
    (totalIsFinite : sales.total.isFinite = true) :
    Report.AgreesWith config
      (config.validate sales profile cache).1
      (config.simulate sales profile other).1 := by
  obtain ⟨rule, hasRule⟩ := exists_rule_of_sound sound notCustom planned
  have isFinite : (rule.rawAmount sales).isFinite = true := by
    apply
      Template.isFinite_rawAmount (List.append_eq_nil_iff.1 sound).2
        (Template.planType_and_numbers_of_ofParameters hasRule).2
    cases rule.basis with
    | personal => exact personalIsFinite
    | total => exact totalIsFinite
  have tried := @trial_template _ sales profile cache _ notCustom planned hasRule
  rw [validate_of_sound sound tried, simulate_eq planned,
    (compute_template sound notCustom planned hasRule).1,
    Computation.ofTemplate, settle_of_isFinite isFinite]
  exact @Report.AgreesWith.paying config ⟨_, _, _⟩ _ rfl

/-- A formula of a configuration without violations fares alike in both. -/
theorem agrees_custom
    (sound : config.violations = [])
    (isCustom : config.planType = .custom)
    (isRead : config.IsReadBy cache)
    (isReadToo : config.IsReadBy other) :
    Report.AgreesWith config
      (config.validate sales profile cache).1
      (config.simulate sales profile other).1 := by
  have planned : config.planType ≠ .noPlan := by simp [isCustom]
  obtain ⟨formula, hasFormula⟩ := isSome_formula?_of_sound sound isCustom
  have tried := @trial_custom _ sales profile _ _ isCustom hasFormula isRead
  rw [simulate_eq planned, compute_custom sound isCustom hasFormula isReadToo]
  cases parsed : parse formula with
  | error error =>
      rw [parsed] at tried
      rw [validate_of_trial_error tried, sound]
      exact .unreadable
  | ok tree =>
      obtain ⟨raw, evaluated⟩ :=
        exists_evaluate_of_parse parsed
          (Bindings.bindsAll_ofRecords sales profile)
      simp only [Computation.ofFormula, evaluated]
      simp only [parsed, tryFormula, evaluated] at tried
      cases isFinite : raw.isFinite with
      | true =>
          rw [if_pos isFinite] at tried
          rw [validate_of_sound sound tried, settle_of_isFinite isFinite]
          exact @Report.AgreesWith.paying config ⟨_, _, _⟩ _ rfl
      | false =>
          have notFinite : ¬ raw.isFinite = true := by simp [isFinite]
          rw [if_neg notFinite] at tried
          rw [validate_of_trial_error tried, sound, Computation.settle,
            if_neg notFinite]
          exact .nonFinite

/-- A report and a preview on finite sales figures belong together. -/
theorem agrees_validate_simulate
    (planned : config.planType ≠ .noPlan)
    (personalIsFinite : sales.personal.isFinite = true)
    (totalIsFinite : sales.total.isFinite = true)
    (isRead : config.planType = .custom → config.IsReadBy cache)
    (isReadToo : config.planType = .custom → config.IsReadBy other) :
    Report.AgreesWith config
      (config.validate sales profile cache).1
      (config.simulate sales profile other).1 := by
  by_cases sound : config.violations = []
  · by_cases isCustom : config.planType = .custom
    · exact agrees_custom sound isCustom (isRead isCustom) (isReadToo isCustom)
    · exact
        agrees_template sound isCustom planned personalIsFinite totalIsFinite
  · exact agrees_of_violations planned sound

end Config

/-! ## What the agreement says -/

namespace Report.AgreesWith

variable
  {config : Config}
  {report : Report}
  {preview : Except CalculationError Payout}

theorem isValid_iff (agrees : AgreesWith config report preview) :
    report.isValid = true ↔ ∃ payout, preview = .ok payout := by
  cases agrees with
  | violating broken => simp [isValid, broken]
  | paying recorded => simp [isValid]
  | unreadable => simp [isValid]
  | nonFinite => simp [isValid]

theorem of_ok
    {payout : Payout}
    (agrees : AgreesWith config report (.ok payout)) :
    report.testAmount = some payout.amount ∧
      ∃ raw,
        payout.details.rawAmount = some raw ∧ report.testResult = some raw := by
  cases agrees with
  | paying recorded => exact ⟨rfl, _, recorded, rfl⟩

/-- A preview without a payout has one of three errors. -/
theorem of_error
    {error : CalculationError}
    (agrees : AgreesWith config report (.error error)) :
    report.testAmount = none ∧
      ((∃ violations, error = .invalidParameters violations) ∨
        (∃ reason, error = .unreadable reason) ∨
        ∃ value, error = .nonFinite value) := by
  cases agrees with
  | violating broken => exact ⟨rfl, .inl ⟨_, rfl⟩⟩
  | unreadable => exact ⟨rfl, .inr (.inl ⟨_, rfl⟩)⟩
  | nonFinite => exact ⟨rfl, .inr (.inr ⟨_, rfl⟩)⟩

/-- A violated rule is never the failure of a formula alone. -/
theorem append_ne_singleton
    (broken : config.violations ≠ [])
    {violation : Violation}
    (isFailure : violation.isFormulaFailure = true)
    (found : List Violation) :
    config.violations ++ found ≠ [violation] := by
  intro same
  obtain ⟨first, others, isFirst⟩ := List.exists_cons_of_ne_nil broken
  have member : first ∈ config.violations := by simp [isFirst]
  have notFailure : first.isFormulaFailure = false :=
    Config.not_isFormulaFailure_of_mem member
  rw [isFirst, List.cons_append, List.cons.injEq] at same
  rw [same.1, isFailure] at notFailure
  contradiction

theorem invalidParameters_iff
    (agrees : AgreesWith config report preview)
    (violations : List Violation) :
    preview = .error (.invalidParameters violations) ↔
      violations = config.violations ∧
        violations ≠ [] ∧
        ∃ found,
          report.violations = violations ++ found ∧
            found.length ≤ 1 ∧
            ∀ violation ∈ found, violation.isFormulaFailure = true := by
  constructor
  · rintro rfl
    cases agrees with
    | violating broken single failures =>
        exact ⟨rfl, broken, _, rfl, single, failures⟩
  · rintro ⟨rfl, broken, found, listed, -, -⟩
    cases agrees with
    | violating => rfl
    | paying => simp_all
    | unreadable =>
        exact absurd listed.symm (append_ne_singleton broken rfl found)
    | nonFinite =>
        exact absurd listed.symm (append_ne_singleton broken rfl found)

theorem unreadable_iff
    (agrees : AgreesWith config report preview)
    (error : SyntaxError) :
    preview = .error (.unreadable error) ↔
      report.violations = [.unreadable error] := by
  cases agrees with
  | violating broken =>
      simpa using append_ne_singleton broken rfl _
  | paying => simp
  | unreadable => simp
  | nonFinite => simp

theorem nonFinite_iff
    (agrees : AgreesWith config report preview)
    (value : Binary64) :
    preview = .error (.nonFinite value) ↔
      report.violations = [.nonFinite value] := by
  cases agrees with
  | violating broken =>
      simpa using append_ne_singleton broken rfl _
  | paying => simp
  | unreadable => simp
  | nonFinite => simp

end Report.AgreesWith

/--
The report on a configuration and its preview on the same finite sales
figures, each over a cache that some run leaves: the report is valid exactly
when the preview pays, and has its amount and raw amount; otherwise it has no
amount, and its violations tell which of three errors the preview answers.
-/
theorem validate_agrees_simulate
    {config : Config}
    (planned : config.planType ≠ .noPlan)
    {sales : Sales}
    (personalIsFinite : sales.personal.isFinite = true)
    (totalIsFinite : sales.total.isFinite = true)
    (profile : Profile)
    (capacity otherCapacity : Nat)
    (commands otherCommands : List CacheCommand)
    (collisionFree :
      ∀ formula,
        config.planType = .custom →
        config.formula? = some formula →
        CollisionFree (formula :: textsOf commands) ∧
          CollisionFree (formula :: textsOf otherCommands)) :
    let report :=
      (config.validate sales profile
        ((Cache.ofCapacity capacity).run commands)).1
    let preview :=
      (config.simulate sales profile
        ((Cache.ofCapacity otherCapacity).run otherCommands)).1
    (report.isValid = true ↔ ∃ payout, preview = .ok payout) ∧
      (∀ payout,
        preview = .ok payout →
        report.testAmount = some payout.amount ∧
          ∃ raw,
            payout.details.rawAmount = some raw ∧
              report.testResult = some raw) ∧
      (∀ error,
        preview = .error error →
        report.testAmount = none ∧
          ((∃ violations, error = .invalidParameters violations) ∨
            (∃ reason, error = .unreadable reason) ∨
            ∃ value, error = .nonFinite value)) ∧
      (∀ violations,
        preview = .error (.invalidParameters violations) ↔
          violations = config.violations ∧
            violations ≠ [] ∧
            ∃ found,
              report.violations = violations ++ found ∧
                found.length ≤ 1 ∧
                ∀ violation ∈ found, violation.isFormulaFailure = true) ∧
      (∀ error,
        preview = .error (.unreadable error) ↔
          report.violations = [.unreadable error]) ∧
      (∀ value,
        preview = .error (.nonFinite value) ↔
          report.violations = [.nonFinite value]) := by
  intro report preview
  have agrees : Report.AgreesWith config report preview :=
    Config.agrees_validate_simulate planned personalIsFinite totalIsFinite
      (fun isCustom =>
        Config.isReadBy_run fun formula hasFormula =>
          (collisionFree formula isCustom hasFormula).1)
      (fun isCustom =>
        Config.isReadBy_run fun formula hasFormula =>
          (collisionFree formula isCustom hasFormula).2)
  refine
    ⟨agrees.isValid_iff, ?_, ?_, agrees.invalidParameters_iff,
      agrees.unreadable_iff, agrees.nonFinite_iff⟩
  · intro payout paid
    rw [paid] at agrees
    exact agrees.of_ok
  · intro error failed
    rw [failed] at agrees
    exact agrees.of_error

/-- A plan that pays the personal sales. -/
def personalSales : Config :=
  .active .custom .empty (some "sales")

theorem simulate_personalSales
    {cache : Cache}
    (isRead : personalSales.IsReadBy cache) :
    ∃ details,
      (personalSales.simulate .none .empty cache).1 =
        .ok ⟨0, .custom, details⟩ := by
  have sound : personalSales.violations = [] := by decide
  have isFormula : personalSales.formula? = some "sales" := by decide
  have parsed : parse "sales" = .ok (.reference "sales") := parse_name .sales
  have evaluated :
      evaluate (.reference "sales") (.ofRecords .none .empty) =
        .ok .zero := by
    rfl
  have isNothing : Parameters.empty.limit .zero = 0 := by decide +kernel
  rw [Config.simulate_eq (by decide),
    Config.compute_custom sound rfl isFormula isRead, parsed]
  simp only [Computation.ofFormula, evaluated]
  rw [Config.settle_of_isFinite rfl]
  exact ⟨_, by rw [← isNothing]; rfl⟩

/-- Nothing was sold, and nothing is paid, by the report as by the preview. -/
theorem validate_agrees_simulate_personalSales :
    let report :=
      (personalSales.validate .none .empty ((Cache.ofCapacity 1).run [])).1
    report.isValid = true ∧ report.testAmount = some 0 := by
  have isFormula : personalSales.formula? = some "sales" := by decide
  have collisionFree :
      ∀ formula,
        personalSales.planType = .custom →
        personalSales.formula? = some formula →
        CollisionFree (formula :: textsOf []) ∧
          CollisionFree (formula :: textsOf [.getOrParse "sales"]) := by
    intro formula _ hasFormula
    obtain rfl : "sales" = formula := by
      simpa using isFormula.symm.trans hasFormula
    exact
      ⟨@CollisionFree.of_all_eq _ "sales" (by decide),
        @CollisionFree.of_all_eq _ "sales" (by decide)⟩
  obtain ⟨details, previewed⟩ :=
    simulate_personalSales
      (Config.isReadBy_run fun formula hasFormula =>
        (collisionFree formula rfl hasFormula).2)
  obtain ⟨isValid_iff, ofPaid, -⟩ :=
    @validate_agrees_simulate personalSales (by decide) .none rfl rfl .empty
      1 1 [] [.getOrParse "sales"] collisionFree
  exact ⟨isValid_iff.2 ⟨_, previewed⟩, (ofPaid _ previewed).1⟩

end IncentivePay
