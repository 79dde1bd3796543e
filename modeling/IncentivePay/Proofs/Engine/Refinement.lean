import IncentivePay.Proofs.Engine.FailClosed
import IncentivePay.Proofs.Payout.Computation

/-!
# A calculation refines a preview

A calculation fails only with the first source that fails on the way, and a
source is asked only when its answer is needed.  Once the sources have
answered, the payout is that of a preview of the configuration on the same
data, with a mark when no sales were recorded; where the preview answers an
error, the payout is nothing, keeps the error and records how far the
computation came.
-/

namespace IncentivePay

open Formula

/-! ## The first source that fails -/

/-- A source fails with an error, and no source that is asked before it does. -/
inductive Sources.FailsFirst
    (sources : Sources)
    (user : String)
    (period : Period)
    (error : SourceError) :
    Prop
  | config :
      sources.config user = .error error →
      FailsFirst sources user period error
  | sales {config : Config} :
      sources.HasPlan user config →
      sources.sales user period = .error error →
      FailsFirst sources user period error
  | profile {config : Config} {sales? : Option Sales} :
      sources.HasPlan user config →
      config.planType = .custom →
      sources.sales user period = .ok sales? →
      sources.profile user = .error error →
      FailsFirst sources user period error

/-- The sources answer that a user has no active plan. -/
def Sources.HasNoPlan
    (sources : Sources)
    (user : String) :
    Prop :=
  ∃ config?,
    sources.config user = .ok config? ∧
      ∀ config ∈ config?,
        config.isActive = false ∨ config.planType = .noPlan

variable
  {sources : Sources}
  {user : String}
  {period : Period}

theorem plannedConfig?_eq_error
    {error : SourceError}
    (failed : plannedConfig? sources user = .error error) :
    sources.config user = .error error := by
  unfold plannedConfig? at failed
  cases answered : sources.config user with
  | error other => simpa [answered, bind, Except.bind] using failed
  | ok config? => simp [answered, bind, Except.bind] at failed

theorem profileFor_eq_error
    {config : Config}
    {error : SourceError}
    (failed : profileFor sources user config = .error error) :
    config.planType = .custom ∧ sources.profile user = .error error := by
  unfold profileFor at failed
  split at failed
  · rename_i isCustom
    exact ⟨isCustom, failed⟩
  · contradiction

/-- Gathering fails exactly with the first source that fails. -/
theorem gather_eq_error_iff (error : SourceError) :
    gather sources user period = .error error ↔
      sources.FailsFirst user period error := by
  constructor
  · intro failed
    unfold gather at failed
    cases found : plannedConfig? sources user with
    | error other =>
        obtain rfl : other = error := by
          simpa [found, bind, Except.bind] using failed
        exact .config (plannedConfig?_eq_error found)
    | ok config? =>
        cases config? with
        | none => simp [found, bind, Except.bind] at failed
        | some config =>
            have hasPlan := plannedConfig?_eq_some found
            cases sold : sources.sales user period with
            | error other =>
                obtain rfl : other = error := by
                  simpa [found, sold, bind, Except.bind] using failed
                exact .sales hasPlan sold
            | ok sales? =>
                cases known : profileFor sources user config with
                | error other =>
                    obtain rfl : other = error := by
                      simpa [found, sold, known, bind, Except.bind] using failed
                    obtain ⟨isCustom, unknown⟩ := profileFor_eq_error known
                    exact .profile hasPlan isCustom sold unknown
                | ok profile =>
                    simp [found, sold, known, bind, Except.bind] at failed
  · intro fails
    unfold gather
    cases fails with
    | config failed => simp [plannedConfig?, failed, bind, Except.bind]
    | sales hasPlan failed =>
        simp [plannedConfig?_of_hasPlan hasPlan, failed, bind, Except.bind]
    | profile hasPlan isCustom sold failed =>
        simp [plannedConfig?_of_hasPlan hasPlan, sold, profileFor, isCustom,
          failed, bind, Except.bind]

theorem calculate_eq_error_iff
    (cache : Cache)
    (error : SourceError) :
    (calculate sources user period cache).1 = .error error ↔
      sources.FailsFirst user period error := by
  rw [← gather_eq_error_iff]
  unfold calculate
  split <;> simp_all

theorem calculate_of_hasNoPlan
    (hasNoPlan : sources.HasNoPlan user)
    (cache : Cache) :
    (calculate sources user period cache).1 = .ok .noIncentive := by
  obtain ⟨config?, answered, unplanned⟩ := hasNoPlan
  have filtered :
      (config?.filter fun config =>
        config.isActive && config.planType ≠ .noPlan) = none := by
    rw [Option.filter_eq_none_iff]
    intro config isConfig
    rcases unplanned config isConfig with inactive | noPlan
    · simp [inactive]
    · simp [noPlan]
  have gathers : gather sources user period = .ok none := by
    simp only [gather, plannedConfig?, answered, bind, Except.bind, filtered]
  simp [calculate, gathers]

/-! ## Payouts and previews -/

/-- What is recorded names the template of a configuration, or its formula. -/
def Details.AreRouted
    (details : Details)
    (config : Config) :
    Prop :=
  if config.planType = .custom then
    details.template = none ∧ details.formula = config.formula?
  else
    details.template = some config.planType ∧ details.formula = none

/-- How far a computation came before it ended in an error. -/
def Details.Reach
    (details : Details)
    (config : Config) :
    CalculationError →
    Prop
  | .invalidParameters _ =>
      details.template = none ∧
        details.formula = none ∧
        details.rawAmount = none
  | .nonFinite raw =>
      details.AreRouted config ∧ details.rawAmount = some raw
  | _ => details.AreRouted config ∧ details.rawAmount = none

/-- A payout of nothing that keeps an error and the data of the calculation. -/
structure Payout.FailsClosedWith
    (payout : Payout)
    (config : Config)
    (sales? : Option Sales)
    (profile : Profile)
    (error : CalculationError) :
    Prop where
  amount : payout.amount = 0
  planType : payout.planType = config.planType
  kept : payout.details.error = some error.message
  reached : payout.details.Reach config error
  parameters : payout.details.parameters = config.parameters
  sales : payout.details.salesData = some (sales?.getD .none)
  assumedZero : payout.details.salesAssumedZero = sales?.isNone
  profile :
    payout.details.profile =
      if config.planType = .custom then some profile else none

namespace Config

variable
  {config : Config}
  {sales : Sales}
  {profile : Profile}
  {cache other : Cache}

theorem payOut_eq (sales? : Option Sales) :
    (config.payOut sales? profile cache).1 =
      match
        (config.compute (sales?.getD .none) profile cache).1.outcome
      with
      | .ok amount =>
          ⟨amount, config.planType,
            { config.details (sales?.getD .none) profile
                (config.compute (sales?.getD .none) profile cache).1 with
              salesAssumedZero := sales?.isNone }⟩
      | .error error =>
          ⟨0, config.planType,
            { config.details (sales?.getD .none) profile
                (config.compute (sales?.getD .none) profile cache).1 with
              salesAssumedZero := sales?.isNone
              error := some error.message }⟩ := by
  simp only [payOut]
  cases (config.compute (sales?.getD .none) profile cache).1.outcome <;> rfl

/-- A computation that ends in an error has recorded how far it came. -/
theorem ComputesTo.reach_of_error
    {computation : Computation}
    {error : CalculationError}
    (computes : config.ComputesTo sales profile computation)
    (failed : computation.outcome = .error error) :
    (config.details sales profile computation).Reach config error := by
  cases computes with
  | violating broken =>
      obtain rfl := Except.error.inj failed
      exact ⟨rfl, rfl, rfl⟩
  | @template rule sound notCustom hasRule =>
      have ofType :=
        (Template.planType_and_numbers_of_ofParameters hasRule).1
      have routed :
          (config.details sales profile
            (.ofTemplate config.parameters rule sales)).AreRouted config := by
        rw [Details.AreRouted, if_neg notCustom]
        exact ⟨congrArg some ofType, rfl⟩
      obtain rfl := Computation.eq_nonFinite_of_settle failed
      exact ⟨routed, rfl⟩
  | unreadable sound isCustom hasFormula refused =>
      obtain rfl := Except.error.inj failed
      refine ⟨?_, rfl⟩
      rw [Details.AreRouted, if_pos isCustom]
      exact ⟨rfl, hasFormula.symm⟩
  | @formula formula tree raw sound isCustom hasFormula parsed evaluated =>
      obtain rfl := Computation.eq_nonFinite_of_settle failed
      refine ⟨?_, rfl⟩
      rw [Details.AreRouted, if_pos isCustom]
      exact ⟨rfl, hasFormula.symm⟩

/--
A payout is that of a preview, or it is nothing and keeps the error of the
preview.
-/
theorem payOut_refines_simulate
    (planned : config.planType ≠ .noPlan)
    (isRead : config.planType = .custom → config.IsReadBy cache)
    (isReadToo : config.planType = .custom → config.IsReadBy other)
    (sales? : Option Sales) :
    match (config.simulate (sales?.getD .none) profile other).1 with
    | .ok preview =>
        (config.payOut sales? profile cache).1 =
          { preview with
            details :=
              { preview.details with salesAssumedZero := sales?.isNone } }
    | .error error =>
        (config.payOut sales? profile cache).1.FailsClosedWith config sales?
          profile error := by
  have same :
      (config.compute (sales?.getD .none) profile other).1 =
        (config.compute (sales?.getD .none) profile cache).1 :=
    compute_congr planned isRead isReadToo fun _ => rfl
  have computes :
      config.ComputesTo (sales?.getD .none) profile
        (config.compute (sales?.getD .none) profile cache).1 :=
    computesTo_compute planned isRead
  rw [simulate_eq planned, payOut_eq, same]
  cases ends :
      (config.compute (sales?.getD .none) profile cache).1.outcome with
  | ok amount => rfl
  | error error =>
      exact
        { amount := rfl
          planType := rfl
          kept := rfl
          reached := by
            have reached := computes.reach_of_error ends
            cases error <;> exact reached
          parameters := rfl
          sales := rfl
          assumedZero := rfl
          profile := rfl }

/-- The profile makes no difference to the payout of a template. -/
theorem payOut_of_not_custom
    (planned : config.planType ≠ .noPlan)
    (notCustom : config.planType ≠ .custom)
    (sales? : Option Sales)
    (otherProfile : Profile) :
    (config.payOut sales? profile cache).1 =
      (config.payOut sales? otherProfile cache).1 := by
  have same :
      (config.compute (sales?.getD .none) profile cache).1 =
        (config.compute (sales?.getD .none) otherProfile cache).1 :=
    compute_congr planned (fun isCustom => absurd isCustom notCustom)
      (fun isCustom => absurd isCustom notCustom)
      (fun isCustom => absurd isCustom notCustom)
  rw [payOut_eq, payOut_eq, same]
  simp only [details, if_neg notCustom]

end Config

/-! ## Calculations and previews -/

/--
A calculation answers an error exactly when a source fails on the way, which
is the error of the first that does; a user without an active plan is paid
nothing, whatever the other sources do.  With an active plan it is the preview
of the plan on the recorded sales, or on none with a mark, and on the profile,
which only a formula needs; where the preview has an error, the calculation
fails closed with it.  Both may use any cache that a run leaves.
-/
theorem calculate_refines_simulate
    (sources : Sources)
    (user : String)
    (period : Period)
    (capacity otherCapacity : Nat)
    (commands otherCommands : List CacheCommand)
    (collisionFree :
      ∀ config formula,
        sources.HasPlan user config →
        config.planType = .custom →
        config.formula? = some formula →
        CollisionFree (formula :: textsOf commands) ∧
          CollisionFree (formula :: textsOf otherCommands)) :
    let result :=
      (calculate sources user period
        ((Cache.ofCapacity capacity).run commands)).1
    (∀ error,
      result = .error error ↔ sources.FailsFirst user period error) ∧
    (sources.HasNoPlan user → result = .ok .noIncentive) ∧
    (∀ config sales? profile,
      sources.HasPlan user config →
      sources.sales user period = .ok sales? →
      (config.planType = .custom → sources.profile user = .ok profile) →
      match
        (config.simulate (sales?.getD .none) profile
          ((Cache.ofCapacity otherCapacity).run otherCommands)).1
      with
      | .ok preview =>
          result =
            .ok
              { preview with
                details :=
                  { preview.details with salesAssumedZero := sales?.isNone } }
      | .error error =>
          ∃ payout,
            result = .ok payout ∧
              payout.FailsClosedWith config sales? profile error) := by
  intro result
  refine ⟨calculate_eq_error_iff _, ?_, ?_⟩
  · intro hasNoPlan
    exact calculate_of_hasNoPlan hasNoPlan _
  · intro config sales? profile hasPlan sold known
    have calculated :
        result =
          .ok
            (config.payOut sales? profile
              ((Cache.ofCapacity capacity).run commands)).1 := by
      by_cases isCustom : config.planType = .custom
      · apply calculate_of_answer
        exact ⟨hasPlan, sold, by rw [profileFor, if_pos isCustom, known isCustom]⟩
      · rw [Config.payOut_of_not_custom hasPlan.planned isCustom sales? .empty]
        apply calculate_of_answer
        exact ⟨hasPlan, sold, by rw [profileFor, if_neg isCustom]⟩
    have refines :=
      @Config.payOut_refines_simulate config profile
        ((Cache.ofCapacity capacity).run commands)
        ((Cache.ofCapacity otherCapacity).run otherCommands)
        hasPlan.planned
        (fun isCustom =>
          Config.isReadBy_run fun formula hasFormula =>
            (collisionFree config formula hasPlan isCustom hasFormula).1)
        (fun isCustom =>
          Config.isReadBy_run fun formula hasFormula =>
            (collisionFree config formula hasPlan isCustom hasFormula).2)
        sales?
    rw [calculated]
    split at refines
    · rw [refines]
    · exact ⟨_, rfl, refines⟩

/--
The plan with the unfinished formula, while the profiles are out of reach.
-/
def withoutProfiles : Sources :=
  { Sources.ofConfig unfinishedFormula with
    profile := fun _ => .error (.unavailable "no connection") }

theorem simulate_unfinishedFormula
    (cache : Cache)
    (isRead : unfinishedFormula.IsReadBy cache) :
    (unfinishedFormula.simulate .none .empty cache).1 =
      .error (.unreadable ⟨.unexpectedEnd .operand, 1⟩) := by
  have isFormula : unfinishedFormula.formula? = some "(" := by decide
  rw [Config.simulate_eq (by decide),
    Config.compute_custom (by decide) rfl isFormula isRead,
    parse_openParenthesis]
  rfl

/--
The unfinished formula pays nothing, and without profiles it is not tried.
-/
theorem calculate_refines_simulate_unfinishedFormula :
    let period : Period := ⟨2024, 1, by decide, by decide, by decide⟩
    let cache := (Cache.ofCapacity 1).run [.getOrParse "("]
    (∃ payout,
      (calculate (Sources.ofConfig unfinishedFormula) "ada" period cache).1 =
          .ok payout ∧
        payout.FailsClosedWith unfinishedFormula none .empty
          (.unreadable ⟨.unexpectedEnd .operand, 1⟩)) ∧
      (calculate withoutProfiles "ada" period cache).1 =
        .error (.unavailable "no connection") := by
  intro period cache
  have collisionFree {sources : Sources}
      (isConfig : sources.config "ada" = .ok (some unfinishedFormula)) :
      ∀ config formula,
        sources.HasPlan "ada" config →
        config.planType = .custom →
        config.formula? = some formula →
        CollisionFree (formula :: textsOf [.getOrParse "("]) ∧
          CollisionFree (formula :: textsOf []) := by
    intro config formula hasPlan _ hasFormula
    obtain rfl : unfinishedFormula = config := by
      simpa using isConfig.symm.trans hasPlan.answered
    obtain rfl : "(" = formula := by
      have isFormula : unfinishedFormula.formula? = some "(" := by decide
      simpa using isFormula.symm.trans hasFormula
    exact
      ⟨@CollisionFree.of_all_eq _ "(" (by decide),
        @CollisionFree.of_all_eq _ "(" (by decide)⟩
  constructor
  · have hasPlan : (Sources.ofConfig unfinishedFormula).HasPlan "ada" _ :=
      ⟨rfl, rfl, by decide⟩
    have refines :=
      (calculate_refines_simulate (Sources.ofConfig unfinishedFormula) "ada"
        period 1 1 [.getOrParse "("] [] (collisionFree rfl)).2.2
        unfinishedFormula none .empty hasPlan rfl fun _ => rfl
    rw [Option.getD_none,
      simulate_unfinishedFormula _
        (Config.isReadBy_run fun formula hasFormula =>
          (collisionFree rfl _ formula hasPlan rfl hasFormula).2)] at refines
    exact refines
  · apply
      ((calculate_refines_simulate withoutProfiles "ada" period 1 1
        [.getOrParse "("] [] (collisionFree rfl)).1 _).2
    exact .profile ⟨rfl, rfl, by decide⟩ rfl rfl rfl

end IncentivePay
