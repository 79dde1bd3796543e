import IncentivePay.Proofs.Engine.Refinement
import IncentivePay.Proofs.Formula.ReadVariables
import IncentivePay.Proofs.Payout.TrialAgreement

/-!
# Only what a formula mentions can change its payout

Two previews of a formula on different sales and profiles show the same figures
when the two bind the same numbers to the variables that the text of the
formula mentions.  A formula that mentions nothing of the profile is therefore
paid in a calculation as a preview without a profile shows it.
-/

namespace IncentivePay

open Formula

/-- What a preview shows of its payout: the amount and the raw amount. -/
def figuresOf
    (preview : Except CalculationError Payout) :
    Except CalculationError (Int64 × Option Binary64) :=
  preview.map fun payout => (payout.amount, payout.details.rawAmount)

/-- Two pairs of records bind the same numbers to what a text mentions. -/
def AgreeOnMentioned
    (text : String)
    (sales : Sales)
    (profile : Profile)
    (otherSales : Sales)
    (otherProfile : Profile) :
    Prop :=
  ∀ quantity,
    Mentions text quantity →
    (Bindings.ofRecords sales profile).value? quantity =
      (Bindings.ofRecords otherSales otherProfile).value? quantity

/-- The variables whose numbers come from a profile. -/
def Formula.Variable.isOfProfile : Variable → Bool
  | .baseSalary => true
  | .years => true
  | .performance => true
  | _ => false

/-- Without a variable of the profile, any two profiles agree. -/
theorem agreeOnMentioned_of_not_isOfProfile
    {text : String}
    (noProfile :
      ∀ quantity, Mentions text quantity → quantity.isOfProfile = false)
    (sales : Sales)
    (profile otherProfile : Profile) :
    AgreeOnMentioned text sales profile sales otherProfile := by
  intro quantity mentioned
  have ofSales := noProfile quantity mentioned
  cases quantity <;> first | rfl | contradiction

namespace Config

variable
  {config : Config}
  {text : String}
  {tree : Expr}
  {sales otherSales : Sales}
  {profile otherProfile : Profile}
  {cache other : Cache}

/--
A text that parses is not blank, so it is the formula of its configuration.
-/
theorem formula?_of_parse
    (written : config.customFormula = some text)
    (parsed : parse text = .ok tree) :
    config.formula? = some text := by
  obtain ⟨tokens, reading⟩ := exists_hasReading_of_parse parsed
  have notBlank : isBlankText text = false :=
    isBlankText_eq_false_of_derives reading.scanned reading.derives
  simp [formula?, written, notBlank]

/-- Computations on records that agree on what is mentioned are the same. -/
theorem compute_of_agreeOnMentioned
    (isCustom : config.planType = .custom)
    (hasFormula : config.formula? = some text)
    (parsed : parse text = .ok tree)
    (agree : AgreeOnMentioned text sales profile otherSales otherProfile)
    (isRead : config.IsReadBy cache)
    (isReadToo : config.IsReadBy other) :
    (config.compute sales profile cache).1 =
      (config.compute otherSales otherProfile other).1 := by
  -- A violated rule is answered before any record is read.
  by_cases sound : config.violations = []
  · rw [compute_custom sound isCustom hasFormula isRead,
      compute_custom sound isCustom hasFormula isReadToo, parsed]
    simp only [Computation.ofFormula, evaluate_eq_of_mentioned parsed agree]
  · rw [compute_of_violations sound, compute_of_violations sound]

/-- The figures of a preview are those of its computation. -/
theorem figuresOf_simulate (planned : config.planType ≠ .noPlan) :
    figuresOf (config.simulate sales profile cache).1 =
      (config.compute sales profile cache).1.outcome.map fun amount =>
        (amount, (config.compute sales profile cache).1.rawAmount) := by
  rw [simulate_eq planned]
  cases (config.compute sales profile cache).1.outcome <;> rfl

/--
A payout has the figures of a preview on another profile that agrees, or its
error.
-/
theorem payOut_of_agreeOnMentioned
    {sales? : Option Sales}
    (isCustom : config.planType = .custom)
    (hasFormula : config.formula? = some text)
    (parsed : parse text = .ok tree)
    (agree :
      AgreeOnMentioned text (sales?.getD .none) profile (sales?.getD .none)
        otherProfile)
    (isRead : config.IsReadBy cache)
    (isReadToo : config.IsReadBy other) :
    match (config.simulate (sales?.getD .none) otherProfile other).1 with
    | .ok preview =>
        (config.payOut sales? profile cache).1.amount = preview.amount ∧
          (config.payOut sales? profile cache).1.details.rawAmount =
            preview.details.rawAmount ∧
          (config.payOut sales? profile cache).1.details.error = none
    | .error error =>
        (config.payOut sales? profile cache).1.FailsClosedWith config sales?
          profile error := by
  have planned : config.planType ≠ .noPlan := by simp [isCustom]
  have same :
      (config.compute (sales?.getD .none) profile cache).1 =
        (config.compute (sales?.getD .none) otherProfile other).1 :=
    compute_of_agreeOnMentioned isCustom hasFormula parsed agree isRead
      isReadToo
  have refines :=
    @payOut_refines_simulate config profile cache cache planned
      (fun _ => isRead) (fun _ => isRead) sales?
  rw [simulate_eq planned] at refines
  rw [simulate_eq planned, ← same]
  cases ends :
      (config.compute (sales?.getD .none) profile cache).1.outcome with
  | ok amount =>
      obtain ⟨paid, noError, recorded, -⟩ := payOut_of_ok ends
      exact ⟨paid, recorded, noError⟩
  | error error =>
      rw [ends] at refines
      exact refines

end Config

/--
A custom configuration whose formula parses.  On any two pairs of sales and
profiles that agree on what the text of the formula mentions, and over any two
caches that runs leave, its previews show the same amount and raw amount, or
the same error.

If the formula mentions no variable of the profile, the calculation for a user
with this plan pays the amount and raw amount that the preview of the recorded
sales shows without any profile, and fails closed with its error if there is
one.
-/
theorem simulate_of_agreeOnMentioned
    {config : Config}
    {text : String}
    {tree : Expr}
    (isCustom : config.planType = .custom)
    (written : config.customFormula = some text)
    (parsed : parse text = .ok tree)
    (capacity otherCapacity : Nat)
    (commands otherCommands : List CacheCommand)
    (collisionFree : CollisionFree (text :: textsOf commands))
    (otherCollisionFree : CollisionFree (text :: textsOf otherCommands)) :
    let cache := (Cache.ofCapacity capacity).run commands
    let other := (Cache.ofCapacity otherCapacity).run otherCommands
    (∀ sales profile otherSales otherProfile,
      AgreeOnMentioned text sales profile otherSales otherProfile →
      figuresOf (config.simulate sales profile cache).1 =
        figuresOf (config.simulate otherSales otherProfile other).1) ∧
      ((∀ quantity, Mentions text quantity → quantity.isOfProfile = false) →
        ∀ sources user period sales? profile,
          Sources.Answer sources user period config sales? profile →
          ∃ payout,
            (calculate sources user period cache).1 = .ok payout ∧
              match
                (config.simulate (sales?.getD .none) .empty other).1
              with
              | .ok preview =>
                  payout.amount = preview.amount ∧
                    payout.details.rawAmount = preview.details.rawAmount ∧
                    payout.details.error = none
              | .error error =>
                  payout.FailsClosedWith config sales? profile error) := by
  intro cache other
  have planned : config.planType ≠ .noPlan := by simp [isCustom]
  have hasFormula := Config.formula?_of_parse written parsed
  have isRead : config.IsReadBy cache :=
    Config.isReadBy_run_of_formula hasFormula collisionFree
  have isReadToo : config.IsReadBy other :=
    Config.isReadBy_run_of_formula hasFormula otherCollisionFree
  constructor
  · intro sales profile otherSales otherProfile agree
    rw [Config.figuresOf_simulate planned, Config.figuresOf_simulate planned,
      Config.compute_of_agreeOnMentioned isCustom hasFormula parsed agree
        isRead isReadToo]
  · intro noProfile sources user period sales? profile answer
    refine ⟨_, calculate_of_answer answer cache, ?_⟩
    exact
      Config.payOut_of_agreeOnMentioned isCustom hasFormula parsed
        (agreeOnMentioned_of_not_isOfProfile noProfile _ profile .empty)
        isRead isReadToo

/-- The plan that pays the personal sales, for users with a sample profile. -/
def withSampleProfiles : Sources :=
  { Sources.ofConfig personalSales with profile := fun _ => .ok .sample }

theorem mentions_personalSales_iff (quantity : Variable) :
    Mentions "sales" quantity ↔ quantity = .sales :=
  (mem_reads_iff_of_parse (parse_name .sales) quantity).symm.trans
    (by simp [Expr.reads])

theorem agreeOnMentioned_personalSales
    (sales : Sales)
    (profile otherProfile : Profile)
    (total : Binary64) :
    AgreeOnMentioned "sales" sales profile { sales with total := total }
      otherProfile := by
  intro quantity mentioned
  rw [(mentions_personalSales_iff quantity).1 mentioned]
  rfl

/-- Neither the company nor the profile matters to the personal sales. -/
theorem simulate_of_agreeOnMentioned_personalSales :
    let cache := (Cache.ofCapacity 1).run []
    let other := (Cache.ofCapacity 1).run [.getOrParse "sales"]
    let period : Period := ⟨2024, 1, by decide, by decide, by decide⟩
    figuresOf (personalSales.simulate .sample .sample cache).1 =
        figuresOf
          (personalSales.simulate { Sales.sample with total := .zero } .empty
            other).1 ∧
      ∃ payout,
        (calculate withSampleProfiles "ada" period cache).1 = .ok payout ∧
          payout.amount = 0 ∧
          payout.details.error = none := by
  intro cache other period
  have isFormula : personalSales.formula? = some "sales" := by decide
  have collisionFree : CollisionFree ("sales" :: textsOf []) :=
    @CollisionFree.of_all_eq _ "sales" (by decide)
  have otherCollisionFree :
      CollisionFree ("sales" :: textsOf [.getOrParse "sales"]) :=
    @CollisionFree.of_all_eq _ "sales" (by decide)
  obtain ⟨onRecords, inCalculations⟩ :=
    @simulate_of_agreeOnMentioned personalSales "sales" _ rfl rfl
      (parse_name .sales) 1 1 [] [.getOrParse "sales"] collisionFree
      otherCollisionFree
  constructor
  · exact
      onRecords _ _ _ _
        (agreeOnMentioned_personalSales .sample .sample .empty .zero)
  · have noProfile :
        ∀ quantity, Mentions "sales" quantity → quantity.isOfProfile = false := by
      intro quantity mentioned
      rw [(mentions_personalSales_iff quantity).1 mentioned]
      rfl
    obtain ⟨payout, calculated, shows⟩ :=
      inCalculations noProfile withSampleProfiles "ada" period none .sample
        ⟨⟨rfl, rfl, by decide⟩, rfl, rfl⟩
    obtain ⟨details, previewed⟩ :=
      simulate_personalSales
        (Config.isReadBy_run_of_formula isFormula otherCollisionFree)
    rw [Option.getD_none, previewed] at shows
    exact ⟨payout, calculated, shows.1, shows.2.2⟩

end IncentivePay
