import IncentivePay.Engine.Basic
import IncentivePay.Proofs.Payout.FailClosed

/-!
# Calculations fail closed

A calculation asks its sources and hands the answers to the payout of a
configuration, so what holds of every payout holds of every calculation: it
pays nothing on an error, it has an error exactly when the plan of the user
fails on the data, and else it pays the limited raw amount.
-/

namespace IncentivePay

open Formula

/-- The sources answer that a user has an active plan. -/
structure Sources.HasPlan
    (sources : Sources)
    (user : String)
    (config : Config) :
    Prop where
  answered : sources.config user = .ok (some config)
  isActive : config.isActive = true
  planned : config.planType ≠ .noPlan

/-- The sources answer with what a calculation needs. -/
structure Sources.Answer
    (sources : Sources)
    (user : String)
    (period : Period)
    (config : Config)
    (sales? : Option Sales)
    (profile : Profile) :
    Prop where
  hasPlan : sources.HasPlan user config
  sales : sources.sales user period = .ok sales?
  profile : profileFor sources user config = .ok profile

variable
  {sources : Sources}
  {user : String}
  {period : Period}

/-! ## What is gathered -/

theorem plannedConfig?_eq_some
    {config : Config}
    (found : plannedConfig? sources user = .ok (some config)) :
    sources.HasPlan user config := by
  unfold plannedConfig? at found
  cases answered : sources.config user with
  | error error => simp [answered, bind, Except.bind] at found
  | ok config? =>
      simp only [answered, bind, Except.bind, Except.ok.injEq,
        Option.filter_eq_some_iff, Bool.and_eq_true, decide_eq_true_eq]
        at found
      obtain ⟨rfl, isActive, planned⟩ := found
      exact ⟨answered, isActive, planned⟩

theorem plannedConfig?_of_hasPlan
    {config : Config}
    (hasPlan : sources.HasPlan user config) :
    plannedConfig? sources user = .ok (some config) := by
  simp [plannedConfig?, hasPlan.answered, bind, Except.bind, hasPlan.isActive,
    hasPlan.planned]

/--
What is gathered is nothing without a plan, and else what the sources answer.
-/
theorem answer_of_gather
    {gathered : Option (Config × Option Sales × Profile)}
    (gathers : gather sources user period = .ok gathered) :
    (gathered = none ∧ ∀ config, ¬ sources.HasPlan user config) ∨
      ∃ config sales? profile,
        gathered = some (config, sales?, profile) ∧
          sources.Answer user period config sales? profile := by
  unfold gather at gathers
  cases found : plannedConfig? sources user with
  | error error => simp [found, bind, Except.bind] at gathers
  | ok config? =>
      cases config? with
      | none =>
          simp only [found, bind, Except.bind, Except.ok.injEq] at gathers
          refine .inl ⟨gathers.symm, ?_⟩
          intro config hasPlan
          simp [plannedConfig?_of_hasPlan hasPlan] at found
      | some config =>
          cases sold : sources.sales user period with
          | error error => simp [found, sold, bind, Except.bind] at gathers
          | ok sales? =>
              cases known : profileFor sources user config with
              | error error =>
                  simp [found, sold, known, bind, Except.bind] at gathers
              | ok profile =>
                  simp only [found, sold, known, bind, Except.bind,
                    Except.ok.injEq] at gathers
                  exact
                    .inr ⟨config, sales?, profile, gathers.symm,
                      plannedConfig?_eq_some found, sold, known⟩

/--
Once the sources answer, the calculation is the payout of the configuration.
-/
theorem calculate_of_answer
    {config : Config}
    {sales? : Option Sales}
    {profile : Profile}
    (answer : sources.Answer user period config sales? profile)
    (cache : Cache) :
    (calculate sources user period cache).1 =
      .ok (config.payOut sales? profile cache).1 := by
  have gathers :
      gather sources user period = .ok (some (config, sales?, profile)) := by
    simp [gather, plannedConfig?_of_hasPlan answer.hasPlan, answer.sales,
      answer.profile, bind, Except.bind]
  simp [calculate, gathers]

/-- The sources do not answer in two ways. -/
theorem Sources.Answer.unique
    {config otherConfig : Config}
    {sales? otherSales? : Option Sales}
    {profile otherProfile : Profile}
    (answer : sources.Answer user period config sales? profile)
    (other :
      sources.Answer user period otherConfig otherSales? otherProfile) :
    otherConfig = config ∧ otherSales? = sales? ∧ otherProfile = profile := by
  have sameConfig : otherConfig = config := by
    simpa using other.hasPlan.answered.symm.trans answer.hasPlan.answered
  subst sameConfig
  refine ⟨rfl, ?_, ?_⟩
  · simpa using other.sales.symm.trans answer.sales
  · simpa using other.profile.symm.trans answer.profile

/-! ## What is paid -/

/--
Every payout of a calculation over a cache that a run leaves is at least
nothing, and nothing if there is an error.  There is an error exactly when the
user has an active plan that fails on the data; without one, what a plan pays
is its limited raw amount, which lies between the bounds.
-/
theorem calculate_fails_closed
    (sources : Sources)
    (user : String)
    (period : Period)
    (capacity : Nat)
    (commands : List CacheCommand)
    (collisionFree :
      ∀ config formula,
        sources.config user = .ok (some config) →
        config.formula? = some formula →
        CollisionFree (formula :: textsOf commands))
    {payout : Payout}
    (paid :
      (calculate sources user period
          ((Cache.ofCapacity capacity).run commands)).1 =
        .ok payout) :
    0 ≤ payout.amount ∧
      (payout.details.error ≠ none → payout.amount = 0) ∧
      (payout.details.error ≠ none ↔
        ∃ config sales? profile,
          sources.Answer user period config sales? profile ∧
            config.FailsOn (sales?.getD .none) profile) ∧
      (payout.details.error = none → payout.planType ≠ .noPlan →
        ∃ config raw,
          sources.HasPlan user config ∧
            payout.details.parameters = config.parameters ∧
            payout.details.rawAmount = some raw ∧
            raw.isFinite = true ∧
            payout.amount = config.parameters.limit raw ∧
            config.parameters.Admits payout.amount) := by
  unfold calculate at paid
  cases gathers : gather sources user period with
  | error error => simp [gathers] at paid
  | ok gathered =>
      rcases answer_of_gather gathers with
        ⟨rfl, hasNoPlan⟩ | ⟨config, sales?, profile, rfl, answer⟩
      · simp only [gathers, Except.ok.injEq] at paid
        subst paid
        refine ⟨by decide, fun _ => rfl, ⟨?_, ?_⟩, ?_⟩
        · intro hasError
          simp [Payout.noIncentive, Details.empty] at hasError
        · rintro ⟨config, sales?, profile, answer, -⟩
          exact absurd answer.hasPlan (hasNoPlan config)
        · intro _ planned
          exact absurd rfl planned
      · simp only [gathers, Except.ok.injEq] at paid
        subst paid
        have isRead :
            config.IsReadBy ((Cache.ofCapacity capacity).run commands) := by
          intro formula hasFormula
          exact
            (Cache.holdsTreesOf_run capacity commands).getOrParse_eq_parse
              (collisionFree config formula answer.hasPlan.answered hasFormula)
        have closed :=
          @Config.payOut_isClosed _ profile _ answer.hasPlan.planned
            isRead sales?
        refine ⟨closed.nonnegative, closed.nothingOnError, ?_, ?_⟩
        · rw [closed.error_iff]
          constructor
          · intro fails
            exact ⟨config, sales?, profile, answer, fails⟩
          · rintro ⟨other, otherSales?, otherProfile, otherAnswer, fails⟩
            obtain ⟨rfl, rfl, rfl⟩ := answer.unique otherAnswer
            exact fails
        · intro noError _
          obtain ⟨ofConfig, raw, limited⟩ := closed.limited noError
          exact ⟨config, raw, answer.hasPlan, ofConfig, limited⟩

/-- Sources for which every user has one configuration and sold nothing. -/
def Sources.ofConfig (config : Config) : Sources where
  config _ := .ok (some config)
  sales _ _ := .ok none
  profile _ := .ok .empty

/-- A plan that pays nought of the personal sales. -/
def noughtPercent : Config :=
  .active .personalPercent ⟨some .zero, none, none, none⟩ none

/-- They answer for an active plan, whatever the user and the period are. -/
theorem Sources.answer_ofConfig
    {config : Config}
    (isActive : config.isActive = true)
    (planned : config.planType ≠ .noPlan)
    (user : String)
    (period : Period) :
    (ofConfig config).Answer user period config none .empty where
  hasPlan := ⟨rfl, isActive, planned⟩
  sales := rfl
  profile := by simp [profileFor, ofConfig]

theorem payOut_noughtPercent (cache : Cache) :
    (noughtPercent.payOut none .empty cache).1.details.error = none := by
  have sound : noughtPercent.violations = [] := by decide +kernel
  have isFinite :
      ((Template.percent .personal .zero).rawAmount .none).isFinite = true := by
    decide +kernel
  obtain ⟨computed, -⟩ :=
    @Config.compute_template noughtPercent .none .empty cache
      (.percent .personal .zero) sound (by decide) (by decide) rfl
  have succeeded :
      (noughtPercent.compute (none.getD .none) .empty cache).1.outcome =
        .ok (noughtPercent.parameters.limit
          ((Template.percent .personal .zero).rawAmount .none)) := by
    rw [Option.getD_none, computed, Computation.ofTemplate,
      Config.settle_of_isFinite isFinite]
  exact (Config.payOut_of_ok succeeded).2.1

/-- A plan with a formula that ends too early. -/
def unfinishedFormula : Config :=
  .active .custom .empty (some "(")

theorem parse_openParenthesis :
    parse "(" = .error ⟨.unexpectedEnd .operand, 1⟩ := by
  have bounded : checkBounds "(" = .ok () := by rfl
  have nothing : scanFrom 1 [] = .ok [] := by simp [scanFrom]
  have scanned : tokenize "(" = .ok [⟨.leftParen, 0⟩] :=
    scanFrom_cons (by decide) rfl nothing
  have refused :
      parseTokens 1 [⟨.leftParen, 0⟩] =
        .error ⟨.unexpectedEnd .operand, 1⟩ := by
    cbv
  unfold parse
  rw [bounded, scanned]
  exact refused

theorem failsOn_unfinishedFormula :
    unfinishedFormula.FailsOn .none .empty := by
  have written : unfinishedFormula.formula? = some "(" := by decide
  have refused := parse_openParenthesis
  exact .inr (.inl ⟨rfl, "(", _, written, refused⟩)

/--
The two plans at work: one fails closed, and the other pays a finite amount.
-/
theorem calculate_fails_closed_ofConfig :
    (unfinishedFormula.payOut none .empty
        ((Cache.ofCapacity 1).run [.getOrParse "("])).1.amount = 0 ∧
      ∃ raw,
        (noughtPercent.payOut none .empty
            ((Cache.ofCapacity 1).run [])).1.details.rawAmount = some raw ∧
          raw.isFinite = true := by
  let period : Period := ⟨2024, 1, by decide, by decide, by decide⟩
  constructor
  · have answer :=
      @Sources.answer_ofConfig unfinishedFormula rfl (by decide) "ada" period
    have collisionFree :
        ∀ config formula,
          (Sources.ofConfig unfinishedFormula).config "ada" =
              .ok (some config) →
          config.formula? = some formula →
          CollisionFree (formula :: textsOf [.getOrParse "("]) := by
      intro config formula answered written
      obtain rfl : unfinishedFormula = config := by
        simpa [Sources.ofConfig] using answered
      have isOpening : formula = "(" := by
        have same : unfinishedFormula.formula? = some "(" := by decide
        simpa using written.symm.trans same
      subst isOpening
      intro left leftIsText right rightIsText _
      simp only [textsOf, CacheCommand.text?, List.filterMap_cons,
        List.filterMap_nil, List.mem_cons, List.not_mem_nil, or_false,
        or_self] at leftIsText rightIsText
      rw [leftIsText, rightIsText]
    have closed :=
      calculate_fails_closed (Sources.ofConfig unfinishedFormula) "ada" period
        1 [.getOrParse "("] collisionFree (calculate_of_answer answer _)
    apply closed.2.1
    rw [closed.2.2.1]
    exact ⟨_, none, .empty, answer, failsOn_unfinishedFormula⟩
  · have answer :=
      @Sources.answer_ofConfig noughtPercent rfl (by decide) "ada" period
    have collisionFree :
        ∀ config formula,
          (Sources.ofConfig noughtPercent).config "ada" = .ok (some config) →
          config.formula? = some formula →
          CollisionFree (formula :: textsOf []) := by
      intro config formula _ _ left leftIsText right rightIsText _
      simp only [textsOf, List.filterMap_nil, List.mem_singleton]
        at leftIsText rightIsText
      rw [leftIsText, rightIsText]
    have closed :=
      calculate_fails_closed (Sources.ofConfig noughtPercent) "ada" period 1 []
        collisionFree (calculate_of_answer answer _)
    have planned :
        (noughtPercent.payOut none .empty
          ((Cache.ofCapacity 1).run [])).1.planType ≠ .noPlan := by
      rw [Config.planType_payOut]
      decide
    obtain ⟨-, raw, -, -, recorded, isFinite, -⟩ :=
      closed.2.2.2 (payOut_noughtPercent _) planned
    exact ⟨raw, recorded, isFinite⟩

end IncentivePay
