import IncentivePay.Payout.Validation
import IncentivePay.Proofs.Payout.FailClosed
import IncentivePay.Proofs.Payout.TemplateBounds

/-!
# How a computation goes

`Config.ComputesTo` has one rule for each way that a computation can go and
mentions no cache: a rule of the configuration is violated, a template is run,
the formula cannot be read, or it has a value.  Every computation over a cache
that answers as the parser does follows one of the rules, so computations over
two such caches are the same, and a template never looks at the profile.
-/

namespace IncentivePay

open Formula

/-- The ways in which the computation of a configuration can go on some data. -/
inductive Config.ComputesTo
    (config : Config)
    (sales : Sales)
    (profile : Profile) :
    Computation →
    Prop
  | violating :
      config.violations ≠ [] →
      ComputesTo config sales profile
        (.stopped (.error (.invalidParameters config.violations)))
  | template {rule : Template} :
      config.violations = [] →
      config.planType ≠ .custom →
      Template.ofParameters config.planType config.parameters = .ok rule →
      ComputesTo config sales profile
        (.ofTemplate config.parameters rule sales)
  | unreadable {formula : String} {error : SyntaxError} :
      config.violations = [] →
      config.planType = .custom →
      config.formula? = some formula →
      parse formula = .error error →
      ComputesTo config sales profile
        ⟨none, some formula, none, .error (.unreadable error)⟩
  | formula {formula : String} {tree : Expr} {raw : Binary64} :
      config.violations = [] →
      config.planType = .custom →
      config.formula? = some formula →
      parse formula = .ok tree →
      evaluate tree (.ofRecords sales profile) = .ok raw →
      ComputesTo config sales profile
        ⟨none, some formula, some raw,
          Computation.settle config.parameters raw⟩

namespace Config

variable
  {config : Config}
  {sales : Sales}
  {profile : Profile}
  {cache : Cache}

/--
Over a cache that answers as the parser does, a computation goes one of the
ways.
-/
theorem computesTo_compute
    (planned : config.planType ≠ .noPlan)
    (isRead : config.planType = .custom → config.IsReadBy cache) :
    config.ComputesTo sales profile
      (config.compute sales profile cache).1 := by
  by_cases sound : config.violations = []
  · by_cases isCustom : config.planType = .custom
    · obtain ⟨formula, hasFormula⟩ := isSome_formula?_of_sound sound isCustom
      rw [compute_custom sound isCustom hasFormula (isRead isCustom)]
      cases parsed : parse formula with
      | error error => exact .unreadable sound isCustom hasFormula parsed
      | ok tree =>
          obtain ⟨raw, evaluated⟩ :=
            exists_evaluate_of_parse parsed
              (Bindings.bindsAll_ofRecords sales profile)
          simp only [Computation.ofFormula, evaluated]
          exact .formula sound isCustom hasFormula parsed evaluated
    · obtain ⟨rule, hasRule⟩ := exists_rule_of_sound sound isCustom planned
      rw [(compute_template sound isCustom planned hasRule).1]
      exact .template sound isCustom hasRule
  · rw [compute_of_violations sound]
    exact .violating sound

/-- The ways exclude each other. -/
theorem ComputesTo.unique
    {first second : Computation}
    (computesFirst : config.ComputesTo sales profile first)
    (computesSecond : config.ComputesTo sales profile second) :
    first = second := by
  cases computesFirst <;> cases computesSecond <;> simp_all

/-- A template makes the same of every profile. -/
theorem ComputesTo.of_not_custom
    {computation : Computation}
    (computes : config.ComputesTo sales profile computation)
    (notCustom : config.planType ≠ .custom)
    (other : Profile) :
    config.ComputesTo sales other computation := by
  cases computes with
  | violating broken => exact .violating broken
  | template sound notCustom hasRule => exact .template sound notCustom hasRule
  | unreadable sound isCustom hasFormula refused => contradiction
  | formula sound isCustom hasFormula parsed evaluated => contradiction

/--
The cache does not matter, nor does the profile unless there is a formula.
-/
theorem compute_congr
    {other : Cache}
    {otherProfile : Profile}
    (planned : config.planType ≠ .noPlan)
    (isRead : config.planType = .custom → config.IsReadBy cache)
    (isReadToo : config.planType = .custom → config.IsReadBy other)
    (sameProfile : config.planType = .custom → otherProfile = profile) :
    (config.compute sales otherProfile other).1 =
      (config.compute sales profile cache).1 := by
  have computes :
      config.ComputesTo sales profile (config.compute sales profile cache).1 :=
    computesTo_compute planned isRead
  have computesToo :
      config.ComputesTo sales otherProfile
        (config.compute sales otherProfile other).1 :=
    computesTo_compute planned isReadToo
  by_cases isCustom : config.planType = .custom
  · rw [sameProfile isCustom] at computesToo ⊢
    exact computesToo.unique computes
  · exact (computesToo.of_not_custom isCustom profile).unique computes

/--
A cache that a run leaves answers as the parser does, without a collision.
-/
theorem isReadBy_run
    {capacity : Nat}
    {commands : List CacheCommand}
    (collisionFree :
      ∀ formula,
        config.formula? = some formula →
        CollisionFree (formula :: textsOf commands)) :
    config.IsReadBy ((Cache.ofCapacity capacity).run commands) :=
  fun formula hasFormula =>
    (Cache.holdsTreesOf_run capacity commands).getOrParse_eq_parse
      (collisionFree formula hasFormula)

theorem isReadBy_run_of_formula
    {formula : String}
    {capacity : Nat}
    {commands : List CacheCommand}
    (hasFormula : config.formula? = some formula)
    (collisionFree : CollisionFree (formula :: textsOf commands)) :
    config.IsReadBy ((Cache.ofCapacity capacity).run commands) := by
  apply isReadBy_run
  intro other hasOther
  obtain rfl : formula = other := by
    simpa using hasFormula.symm.trans hasOther
  exact collisionFree

/-! ## Previews -/

/-- A preview is the computation with its details, or its error. -/
theorem simulate_eq
    (planned : config.planType ≠ .noPlan) :
    (config.simulate sales profile cache).1 =
      match (config.compute sales profile cache).1.outcome with
      | .ok amount =>
          .ok
            ⟨amount, config.planType,
              config.details sales profile
                (config.compute sales profile cache).1⟩
      | .error error => .error error := by
  simp only [simulate, if_neg planned]
  cases (config.compute sales profile cache).1.outcome <;> rfl

/-! ## What is left in the cache -/

/-- The formula of a configuration is one of some texts. -/
def HasFormulaIn
    (config : Config)
    (texts : List String) :
    Prop :=
  ∀ formula, config.formula? = some formula → formula ∈ texts

variable {texts : List String}

/--
A plan with a formula is that of a custom configuration, with its formula.
-/
theorem isCustom_of_plan
    {formula : String}
    (isPlan : config.plan = .ok (.custom formula)) :
    config.planType = .custom ∧ config.formula? = some formula := by
  unfold plan at isPlan
  split at isPlan
  · simp at isPlan
  · rename_i isCustom
    split at isPlan
    · rename_i other isFormula
      obtain rfl : other = formula := by simpa using isPlan
      exact ⟨isCustom, isFormula⟩
    · simp at isPlan
  · split at isPlan <;> simp at isPlan

theorem holdsTreesOf_compute
    (holds : cache.HoldsTreesOf texts)
    (hasFormula : config.planType = .custom → config.HasFormulaIn texts) :
    (config.compute sales profile cache).2.HoldsTreesOf texts := by
  unfold compute
  split
  · split
    · exact holds
    · exact holds
    · exact holds
    · rename_i formula isPlan
      obtain ⟨isCustom, isFormula⟩ := isCustom_of_plan isPlan
      exact holds.getOrParse (hasFormula isCustom formula isFormula)
  · exact holds

theorem holdsTreesOf_simulate
    (holds : cache.HoldsTreesOf texts)
    (hasFormula : config.HasFormulaIn texts) :
    (config.simulate sales profile cache).2.HoldsTreesOf texts := by
  have left :
      (config.compute sales profile cache).2.HoldsTreesOf texts :=
    holdsTreesOf_compute holds fun _ => hasFormula
  unfold simulate
  split
  · exact holds
  · dsimp only
    split <;> exact left

theorem holdsTreesOf_payOut
    (holds : cache.HoldsTreesOf texts)
    (hasFormula : config.planType = .custom → config.HasFormulaIn texts)
    (sales? : Option Sales) :
    (config.payOut sales? profile cache).2.HoldsTreesOf texts := by
  have left :
      (config.compute (sales?.getD .none) profile cache).2.HoldsTreesOf
        texts :=
    holdsTreesOf_compute holds hasFormula
  unfold payOut
  dsimp only
  split <;> exact left

theorem holdsTreesOf_validate
    (holds : cache.HoldsTreesOf texts)
    (hasFormula : config.HasFormulaIn texts) :
    (config.validate sales profile cache).2.HoldsTreesOf texts := by
  have left : (config.trial sales profile cache).2.HoldsTreesOf texts := by
    unfold trial
    split
    · exact holds
    · split
      · exact holds
      · rename_i formula isFormula
        exact holds.getOrParse (hasFormula formula isFormula)
    · split <;> exact holds
  exact left

end Config

end IncentivePay
