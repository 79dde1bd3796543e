import IncentivePay.Payout.Validation
import IncentivePay.Proofs.Formula.Acceptance
import IncentivePay.Proofs.Formula.CacheContents
import IncentivePay.Proofs.Formula.EvaluationTotality
import IncentivePay.Proofs.Payout.ViolationKinds

/-!
# No evaluation error at run time

A formula that was parsed has a value on every sales record and profile, and a
cache holds nothing but parsed formulas, whatever the digests of their texts
are.  So neither a calculation nor the trial of a configuration ever ends in
an evaluation error.
-/

namespace IncentivePay

open Formula

/-! ## Nodes that are visited -/

namespace Formula

/-- The node of a parsed tree that is visited is not too deep. -/
theorem Visits.depth_lt_maxDepth_of_parse
    {bindings : Bindings}
    {depth : Nat}
    {tree : Expr}
    (visits : Visits bindings depth tree)
    {text : String}
    (parsed : parse text = .ok tree) :
    depth < maxDepth :=
  Nat.lt_of_lt_of_le visits.depth_lt_levels (levels_le_of_parse parsed)

/-- What a cache delivers has a value when every variable has one. -/
theorem Cache.HoldsTreesOf.exists_evaluate
    {texts : List String}
    {cache : Cache}
    (holds : cache.HoldsTreesOf texts)
    {text : String}
    {tree : Expr}
    (delivered : (cache.getOrParse text).1 = .ok tree)
    {bindings : Bindings}
    (bindsAll : bindings.BindsAll) :
    ∃ value, evaluate tree bindings = .ok value := by
  obtain ⟨other, -, -, parsed⟩ := holds.exists_of_getOrParse delivered
  exact exists_evaluate_of_parse parsed bindsAll

end Formula

/-! ## Calculations -/

theorem Config.plan_ne_evaluation
    (config : Config)
    (error : EvaluationError) :
    config.plan ≠ .error (.evaluation error) := by
  unfold Config.plan
  split
  · simp
  · split <;> simp
  · split <;> simp

/-- A calculation over a cache of parsed formulas has no evaluation error. -/
theorem Config.compute_ne_evaluation
    (config : Config)
    (sales : Sales)
    (profile : Profile)
    {texts : List String}
    {cache : Cache}
    (holds : cache.HoldsTreesOf texts)
    (error : EvaluationError) :
    (config.compute sales profile cache).1.outcome ≠
      .error (.evaluation error) := by
  unfold compute
  split
  · split
    · rename_i planError planned
      intro same
      obtain rfl := Except.error.inj same
      exact Config.plan_ne_evaluation config error planned
    · simp [Computation.stopped]
    · intro failed
      cases Computation.eq_nonFinite_of_settle failed
    · rename_i formula planned
      dsimp only
      cases delivered : (cache.getOrParse formula).1 with
      | error syntaxError => simp [Computation.ofFormula]
      | ok tree =>
          obtain ⟨value, evaluated⟩ :=
            holds.exists_evaluate delivered
              (Bindings.bindsAll_ofRecords sales profile)
          simp only [Computation.ofFormula, evaluated]
          intro failed
          cases Computation.eq_nonFinite_of_settle failed
  · simp [Computation.stopped]

/-! ## Trials -/

/-- The rules that are checked without a trial report no evaluation error. -/
theorem Config.evaluation_not_mem_violations
    (config : Config)
    (error : EvaluationError) :
    Violation.evaluation error ∉ config.violations := by
  intro member
  have notFailure := Config.not_isFormulaFailure_of_mem member
  simp [Violation.isFormulaFailure] at notFailure

/-- A trial over a cache of parsed formulas has no evaluation error. -/
theorem Config.trial_ne_evaluation
    (config : Config)
    (sales : Sales)
    (profile : Profile)
    {texts : List String}
    {cache : Cache}
    (holds : cache.HoldsTreesOf texts)
    (error : EvaluationError) :
    (config.trial sales profile cache).1 ≠ .error (.evaluation error) := by
  unfold trial
  split
  · simp
  · split
    · simp
    · rename_i formula written
      dsimp only
      cases delivered : (cache.getOrParse formula).1 with
      | error syntaxError => simp [tryFormula, Except.map]
      | ok tree =>
          obtain ⟨value, evaluated⟩ :=
            holds.exists_evaluate delivered
              (Bindings.bindsAll_ofRecords sales profile)
          simp only [tryFormula, evaluated]
          split <;> simp [Except.map]
  · split <;> simp

/-- A report over a cache of parsed formulas lists no evaluation error. -/
theorem Config.evaluation_not_mem_validate
    (config : Config)
    (sales : Sales)
    (profile : Profile)
    {texts : List String}
    {cache : Cache}
    (holds : cache.HoldsTreesOf texts)
    (error : EvaluationError) :
    Violation.evaluation error ∉
      (config.validate sales profile cache).1.violations := by
  have notChecked := config.evaluation_not_mem_violations error
  have notTried := config.trial_ne_evaluation sales profile holds error
  unfold validate
  dsimp only
  rw [List.mem_append, not_or]
  refine ⟨notChecked, ?_⟩
  cases tried : (config.trial sales profile cache).1 with
  | ok testResult => simp
  | error violation =>
      rintro member
      rw [List.mem_singleton] at member
      exact notTried (by rw [tried, member])

/-! ## Safety -/

/--
Whatever parses has a value on every record and profile and is nowhere too
deep, so no calculation, trial or report over any cache that a run leaves has
an evaluation error.
-/
theorem evaluation_safe :
    (∀ text tree sales profile,
      parse text = .ok tree →
      ∃ value, evaluate tree (.ofRecords sales profile) = .ok value) ∧
    (∀ text tree bindings depth,
      parse text = .ok tree →
      Visits bindings depth tree → depth < maxDepth) ∧
    (∀ (config : Config) sales profile capacity commands error,
      let cache := (Cache.ofCapacity capacity).run commands
      (config.compute sales profile cache).1.outcome ≠
          .error (.evaluation error) ∧
        (config.trial sales profile cache).1 ≠ .error (.evaluation error) ∧
        .evaluation error ∉
          (config.validate sales profile cache).1.violations) := by
  refine ⟨?_, ?_, ?_⟩
  · intro text tree sales profile parsed
    exact
      exists_evaluate_of_parse parsed
        (Bindings.bindsAll_ofRecords sales profile)
  · intro text tree bindings depth parsed visits
    exact visits.depth_lt_maxDepth_of_parse parsed
  · intro config sales profile capacity commands error cache
    have holds := Cache.holdsTreesOf_run capacity commands
    exact
      ⟨config.compute_ne_evaluation sales profile holds error,
        config.trial_ne_evaluation sales profile holds error,
        config.evaluation_not_mem_validate sales profile holds error⟩

/-- The formula `-(sales)` on no sales at all. -/
theorem evaluation_safe_negatedGroup :
    (∃ value,
      evaluate (.negate (.reference "sales")) (.ofRecords .none .empty) =
        .ok value) ∧
      1 < maxDepth := by
  have parsed := hasReading_negatedGroup.parse_eq_ok
  constructor
  · exact evaluation_safe.1 _ _ .none .empty parsed
  · exact
      evaluation_safe.2.1 _ _ (.ofRecords .none .empty) 1 parsed
        (.operand .root)

end IncentivePay
