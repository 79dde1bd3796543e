import IncentivePay.Proofs.Engine.Histories

/-!
# The lines of a batch

The users of a batch share one cache, and each of them finds in it what the
users before left there.  That is never more than trees of the formulas of
active plans and of texts that the cache has been asked for before, so it
decides nothing: the line of a user is the calculation for the user alone over
a new cache.  A batch is therefore a map over its users, and what one user's
sources or formula do shows on no line of another.
-/

namespace IncentivePay

open Formula

/-! ## The formulas of a batch -/

/-- The formula of the active plan of a user, if the plan is a formula. -/
def plannedFormula?
    (sources : Sources)
    (user : String) :
    Option String :=
  match plannedConfig? sources user with
  | .ok (some config) =>
      if config.planType = .custom then config.formula? else none
  | _ => none

/-- The formulas of the active plans of some users. -/
def plannedFormulas
    (sources : Sources)
    (users : List String) :
    List String :=
  users.filterMap (plannedFormula? sources)

variable
  {sources : Sources}
  {user : String}
  {users : List String}
  {period : Period}
  {cache : Cache}
  {texts : List String}

theorem plannedFormula?_of_hasPlan
    {config : Config}
    (hasPlan : sources.HasPlan user config)
    (isCustom : config.planType = .custom) :
    plannedFormula? sources user = config.formula? := by
  simp [plannedFormula?, plannedConfig?_of_hasPlan hasPlan, isCustom]

theorem hasFormulaIn_of_plannedFormulas
    (among : plannedFormulas sources users ⊆ texts)
    (isUser : user ∈ users)
    {config : Config}
    (hasPlan : sources.HasPlan user config)
    (isCustom : config.planType = .custom) :
    config.HasFormulaIn texts := by
  intro formula hasFormula
  apply among
  refine List.mem_filterMap.2 ⟨user, isUser, ?_⟩
  rw [plannedFormula?_of_hasPlan hasPlan isCustom, hasFormula]

/-! ## One line -/

/-- A cache of the texts answers to the plan of a user as a new cache does. -/
theorem calculate_eq_alone
    (holds : cache.HoldsTreesOf texts)
    (collisionFree : CollisionFree texts)
    (among : plannedFormulas sources users ⊆ texts)
    (isUser : user ∈ users)
    (capacity : Nat) :
    (calculate sources user period cache).1 =
      (calculate sources user period (.ofCapacity capacity)).1 := by
  have isRead
      {cache : Cache}
      (holds : cache.HoldsTreesOf texts) :
      ∀ config,
        sources.HasPlan user config →
        config.planType = .custom →
        config.IsReadBy cache := by
    intro config hasPlan isCustom formula hasFormula
    apply holds.getOrParse_eq_parse
    apply collisionFree.mono
    exact
      List.cons_subset.2
        ⟨hasFormulaIn_of_plannedFormulas among isUser hasPlan isCustom formula
            hasFormula,
          List.Subset.refl texts⟩
  exact
    calculate_eq_of_isRead (isRead holds)
      (isRead (Cache.holdsTreesOf_ofCapacity texts capacity))

/-! ## All lines -/

/-- One calculation after the other answers what each of them answers alone. -/
theorem calculateAll_eq_map
    (holds : cache.HoldsTreesOf texts)
    (collisionFree : CollisionFree texts)
    (among : plannedFormulas sources users ⊆ texts)
    (capacity : Nat) :
    (calculateAll sources period users cache).1 =
      users.map fun user =>
        ⟨user, (calculate sources user period (.ofCapacity capacity)).1⟩ := by
  induction users generalizing cache with
  | nil => rfl
  | cons user users ih =>
      have amongOthers : plannedFormulas sources users ⊆ texts :=
        List.Subset.trans
          (List.filterMap_subset _ (List.subset_cons_self user users)) among
      have left :
          (calculate sources user period cache).2.HoldsTreesOf texts :=
        holdsTreesOf_calculate holds fun _ =>
          hasFormulaIn_of_plannedFormulas among List.mem_cons_self
      calc
        (calculateAll sources period (user :: users) cache).1
        _ = ⟨user, (calculate sources user period cache).1⟩ ::
              (calculateAll sources period users
                (calculate sources user period cache).2).1 := rfl
        _ = _ := by
          rw [calculate_eq_alone holds collisionFree among
              List.mem_cons_self capacity,
            ih left amongOthers, List.map_cons]

/--
The lines of some users whose formulas share no digest, over the cache of a
run.
-/
theorem outcomes_calculateBatch
    {capacity : Nat}
    {commands : List CacheCommand}
    (collisionFree :
      CollisionFree (plannedFormulas sources users ++ textsOf commands))
    {listed : List String}
    (among : listed ⊆ users)
    (newCapacity : Nat) :
    (calculateBatch sources listed period
        ((Cache.ofCapacity capacity).run commands)).1.outcomes =
      listed.map fun user =>
        ⟨user, (calculate sources user period (.ofCapacity newCapacity)).1⟩ := by
  have holds :
      ((Cache.ofCapacity capacity).run commands).HoldsTreesOf
        (plannedFormulas sources users ++ textsOf commands) :=
    (Cache.holdsTreesOf_ofCapacity _ capacity).run commands
      fun _ named => List.mem_append_right _ named
  have amongFormulas :
      plannedFormulas sources listed ⊆
        plannedFormulas sources users ++ textsOf commands :=
    List.Subset.trans (List.filterMap_subset _ among)
      (List.subset_append_left _ _)
  exact calculateAll_eq_map holds collisionFree amongFormulas newCapacity

namespace Outcome

/-- Every line of a map is that of its own user. -/
theorem result_eq_of_mem_map
    {results : String → Except SourceError Payout}
    {outcome : Outcome}
    (member : outcome ∈ users.map fun user => ⟨user, results user⟩) :
    outcome.result = results outcome.user := by
  obtain ⟨user, -, rfl⟩ := List.mem_map.1 member
  rfl

/--
A line has the payout of its calculation, or else only the error of the
source.
-/
theorem shows_result (outcome : Outcome) :
    (∃ payout,
      outcome.result = .ok payout ∧
        outcome.payout? = some payout ∧
        outcome.error? = none) ∨
    (∃ error,
      outcome.result = .error error ∧
        outcome.payout? = none ∧
        outcome.error? = some (EngineError.source error).message) := by
  obtain ⟨user, result⟩ := outcome
  cases result with
  | ok payout => exact .inl ⟨payout, rfl, rfl, rfl⟩
  | error error => exact .inr ⟨error, rfl, rfl, rfl⟩

theorem payout?_eq_some_iff
    (outcome : Outcome)
    {payout : Payout} :
    outcome.payout? = some payout ↔ outcome.result = .ok payout := by
  obtain ⟨user, result⟩ := outcome
  cases result <;> simp [payout?]

theorem needsReview_iff (outcome : Outcome) :
    outcome.needsReview = true ↔
      (∃ error, outcome.result = .error error) ∨
        ∃ payout,
          outcome.result = .ok payout ∧ payout.details.error ≠ none := by
  obtain ⟨user, result⟩ := outcome
  cases result with
  | ok payout =>
      simp [needsReview, Payout.isFailedClosed, Option.isSome_iff_ne_none]
  | error error => simp [needsReview]

end Outcome

theorem Batch.calculatedCount_add_reviewCount (batch : Batch) :
    batch.calculatedCount + batch.reviewCount = batch.outcomes.length := by
  unfold calculatedCount reviewCount
  rw [Nat.add_comm, List.length_eq_countP_add_countP Outcome.needsReview]
  simp

/--
A batch over any cache that a run leaves is the list of the calculations of its
users, each alone over a new cache, as long as no two texts in use have the
same digest.  A line shows the payout, or else the error of the first source
that failed, and needs a review exactly when a source failed or the payout
failed closed.  So a batch of two lists in a row is the one after the other, a
batch in another order has the same lines in that order, and sources that
differ on some users differ on the lines of these users only.
-/
theorem calculateBatch_exact
    (sources : Sources)
    (users : List String)
    (period : Period)
    (capacity newCapacity : Nat)
    (commands : List CacheCommand)
    (collisionFree :
      CollisionFree (plannedFormulas sources users ++ textsOf commands)) :
    let cache := (Cache.ofCapacity capacity).run commands
    let alone (user : String) :=
      (calculate sources user period (.ofCapacity newCapacity)).1
    let batch := (calculateBatch sources users period cache).1
    batch.outcomes = users.map (fun user => ⟨user, alone user⟩) ∧
      (∀ outcome ∈ batch.outcomes,
        (∃ payout,
          alone outcome.user = .ok payout ∧
            outcome.payout? = some payout ∧
            outcome.error? = none) ∨
        (∃ error,
          sources.FailsFirst outcome.user period error ∧
            outcome.payout? = none ∧
            outcome.error? = some (EngineError.source error).message)) ∧
      (∀ outcome ∈ batch.outcomes,
        outcome.needsReview = true ↔
          (∃ error, sources.FailsFirst outcome.user period error) ∨
            ∃ payout,
              outcome.payout? = some payout ∧ payout.details.error ≠ none) ∧
      batch.calculatedCount + batch.reviewCount = batch.outcomes.length ∧
      (∀ earlier later,
        users = earlier ++ later →
        batch.outcomes =
          (calculateBatch sources earlier period cache).1.outcomes ++
            (calculateBatch sources later period cache).1.outcomes) ∧
      (∀ others,
        users.Perm others →
        batch.outcomes.Perm
          (calculateBatch sources others period cache).1.outcomes) ∧
      (∀ other : Sources,
        CollisionFree (plannedFormulas other users ++ textsOf commands) →
        ∀ (index : Nat) (user : String),
          users[index]? = some user →
          sources.AgreesOn other user period →
          batch.outcomes[index]? =
            (calculateBatch other users period cache).1.outcomes[index]?) := by
  intro cache alone batch
  have lines : batch.outcomes = users.map fun user => ⟨user, alone user⟩ :=
    outcomes_calculateBatch collisionFree (List.Subset.refl users) newCapacity
  have isLine {outcome : Outcome} (member : outcome ∈ batch.outcomes) :
      outcome.result = alone outcome.user :=
    Outcome.result_eq_of_mem_map (lines ▸ member)
  refine ⟨lines, ?_, ?_, batch.calculatedCount_add_reviewCount, ?_, ?_, ?_⟩
  · intro outcome member
    rcases outcome.shows_result with
      ⟨payout, paid, shown⟩ | ⟨error, failed, shown⟩
    · exact .inl ⟨payout, (isLine member).symm.trans paid, shown⟩
    · rw [isLine member] at failed
      exact .inr ⟨error, (calculate_eq_error_iff _ error).1 failed, shown⟩
  · intro outcome member
    simp only [outcome.needsReview_iff, ← outcome.payout?_eq_some_iff,
      ← calculate_eq_error_iff (.ofCapacity newCapacity)]
    rw [isLine member]
  · rintro earlier later rfl
    rw [lines,
      outcomes_calculateBatch collisionFree (List.subset_append_left _ _)
        newCapacity,
      outcomes_calculateBatch collisionFree (List.subset_append_right _ _)
        newCapacity,
      List.map_append]
  · intro others permuted
    rw [lines,
      outcomes_calculateBatch collisionFree permuted.symm.subset newCapacity]
    exact permuted.map _
  · intro other otherCollisionFree index user isAt agrees
    rw [lines,
      outcomes_calculateBatch otherCollisionFree (List.Subset.refl users)
        newCapacity,
      List.getElem?_map, List.getElem?_map, isAt]
    simp only [Option.map_some, alone, calculate, gather_congr agrees]

/-- The plan with the unfinished formula, with one profile out of reach. -/
def withoutProfileOf (user : String) : Sources :=
  { Sources.ofConfig unfinishedFormula with
    profile := fun other =>
      if other = user then .error (.unavailable "no connection")
      else .ok .empty }

/-- The failure of one source shows on one line, between two that are alike. -/
theorem calculateBatch_exact_withoutProfile :
    let period : Period := ⟨2024, 1, by decide, by decide, by decide⟩
    let payout := (unfinishedFormula.payOut none .empty (.ofCapacity 1)).1
    (calculateBatch (withoutProfileOf "bob") ["ada", "bob", "ada"] period
        ((Cache.ofCapacity 1).run [.getOrParse "("])).1.outcomes =
      [⟨"ada", .ok payout⟩, ⟨"bob", .error (.unavailable "no connection")⟩,
        ⟨"ada", .ok payout⟩] := by
  intro period payout
  have collisionFree :
      CollisionFree
        (plannedFormulas (withoutProfileOf "bob") ["ada", "bob", "ada"] ++
          textsOf [.getOrParse "("]) :=
    @CollisionFree.of_all_eq _ "(" (by decide)
  exact
    (calculateBatch_exact (withoutProfileOf "bob") ["ada", "bob", "ada"]
      period 1 1 [.getOrParse "("] collisionFree).1.trans rfl

end IncentivePay
