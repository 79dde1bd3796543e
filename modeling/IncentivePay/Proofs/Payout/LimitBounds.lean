import IncentivePay.Payout.Limits
import IncentivePay.Proofs.Payout.RuleViolations

/-!
# The bounds of an amount

The limits are said by places: the amount is the whole number below the raw
amount, once that is held between the bounds.  A configuration without a
violation has bounds that are numbers, not negative and in order, so its
amount lies between the whole numbers below them.
-/

namespace IncentivePay

/-! ## Parameters in their ranges -/

open Binary64

namespace Parameters

variable {parameters : Parameters}

theorem rate_between
    (nothing : parameters.rangeViolations = [])
    {rate : Binary64}
    (given : parameters.rate = some rate) :
    zero.isAtMost rate = true ∧ rate.isAtMost one = true := by
  rw [← Bool.and_eq_true, between_zero_and_one_iff]
  exact (parameters.rangeViolations_eq_nil_iff.1 nothing).rate rate given

theorem threshold_nonneg
    (nothing : parameters.rangeViolations = [])
    {threshold : Binary64}
    (given : parameters.threshold = some threshold) :
    zero.isAtMost threshold = true := by
  rw [zero_isAtMost_iff]
  exact
    (parameters.rangeViolations_eq_nil_iff.1 nothing).threshold threshold given

/--
The bounds that are given are not negative, and the least is not above the
most.
-/
structure HasOrderedBounds (parameters : Parameters) : Prop where
  minAmount : ∀ minAmount ∈ parameters.minAmount, minAmount.IsNonnegative
  maxAmount : ∀ maxAmount ∈ parameters.maxAmount, maxAmount.IsNonnegative
  inOrder :
    ∀ minAmount ∈ parameters.minAmount,
      ∀ maxAmount ∈ parameters.maxAmount, ¬ minAmount.Exceeds maxAmount

/-- The places of the bounds, which are in order. -/
structure BoundedBy
    (parameters : Parameters)
    (lower upper : Int) :
    Prop where
  lowerStands : parameters.lowerBound.place? = some lower
  upperStands : parameters.upperBound.place? = some upper
  nonnegative : 0 ≤ lower
  ordered : lower ≤ upper

theorem HasOrderedBounds.exists_boundedBy
    {parameters : Parameters}
    (ordered : parameters.HasOrderedBounds) :
    ∃ lower upper, parameters.BoundedBy lower upper := by
  obtain ⟨lower, lowerStands, nonnegative⟩ :
      parameters.lowerBound.IsNonnegative := by
    unfold lowerBound
    cases given : parameters.minAmount with
    | none => exact ⟨0, place?_zero, Int.le_refl _⟩
    | some minAmount => exact ordered.minAmount minAmount given
  obtain ⟨upper, upperStands, upperNonnegative⟩ :
      parameters.upperBound.IsNonnegative := by
    unfold upperBound
    cases given : parameters.maxAmount with
    | none => exact ⟨unitBound, place?_infinity, Int.natCast_nonneg _⟩
    | some maxAmount => exact ordered.maxAmount maxAmount given
  refine ⟨lower, upper, lowerStands, upperStands, nonnegative, ?_⟩
  cases minGiven : parameters.minAmount with
  | none =>
      -- Without a least amount, the lower bound is nought.
      rw [lowerBound, minGiven, Option.getD_none, place?_zero] at lowerStands
      have isNought := Option.some.inj lowerStands
      omega
  | some minAmount =>
      cases maxGiven : parameters.maxAmount with
      | none =>
          rw [upperBound, maxGiven, Option.getD_none, place?_infinity]
            at upperStands
          rw [← Option.some.inj upperStands]
          exact (place_bounds lowerStands).2
      | some maxAmount =>
          have notAbove := ordered.inOrder minAmount minGiven maxAmount maxGiven
          rw [lowerBound, minGiven, Option.getD_some] at lowerStands
          rw [upperBound, maxGiven, Option.getD_some] at upperStands
          exact
            Int.not_lt.1 fun above =>
              notAbove ⟨lower, upper, lowerStands, upperStands, above⟩

/-- The bounds of parameters in their ranges are numbers in order. -/
theorem exists_bounds (nothing : parameters.rangeViolations = []) :
    ∃ lower upper, parameters.BoundedBy lower upper := by
  have inRange := parameters.rangeViolations_eq_nil_iff.1 nothing
  have ordered : parameters.HasOrderedBounds :=
    ⟨inRange.minAmount, inRange.maxAmount, inRange.inOrder⟩
  exact ordered.exists_boundedBy

end Parameters

/-! ## The amount -/

theorem max_mul_zero_tdiv
    (whole : Int)
    {one : Nat}
    (positive : 0 < one) :
    (max (whole * one) 0).tdiv one = max whole 0 := by
  have positive : (0 : Int) < one := Int.natCast_pos.2 positive
  rcases Int.le_total 0 whole with nonnegative | negative
  · rw [Int.max_eq_left (Int.mul_nonneg nonnegative (Int.le_of_lt positive)),
      Int.max_eq_left nonnegative,
      Int.mul_tdiv_cancel _ (Int.ne_of_gt positive)]
  · rw [Int.max_eq_right
        (Int.mul_nonpos_of_nonpos_of_nonneg negative (Int.le_of_lt positive)),
      Int.max_eq_right negative, Int.zero_tdiv]

/-- The amount by places: held between the bounds, whole and not negative. -/
theorem Parameters.limit_of_places
    {parameters : Parameters}
    {raw : Binary64}
    {place lower upper : Int}
    (rawStands : raw.place? = some place)
    (lowerStands : parameters.lowerBound.place? = some lower)
    (upperStands : parameters.upperBound.place? = some upper) :
    parameters.limit raw =
      clampInt64
        (max (min (max place lower) upper / unitsPerOne) 0) := by
  have boundedStands :=
    place?_minPresent (place?_maxPresent rawStands lowerStands) upperStands
  have amountStands :=
    place?_maxPresent (place?_floor boundedStands) place?_zero
  unfold limit
  dsimp only
  rw [toInt64_of_place amountStands, max_mul_zero_tdiv _ unitsPerOne_pos]

/-- The whole number below a number, within sixty-four bits; a NaN has none. -/
def Binary64.wholeBelow? (value : Binary64) : Option Int64 :=
  value.place?.map fun place => clampInt64 (place / unitsPerOne)

/-- An amount lies between the whole numbers below the bounds. -/
def Parameters.Admits
    (parameters : Parameters)
    (amount : Int64) :
    Prop :=
  ∃ least most,
    parameters.lowerBound.wholeBelow? = some least ∧
      parameters.upperBound.wholeBelow? = some most ∧
      least ≤ amount ∧
      amount ≤ most

/-- The amount of a number lies between bounds that are in order. -/
theorem Parameters.admits_limit
    {parameters : Parameters}
    (nothing : parameters.rangeViolations = [])
    {raw : Binary64}
    {place : Int}
    (rawStands : raw.place? = some place) :
    parameters.Admits (parameters.limit raw) := by
  obtain ⟨lower, upper, lowerStands, upperStands, nonnegative, ordered⟩ :=
    exists_bounds nothing
  have positive := Binary64.unitsPerOne_cast_pos
  have aboveLower : lower ≤ min (max place lower) upper := by omega
  have belowUpper : min (max place lower) upper ≤ upper := Int.min_le_right _ _
  have wholeAboveLower := Int.ediv_le_ediv positive aboveLower
  have wholeBelowUpper := Int.ediv_le_ediv positive belowUpper
  have upperNonnegative : 0 ≤ upper / (unitsPerOne : Int) :=
    Int.ediv_nonneg (Int.le_trans nonnegative ordered) (Int.le_of_lt positive)
  rw [limit_of_places rawStands lowerStands upperStands]
  refine ⟨_, _, congrArg _ lowerStands, congrArg _ upperStands, ?_, ?_⟩
  · apply clampInt64_mono
    omega
  · apply clampInt64_mono
    omega

theorem Parameters.limit_nonneg
    {parameters : Parameters}
    (nothing : parameters.rangeViolations = [])
    {raw : Binary64}
    {place : Int}
    (rawStands : raw.place? = some place) :
    0 ≤ parameters.limit raw := by
  obtain ⟨lower, upper, lowerStands, upperStands, -, -⟩ :=
    exists_bounds nothing
  rw [limit_of_places rawStands lowerStands upperStands]
  have zero : clampInt64 0 = 0 := by decide
  rw [← zero]
  apply clampInt64_mono
  exact Int.le_max_right _ _

end IncentivePay
