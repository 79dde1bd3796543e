import IncentivePay.Proofs.Binary64.ExactValues
import IncentivePay.Proofs.Payout.LimitBounds

/-!
# Limits are an exact clamp and floor

With bounds that are numbers, not negative and in order, the limits make of a
raw amount the whole number below its exact value, once this is held between
the exact values of the bounds, and saturate at the end of sixty-four bits.
From this the rest follows: the amount lies between the whole numbers below
the bounds, it grows with the raw amount and with either bound, and an amount
read as a number again is its own amount.
-/

namespace IncentivePay

open Binary64

namespace Parameters

/-- A NaN counts as the lower bound. -/
theorem limit_nan (parameters : Parameters) :
    parameters.limit .nan = parameters.limit parameters.lowerBound := by
  have same :
      parameters.lowerBound.maxPresent parameters.lowerBound =
        parameters.lowerBound := by
    unfold maxPresent
    split <;> simp
  simp only [limit, maxPresent_nan_left, same]

namespace BoundedBy

variable
  {parameters other : Parameters}
  {raw otherRaw : Binary64}
  {lower upper otherLower otherUpper : Int}

/--
The amount is the whole number below a raw amount that is held between the
bounds; a NaN stands at the lower one.
-/
theorem limit_eq
    (bounded : parameters.BoundedBy lower upper)
    (raw : Binary64) :
    parameters.limit raw =
      clampInt64
        (min (max (raw.place?.getD lower) lower) upper / unitsPerOne) := by
  have ofPlace {value : Binary64} {place : Int}
      (stands : value.place? = some place) :
      parameters.limit value =
        clampInt64 (min (max place lower) upper / unitsPerOne) := by
    have held : 0 ≤ min (max place lower) upper := by
      have := bounded.nonnegative
      have := bounded.ordered
      omega
    have whole : 0 ≤ min (max place lower) upper / (unitsPerOne : Int) :=
      Int.ediv_nonneg held (Int.le_of_lt unitsPerOne_cast_pos)
    rw [limit_of_places stands bounded.lowerStands bounded.upperStands,
      Int.max_eq_left whole]
  cases raw with
  | nan => exact (limit_nan _).trans (ofPlace bounded.lowerStands)
  | infinite negative => exact ofPlace rfl
  | finite negative units representable => exact ofPlace rfl

/-- Amounts keep the order of the raw amounts, and that of either bound. -/
theorem limit_le_limit
    (bounded : parameters.BoundedBy lower upper)
    (otherBounded : other.BoundedBy otherLower otherUpper)
    (lowerOrdered : lower ≤ otherLower)
    (upperOrdered : upper ≤ otherUpper)
    (rawOrdered :
      raw.place?.getD lower ≤ otherRaw.place?.getD otherLower) :
    parameters.limit raw ≤ other.limit otherRaw := by
  rw [bounded.limit_eq, otherBounded.limit_eq]
  apply clampInt64_mono
  apply Int.ediv_le_ediv unitsPerOne_cast_pos
  omega

/-- The amount by exact values. -/
theorem toInt_limit
    (bounded : parameters.BoundedBy lower upper)
    {value : WithBotTop ℚ}
    (hasValue : raw.exactValue? = some value) :
    (parameters.limit raw).toInt =
      wholeWithin64 (min (max value (valueAt lower)) (valueAt upper)) := by
  rw [exactValue?_eq] at hasValue
  obtain ⟨place, stands, rfl⟩ := Option.map_eq_some_iff.1 hasValue
  have monotone : Monotone valueAt := fun _ _ => valueAt_mono
  rw [bounded.limit_eq, stands, Option.getD_some, toInt_clampInt64_ediv,
    monotone.map_min, monotone.map_max]

/-- An amount lies between the whole numbers below the bounds. -/
theorem toInt_limit_between
    (bounded : parameters.BoundedBy lower upper)
    (raw : Binary64) :
    0 ≤ parameters.limit raw ∧
      wholeWithin64 (valueAt lower) ≤ (parameters.limit raw).toInt ∧
      (parameters.limit raw).toInt ≤ wholeWithin64 (valueAt upper) := by
  have positive := unitsPerOne_cast_pos
  have zero : clampInt64 (0 / unitsPerOne) = 0 := by
    rw [Int.zero_ediv]
    decide
  have nonnegative := bounded.nonnegative
  have ordered := bounded.ordered
  rw [← toInt_clampInt64_ediv, ← toInt_clampInt64_ediv,
    ← Int64.le_iff_toInt_le, ← Int64.le_iff_toInt_le, ← zero,
    bounded.limit_eq]
  refine ⟨?_, ?_, ?_⟩ <;>
    · apply clampInt64_mono
      apply Int.ediv_le_ediv positive
      omega

/-- Amounts keep the order of the raw amounts. -/
theorem limit_mono
    (bounded : parameters.BoundedBy lower upper)
    (atMost : raw.isAtMost otherRaw = true) :
    parameters.limit raw ≤ parameters.limit otherRaw := by
  obtain ⟨place, otherPlace, stands, otherStands, ordered⟩ :=
    exists_places_of_isAtMost atMost
  apply
    bounded.limit_le_limit bounded (Int.le_refl _) (Int.le_refl _)
  rw [stands, otherStands]
  exact ordered

/-- Amounts keep the order of the lower bounds. -/
theorem limit_mono_lower
    (bounded : parameters.BoundedBy lower upper)
    (otherOrdered : other.HasOrderedBounds)
    (sameUpper : other.upperBound = parameters.upperBound)
    (atMost : parameters.lowerBound.isAtMost other.lowerBound = true) :
    parameters.limit raw ≤ other.limit raw := by
  obtain ⟨otherLower, otherUpper, otherBounded⟩ :=
    otherOrdered.exists_boundedBy
  have isUpper := otherBounded.upperStands
  rw [sameUpper, bounded.upperStands] at isUpper
  have lowerOrdered : lower ≤ otherLower := by
    rw [isAtMost_of_places bounded.lowerStands otherBounded.lowerStands]
      at atMost
    exact of_decide_eq_true atMost
  apply
    bounded.limit_le_limit otherBounded lowerOrdered
      (Int.le_of_eq (Option.some.inj isUpper))
  cases raw.place? with
  | none => exact lowerOrdered
  | some place => exact Int.le_refl _

/-- Amounts keep the order of the upper bounds. -/
theorem limit_mono_upper
    (bounded : parameters.BoundedBy lower upper)
    (otherOrdered : other.HasOrderedBounds)
    (sameLower : other.lowerBound = parameters.lowerBound)
    (atMost : parameters.upperBound.isAtMost other.upperBound = true) :
    parameters.limit raw ≤ other.limit raw := by
  obtain ⟨otherLower, otherUpper, otherBounded⟩ :=
    otherOrdered.exists_boundedBy
  have isLower := otherBounded.lowerStands
  rw [sameLower, bounded.lowerStands] at isLower
  have upperOrdered : upper ≤ otherUpper := by
    rw [isAtMost_of_places bounded.upperStands otherBounded.upperStands]
      at atMost
    exact of_decide_eq_true atMost
  obtain rfl := Option.some.inj isLower
  exact
    bounded.limit_le_limit otherBounded (Int.le_refl _) upperOrdered
      (Int.le_refl _)

/-- Beyond the bounds the amounts are those of the bounds. -/
theorem limit_infinite
    (bounded : parameters.BoundedBy lower upper) :
    parameters.limit (.infinite true) =
        parameters.limit parameters.lowerBound ∧
      parameters.limit .infinity = parameters.limit parameters.upperBound := by
  have belowLower := (place_bounds bounded.lowerStands).1
  have aboveUpper := (place_bounds bounded.upperStands).2
  have ordered := bounded.ordered
  have heldBelow :
      min (max (-(unitBound : Int)) lower) upper =
        min (max lower lower) upper := by
    omega
  have heldAbove :
      min (max (unitBound : Int) lower) upper =
        min (max upper lower) upper := by
    omega
  constructor
  · rw [bounded.limit_eq, bounded.limit_eq, bounded.lowerStands, place?,
      signedUnits, if_pos rfl, Option.getD_some, Option.getD_some, heldBelow]
  · rw [bounded.limit_eq, bounded.limit_eq, bounded.upperStands,
      place?_infinity, Option.getD_some, Option.getD_some, heldAbove]

/-! ## An amount that is limited again -/

/-- What is held between the bounds is the place of some number. -/
theorem exists_held
    (bounded : parameters.BoundedBy lower upper)
    (raw : Binary64) :
    ∃ held : Binary64,
      held.place? =
        some (min (max (raw.place?.getD lower) lower) upper) := by
  cases stands : raw.place? with
  | none =>
      refine ⟨parameters.lowerBound, ?_⟩
      rw [bounded.lowerStands, Option.getD_none, Int.max_self,
        Int.min_eq_left bounded.ordered]
  | some place =>
      exact
        ⟨_, place?_minPresent (place?_maxPresent stands bounded.lowerStands)
          bounded.upperStands⟩

/-- A number whose whole part lies between the bounds has that whole part. -/
theorem limit_of_whole
    (bounded : parameters.BoundedBy lower upper)
    {held : Int}
    (notLess : lower ≤ held)
    (notMore : held ≤ upper)
    {value : Binary64}
    (stands :
      value.place? = some (held / unitsPerOne * unitsPerOne)) :
    parameters.limit value = clampInt64 (held / unitsPerOne) := by
  have positive := unitsPerOne_cast_pos
  have below : held / unitsPerOne * unitsPerOne ≤ held :=
    Int.ediv_mul_le held (Int.ne_of_gt positive)
  have above : held < (held / unitsPerOne + 1) * unitsPerOne :=
    Int.lt_ediv_add_one_mul_self held positive
  rw [bounded.limit_eq, stands, Option.getD_some]
  generalize held / (unitsPerOne : Int) = whole at *
  congr 1
  -- The bounds may cut the whole part off, but only to a number above it.
  apply Int.le_antisymm
  · apply Int.le_of_lt_add_one
    apply Int.ediv_lt_of_lt_mul positive
    omega
  · apply (Int.le_ediv_iff_mul_le positive).2
    omega

/-- An amount that is read as a number is its own amount. -/
theorem limit_limit
    (bounded : parameters.BoundedBy lower upper)
    (raw : Binary64) :
    parameters.limit (ofInt (parameters.limit raw).toInt) =
      parameters.limit raw := by
  have positive := unitsPerOne_cast_pos
  have most : Int64.maxValue.toInt = 2 ^ 63 - 1 := Int64.toInt_maxValue
  have least : Int64.minValue.toInt = -2 ^ 63 := Int64.toInt_minValue
  obtain ⟨value, stands⟩ := bounded.exists_held raw
  have amount := bounded.limit_eq raw
  have notLess :
      lower ≤ min (max (raw.place?.getD lower) lower) upper := by
    have := bounded.ordered
    omega
  have notMore :
      min (max (raw.place?.getD lower) lower) upper ≤ upper :=
    Int.min_le_right _ _
  generalize min (max (raw.place?.getD lower) lower) upper = held at *
  have nonnegative : 0 ≤ held := Int.le_trans bounded.nonnegative notLess
  have wholeNonnegative : 0 ≤ held / (unitsPerOne : Int) :=
    Int.ediv_nonneg nonnegative (Int.le_of_lt positive)
  by_cases within : held / (unitsPerOne : Int) < 2 ^ 63
  · have isWhole : (parameters.limit raw).toInt = held / unitsPerOne := by
      rw [amount, toInt_clampInt64]
      omega
    rw [isWhole, amount]
    exact
      bounded.limit_of_whole notLess notMore
        (place?_ofInt_ediv stands nonnegative within)
  · -- The amount is the largest one, and so is that of the next power of two.
    have isMost : parameters.limit raw = Int64.maxValue := by
      apply Int64.toInt_inj.1
      rw [amount, toInt_clampInt64]
      omega
    have reaches : 2 ^ 63 * (unitsPerOne : Int) ≤ upper := by
      apply Int.le_trans _ notMore
      exact (Int.le_ediv_iff_mul_le positive).1 (Int.not_lt.1 within)
    rw [isMost, bounded.limit_eq, place?_ofInt_maxValue, Option.getD_some]
    have whole :
        2 ^ 63 ≤
          min (max (2 ^ 63 * (unitsPerOne : Int)) lower) upper /
            unitsPerOne := by
      apply (Int.le_ediv_iff_mul_le positive).2
      omega
    apply Int64.toInt_inj.1
    rw [toInt_clampInt64]
    omega

end BoundedBy

/--
Where the bounds that are given are not negative and in order, the limits make
of every raw amount but a NaN the whole number below its exact value, held
between the exact values of the bounds, and saturate.  A NaN and the negative
infinity have the amount of the lower bound, the positive infinity that of the
upper one.  The amount is at least nought and lies between the whole numbers
below the bounds; it grows with the raw amount and with either bound; and read
as a number again, which may be rounded, it is its own amount.
-/
theorem limit_exact
    {parameters : Parameters}
    (ordered : parameters.HasOrderedBounds) :
    ∃ lower upper : WithBotTop ℚ,
      parameters.lowerBound.exactValue? = some lower ∧
        parameters.upperBound.exactValue? = some upper ∧
        ((0 : ℚ) : WithBotTop ℚ) ≤ lower ∧
        lower ≤ upper ∧
        (∀ raw value,
          raw.exactValue? = some value →
          (parameters.limit raw).toInt =
            wholeWithin64 (min (max value lower) upper)) ∧
        parameters.limit .nan = parameters.limit parameters.lowerBound ∧
        parameters.limit (.infinite true) =
          parameters.limit parameters.lowerBound ∧
        parameters.limit .infinity = parameters.limit parameters.upperBound ∧
        (∀ raw,
          0 ≤ parameters.limit raw ∧
            wholeWithin64 lower ≤ (parameters.limit raw).toInt ∧
            (parameters.limit raw).toInt ≤ wholeWithin64 upper) ∧
        (∀ raw larger,
          raw.isAtMost larger = true →
          parameters.limit raw ≤ parameters.limit larger) ∧
        (∀ minAmount raw,
          let raised := { parameters with minAmount := minAmount }
          raised.HasOrderedBounds →
          parameters.lowerBound.isAtMost raised.lowerBound = true →
          parameters.limit raw ≤ raised.limit raw) ∧
        (∀ maxAmount raw,
          let raised := { parameters with maxAmount := maxAmount }
          raised.HasOrderedBounds →
          parameters.upperBound.isAtMost raised.upperBound = true →
          parameters.limit raw ≤ raised.limit raw) ∧
        (∀ raw,
          parameters.limit (ofInt (parameters.limit raw).toInt) =
            parameters.limit raw) := by
  obtain ⟨lower, upper, bounded⟩ := ordered.exists_boundedBy
  have lowerValue : parameters.lowerBound.exactValue? = some (valueAt lower) := by
    rw [exactValue?_eq, bounded.lowerStands, Option.map_some]
  have upperValue : parameters.upperBound.exactValue? = some (valueAt upper) := by
    rw [exactValue?_eq, bounded.upperStands, Option.map_some]
  have nonnegative : ((0 : ℚ) : WithBotTop ℚ) ≤ valueAt lower := by
    rw [← valueAt_zero]
    exact valueAt_mono bounded.nonnegative
  have inOrder : valueAt lower ≤ valueAt upper := valueAt_mono bounded.ordered
  obtain ⟨belowAll, aboveAll⟩ := bounded.limit_infinite
  exact
    ⟨valueAt lower, valueAt upper, lowerValue, upperValue, nonnegative,
      inOrder, fun raw value hasValue => bounded.toInt_limit hasValue,
      parameters.limit_nan, belowAll, aboveAll, bounded.toInt_limit_between,
      fun raw larger atMost => bounded.limit_mono atMost,
      fun minAmount raw raised atMost =>
        bounded.limit_mono_lower raised rfl atMost,
      fun maxAmount raw raised atMost =>
        bounded.limit_mono_upper raised rfl atMost,
      bounded.limit_limit⟩

/-- At least one half, and nothing above infinity. -/
def halfAtLeast : Parameters :=
  ⟨none, none, some .half, some .infinity⟩

/-- A half and a NaN are paid nothing, and infinity the largest amount. -/
theorem limit_exact_halfAtLeast :
    halfAtLeast.HasOrderedBounds ∧
      (halfAtLeast.limit .half).toInt = 0 ∧
      halfAtLeast.limit .nan = halfAtLeast.limit halfAtLeast.lowerBound ∧
      halfAtLeast.limit
          (ofInt (halfAtLeast.limit .infinity).toInt) =
        Int64.maxValue := by
  have isLeast {minAmount : Binary64}
      (given : minAmount ∈ halfAtLeast.minAmount) :
      half = minAmount :=
    Option.some.inj given
  have isMost {maxAmount : Binary64}
      (given : maxAmount ∈ halfAtLeast.maxAmount) :
      infinity = maxAmount :=
    Option.some.inj given
  have ordered : halfAtLeast.HasOrderedBounds :=
    { minAmount := fun minAmount given =>
        exists_place_of_zero_isAtMost
          (by rw [← isLeast given]; decide +kernel)
      maxAmount := fun maxAmount given =>
        exists_place_of_zero_isAtMost
          (by rw [← isMost given]; decide +kernel)
      inOrder := by
        intro minAmount least maxAmount most
        rw [← isLeast least, ← isMost most]
        rintro ⟨place, other, stands, otherStands, above⟩
        have notLess : infinity.isLess half = false := by decide +kernel
        rw [isLess_of_places otherStands stands] at notLess
        exact of_decide_eq_false notLess above }
  obtain ⟨lower, upper, -, -, -, -, -, ofNaN, -, -, -, -, -, -, again⟩ :=
    limit_exact ordered
  refine ⟨ordered, by decide +kernel, ofNaN, ?_⟩
  rw [again]
  decide +kernel

end Parameters

end IncentivePay
