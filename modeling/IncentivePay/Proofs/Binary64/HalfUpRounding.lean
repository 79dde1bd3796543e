import IncentivePay.Proofs.Binary64.ExactValues
import IncentivePay.Proofs.Binary64.Monotonicity

/-!
# Rounding halves up is exact

`roundHalfUp` computes with two rounded operations, and neither of them shows.
The fraction of a number is rounded only where the number is negative and small,
and there both the fraction and its rounding are at least a half; a fraction
below a half belongs to the format.  One is added only to whole numbers of at
most fifty-two binary digits, so that the sum belongs to the format as well.
What is delivered is therefore the whole number below the exact value and a
half.
-/

namespace IncentivePay

attribute [local instance (2000)] instPowNat

/-! ## Results that are not rounded -/

/-- A magnitude of the format is rounded to itself, with either sign. -/
theorem roundedPlace_of_representable
    {exact : Int}
    (representable : Representable exact.natAbs) :
    roundedPlace exact 1 = exact := by
  have below := representable.below
  have kept := nearestUnits_of_aligned representable.aligned
  rcases Int.le_total 0 exact with nonnegative | nonpositive
  · rw [roundedPlace_of_nonneg nonnegative, kept]
    omega
  · rw [roundedPlace_of_nonpos nonpositive, kept]
    omega

/--
A number below a bound that is a multiple of a spacing belongs to the format.
-/
theorem representable_of_dvd
    {units exponent : Nat}
    (multiple : 2 ^ exponent ∣ units)
    (below : units < 2 ^ (53 + exponent))
    (small : 53 + exponent ≤ 2098) :
    Representable units := by
  obtain ⟨significand, rfl⟩ := multiple
  have fewDigits : significand < 2 ^ (53 : Nat) := by
    rw [Nat.pow_add, Nat.mul_comm] at below
    exact Nat.lt_of_mul_lt_mul_right below
  rw [Nat.mul_comm] at below ⊢
  constructor
  · unfold unitBound
    apply Nat.lt_of_lt_of_le below
    apply Nat.pow_le_pow_right (by decide)
    exact small
  · exact aligned_mul_two_pow exponent (Nat.le_of_lt fewDigits)

namespace Binary64

/-- The number of units in a half. -/
def unitsPerHalf : Nat := 2 ^ (1073 : Nat)

theorem unitsPerOne_eq_two_halves : unitsPerOne = 2 * unitsPerHalf := by
  have doubled : 2 ^ (1074 : Nat) = 2 ^ (1 : Nat) * 2 ^ (1073 : Nat) := by
    apply two_pow_of_add
    rfl
  unfold unitsPerOne unitsPerHalf
  rw [doubled, Nat.pow_one]

theorem unitsPerHalf_pos : 0 < unitsPerHalf := by
  simp only [unitsPerHalf, Nat.two_pow_pos]

theorem representable_unitsPerHalf : Representable unitsPerHalf := by
  unfold unitsPerHalf
  apply representable_of_dvd (Nat.dvd_refl _)
  · apply Nat.pow_lt_pow_right <;> decide
  · decide

theorem place?_half : half.place? = some (unitsPerHalf : Int) := by
  have isHalf : unitsPerOne / 2 = unitsPerHalf := by
    rw [unitsPerOne_eq_two_halves]
    omega
  rw [half, isHalf, ofUnits_of_representable false representable_unitsPerHalf]
  rfl

/-! ## The fraction of a number -/

section Fraction

variable
  {value : Binary64}
  {place : Int}

theorem representable_of_isFinite
    (isFinite : value.isFinite = true)
    (stands : value.place? = some place) :
    Representable place.natAbs := by
  cases value with
  | nan | infinite => simp [Binary64.isFinite] at isFinite
  | finite negative units representable =>
      obtain rfl := Option.some.inj stands
      rwa [natAbs_signedUnits]

theorem isFinite_of_place
    (stands : value.place? = some place)
    (below : place.natAbs < unitBound) :
    value.isFinite = true := by
  cases value with
  | nan => simp [place?] at stands
  | infinite negative =>
      obtain rfl := Option.some.inj stands
      rw [natAbs_signedUnits] at below
      exact absurd below (Nat.lt_irrefl _)
  | finite => rfl

/-- A magnitude of at least a half is a multiple of the spacing of a half. -/
theorem spaced_of_half_le
    {units : Nat}
    (representable : Representable units)
    (large : unitsPerHalf ≤ units) :
    2 ^ (1021 : Nat) ∣ units := by
  have nonzero : units ≠ 0 := by
    have := unitsPerHalf_pos
    omega
  unfold unitsPerHalf at large
  have exponent := (Nat.le_log2 nonzero).2 large
  apply Nat.dvd_trans _ representable.aligned
  unfold spacingExponent
  apply Nat.pow_dvd_pow
  omega

/-- A fraction below a half belongs to the format. -/
theorem representable_fraction
    (representable : Representable place.natAbs)
    (small : place % unitsPerOne < unitsPerHalf) :
    Representable (place % unitsPerOne).natAbs := by
  have twoHalves := unitsPerOne_eq_two_halves
  have positive := unitsPerOne_cast_pos
  have nonnegative := Int.emod_nonneg place (Int.ne_of_gt positive)
  by_cases near : place.natAbs < unitsPerHalf
  · -- Near zero a number is its own fraction; a negative one has a larger
    -- fraction.
    have notNegative : 0 ≤ place := by
      by_contra negative
      have shifted : (place + unitsPerOne) % unitsPerOne = place + unitsPerOne :=
        Int.emod_eq_of_lt (by omega) (by omega)
      rw [Int.add_emod_right] at shifted
      omega
    rw [Int.emod_eq_of_lt notNegative (by omega)]
    exact representable
  · have spaced := spaced_of_half_le representable (Nat.not_lt.1 near)
    have divides : 2 ^ (1021 : Nat) ∣ unitsPerOne := by
      unfold unitsPerOne
      apply Nat.pow_dvd_pow
      decide
    have multiple : 2 ^ (1021 : Nat) ∣ (place % unitsPerOne).natAbs := by
      rw [← Int.natCast_dvd] at spaced ⊢
      rw [Int.emod_def]
      exact
        Int.dvd_sub spaced
          (Int.dvd_mul_of_dvd_left (Int.natCast_dvd_natCast.2 divides))
    apply representable_of_dvd multiple
    · apply @Nat.lt_of_lt_of_le _ unitsPerHalf
      · omega
      · unfold unitsPerHalf
        apply Nat.pow_le_pow_right <;> decide
    · decide

/-- The rounded fraction reaches a half exactly when the fraction does. -/
theorem half_le_roundedPlace_iff
    (representable : Representable place.natAbs) :
    (unitsPerHalf : Int) ≤ roundedPlace (place % unitsPerOne) 1 ↔
      (unitsPerHalf : Int) ≤ place % unitsPerOne := by
  constructor
  · intro reaches
    by_contra below
    rw [roundedPlace_of_representable
      (representable_fraction representable (Int.not_le.1 below))] at reaches
    exact below reaches
  · intro reaches
    have isHalf : roundedPlace (unitsPerHalf : Int) 1 = unitsPerHalf := by
      apply roundedPlace_of_representable
      rw [Int.natAbs_natCast]
      exact representable_unitsPerHalf
    rw [← isHalf]
    exact roundedPlace_mono Nat.one_pos reaches

/--
The next whole number above a number with a fraction belongs to the format.
-/
theorem representable_next
    (representable : Representable place.natAbs)
    (hasFraction : place % unitsPerOne ≠ 0) :
    Representable (place / unitsPerOne * unitsPerOne + unitsPerOne).natAbs := by
  have positive := unitsPerOne_cast_pos
  have few : place.natAbs < 2 ^ (52 : Nat) * unitsPerOne := by
    rcases representable.dvd_or_lt with whole | few
    · exact
        absurd (Int.emod_eq_zero_of_dvd (Int.natCast_dvd.2 whole)) hasFraction
    · exact few
  have limit :
      ((2 ^ (52 : Nat) * unitsPerOne : Nat) : Int) =
        2 ^ (52 : Nat) * unitsPerOne := by
    rw [Int.natCast_mul]
    rfl
  have lower : -2 ^ (52 : Nat) ≤ place / (unitsPerOne : Int) := by
    apply (Int.le_ediv_iff_mul_le positive).2
    rw [Int.neg_mul]
    omega
  have upper : place / (unitsPerOne : Int) < 2 ^ (52 : Nat) := by
    apply Int.ediv_lt_of_lt_mul positive
    omega
  have product :
      (place / unitsPerOne * unitsPerOne + unitsPerOne).natAbs =
        (place / unitsPerOne + 1).natAbs * unitsPerOne := by
    rw [← Int.natAbs_natCast unitsPerOne, ← Int.natAbs_mul, Int.add_mul,
      Int.one_mul, Int.natAbs_natCast]
  rw [product]
  apply representable_mul_unitsPerOne
  omega

/-! ## The rounded number -/

theorem isFinite_floor
    (isFinite : value.isFinite = true) :
    value.floor.isFinite = true := by
  cases value with
  | nan | infinite => simp [Binary64.isFinite] at isFinite
  | finite negative units representable =>
      cases negative with
      | false =>
          rw [floor, ofUnits_of_representable false representable.floor]; rfl
      | true =>
          rw [floor, ofUnits_of_representable true representable.ceiling]; rfl

/-- One is added to the floor exactly when the fraction is at least a half. -/
theorem roundHalfUp_eq
    (isFinite : value.isFinite = true)
    (stands : value.place? = some place) :
    value.roundHalfUp =
      if (unitsPerHalf : Int) ≤ place % unitsPerOne then
        value.floor.add one
      else
        value.floor := by
  have difference :
      (value.subtract value.floor).place? =
        some (roundedPlace (place % unitsPerOne) 1) := by
    have isFraction :
        place + -(place / unitsPerOne * unitsPerOne) = place % unitsPerOne := by
      rw [Int.emod_def, Int.mul_comm, Int.sub_eq_add_neg]
    rw [← isFraction]
    exact
      place?_add isFinite ((isFinite_negate _).trans (isFinite_floor isFinite))
        stands (place?_negate (place?_floor stands))
  have reaches :=
    half_le_roundedPlace_iff (representable_of_isFinite isFinite stands)
  rw [roundHalfUp, if_pos isFinite, isAtMost_of_places place?_half difference]
  simp only [decide_eq_true_eq, reaches]

theorem isFinite_one : one.isFinite = true := by
  apply isFinite_of_place place?_one
  rw [Int.natAbs_natCast]
  exact unitsPerOne_lt_unitBound

/-- The whole number below a place and a half, by the fraction of the place. -/
theorem add_half_ediv (place : Int) :
    (place + unitsPerHalf) / unitsPerOne =
      if (unitsPerHalf : Int) ≤ place % unitsPerOne then
        place / unitsPerOne + 1
      else
        place / unitsPerOne := by
  have twoHalves := unitsPerOne_eq_two_halves
  have positive := unitsPerOne_cast_pos
  have nonnegative := Int.emod_nonneg place (Int.ne_of_gt positive)
  have below := Int.emod_lt_of_pos place positive
  have division := Int.emod_add_mul_ediv place unitsPerOne
  split
  · have carried :
        place % unitsPerOne + unitsPerHalf - unitsPerOne +
            unitsPerOne * (place / unitsPerOne + 1) =
          place + unitsPerHalf := by
      rw [Int.mul_add, Int.mul_one]
      omega
    exact
      ((Int.ediv_emod_unique positive).2
        ⟨carried, by omega, by omega⟩).1
  · have kept :
        place % unitsPerOne + unitsPerHalf +
            unitsPerOne * (place / unitsPerOne) =
          place + unitsPerHalf := by
      omega
    exact
      ((Int.ediv_emod_unique positive).2 ⟨kept, by omega, by omega⟩).1

/-- A whole number has no fraction. -/
theorem not_half_le_of_dvd
    (isWhole : (unitsPerOne : Int) ∣ place) :
    ¬ (unitsPerHalf : Int) ≤ place % unitsPerOne := by
  have := unitsPerHalf_pos
  rw [Int.emod_eq_zero_of_dvd isWhole]
  omega

/--
A finite number stays finite, and stands, rounded, at the whole number below it
and a half.
-/
theorem roundHalfUp_of_isFinite
    (isFinite : value.isFinite = true)
    (stands : value.place? = some place) :
    value.roundHalfUp.isFinite = true ∧
      value.roundHalfUp.place? =
        some ((place + unitsPerHalf) / unitsPerOne * unitsPerOne) := by
  have floorFinite := isFinite_floor isFinite
  have floorStands := place?_floor stands
  rw [roundHalfUp_eq isFinite stands, add_half_ediv]
  split
  · have hasFraction : place % unitsPerOne ≠ 0 := by
      have := unitsPerHalf_pos
      omega
    have next :=
      representable_next (representable_of_isFinite isFinite stands)
        hasFraction
    have sum := place?_add floorFinite isFinite_one floorStands place?_one
    rw [roundedPlace_of_representable next] at sum
    refine ⟨isFinite_of_place sum next.below, ?_⟩
    rw [sum, Int.add_mul, Int.one_mul]
  · exact ⟨floorFinite, floorStands⟩

theorem roundHalfUp_of_not_isFinite
    (notFinite : value.isFinite = false) :
    value.roundHalfUp = value := by
  simp [roundHalfUp, notFinite]

/-- Every number stands, rounded, at the whole number below it and a half. -/
theorem place?_roundHalfUp
    (stands : value.place? = some place) :
    value.roundHalfUp.place? =
      some ((place + unitsPerHalf) / unitsPerOne * unitsPerOne) := by
  cases isFinite : value.isFinite with
  | true => exact (roundHalfUp_of_isFinite isFinite stands).2
  | false =>
      -- The infinities stand at whole numbers.
      have isWhole : (unitsPerOne : Int) ∣ place := by
        cases value with
        | nan => simp [place?] at stands
        | infinite negative =>
            obtain rfl := Option.some.inj stands
            exact unitsPerOne_dvd_signedUnits_unitBound negative
        | finite => simp [Binary64.isFinite] at isFinite
      rw [roundHalfUp_of_not_isFinite isFinite, stands, add_half_ediv,
        if_neg (not_half_le_of_dvd isWhole), Int.ediv_mul_cancel isWhole]

theorem roundHalfUp_mono
    {lower upper : Binary64}
    (compared : lower.isAtMost upper = true) :
    lower.roundHalfUp.isAtMost upper.roundHalfUp = true := by
  obtain ⟨lowerPlace, upperPlace, lowerStands, upperStands, atMost⟩ :=
    exists_places_of_isAtMost compared
  have positive := unitsPerOne_cast_pos
  have quotients :
      (lowerPlace + unitsPerHalf) / (unitsPerOne : Int) ≤
        (upperPlace + unitsPerHalf) / unitsPerOne :=
    Int.ediv_le_ediv positive (Int.add_le_add_right atMost _)
  have ordered :=
    Int.mul_le_mul_of_nonneg_right quotients (Int.le_of_lt positive)
  rw [isAtMost_of_places (place?_roundHalfUp lowerStands)
    (place?_roundHalfUp upperStands)]
  exact decide_eq_true ordered

/-- A whole number is its own floor, also with the sign of a zero. -/
theorem floor_of_dvd
    (isFinite : value.isFinite = true)
    (stands : value.place? = some place)
    (isWhole : (unitsPerOne : Int) ∣ place) :
    value.floor = value := by
  cases value with
  | nan | infinite => simp [Binary64.isFinite] at isFinite
  | finite negative units representable =>
      obtain rfl := Option.some.inj stands
      have positive := unitsPerOne_pos
      rw [Int.natCast_dvd, natAbs_signedUnits] at isWhole
      cases negative with
      | false =>
          rw [floor, Nat.div_mul_cancel isWhole,
            ofUnits_of_representable false representable]
      | true =>
          have fewer : unitsPerOne - 1 < unitsPerOne :=
            Nat.sub_one_lt_of_lt positive
          have same :
              (units + (unitsPerOne - 1)) / unitsPerOne * unitsPerOne =
                units := by
            obtain ⟨whole, equality⟩ := isWhole
            rw [equality, Nat.mul_add_div positive, Nat.div_eq_of_lt fewer,
              Nat.add_zero, Nat.mul_comm]
          rw [floor, same, ofUnits_of_representable true representable]

/-- A whole number is rounded to itself. -/
theorem roundHalfUp_of_dvd
    (isFinite : value.isFinite = true)
    (stands : value.place? = some place)
    (isWhole : (unitsPerOne : Int) ∣ place) :
    value.roundHalfUp = value := by
  rw [roundHalfUp_eq isFinite stands, if_neg (not_half_le_of_dvd isWhole),
    floor_of_dvd isFinite stands isWhole]

theorem roundHalfUp_roundHalfUp (value : Binary64) :
    value.roundHalfUp.roundHalfUp = value.roundHalfUp := by
  cases isFinite : value.isFinite with
  | false => simp only [roundHalfUp_of_not_isFinite isFinite]
  | true =>
      obtain ⟨place, stands⟩ := place?_of_isFinite isFinite
      obtain ⟨roundedFinite, roundedStands⟩ :=
        roundHalfUp_of_isFinite isFinite stands
      exact
        roundHalfUp_of_dvd roundedFinite roundedStands (Int.dvd_mul_left _ _)

end Fraction

/-! ## Exact values -/

theorem exactValue?_of_isFinite
    {value : Binary64}
    {place : Int}
    (isFinite : value.isFinite = true)
    (stands : value.place? = some place) :
    value.exactValue? = some ((place / unitsPerOne : ℚ) : WithBotTop ℚ) := by
  cases value with
  | nan | infinite => simp [Binary64.isFinite] at isFinite
  | finite =>
      obtain rfl := Option.some.inj stands
      rfl

/-- The whole number below an exact value and a half, by the place. -/
theorem floor_add_half (place : Int) :
    ⌊(place / unitsPerOne : ℚ) + 1 / 2⌋ =
      (place + unitsPerHalf) / unitsPerOne := by
  have nonzero : (unitsPerOne : ℚ) ≠ 0 :=
    Nat.cast_ne_zero.2 (Nat.ne_of_gt unitsPerOne_pos)
  have twoHalves : (unitsPerOne : ℚ) = 2 * unitsPerHalf := by
    rw [unitsPerOne_eq_two_halves, Nat.cast_mul, Nat.cast_ofNat]
  have shifted :
      (place / unitsPerOne : ℚ) + 1 / 2 =
        ((place + unitsPerHalf : ℤ) : ℚ) / unitsPerOne := by
    field_simp
    push_cast
    rw [twoHalves]
    ring
  rw [shifted, Rat.floor_intCast_div_natCast]

/--
A finite number is rounded to the whole number below its exact value and a
half, although the difference to the floor and the sum with one are rounded;
that is the whole number within a half of the exact value, and of two the one
above.  Rounding keeps the order of all numbers, and what is rounded stays as
it is when it is rounded again.  The infinities and NaN are handed back.
-/
theorem roundHalfUp_exact :
    (∀ value : Binary64,
      value.isFinite = true →
      ∃ exact : ℚ,
        value.exactValue? = some (exact : WithBotTop ℚ) ∧
          value.roundHalfUp.exactValue? =
            some ((⌊exact + 1 / 2⌋ : ℚ) : WithBotTop ℚ) ∧
          (⌊exact + 1 / 2⌋ : ℚ) - 1 / 2 ≤ exact ∧
          exact < (⌊exact + 1 / 2⌋ : ℚ) + 1 / 2) ∧
    (∀ lower upper : Binary64,
      lower.isAtMost upper = true →
      lower.roundHalfUp.isAtMost upper.roundHalfUp = true) ∧
    (∀ value : Binary64,
      value.roundHalfUp.roundHalfUp = value.roundHalfUp) ∧
    (∀ value : Binary64,
      value.isFinite = false → value.roundHalfUp = value) := by
  refine
    ⟨?_, fun _ _ => roundHalfUp_mono, roundHalfUp_roundHalfUp,
      fun _ => roundHalfUp_of_not_isFinite⟩
  intro value isFinite
  obtain ⟨place, stands⟩ := place?_of_isFinite isFinite
  obtain ⟨roundedFinite, roundedStands⟩ :=
    roundHalfUp_of_isFinite isFinite stands
  have nonzero : (unitsPerOne : ℚ) ≠ 0 :=
    Nat.cast_ne_zero.2 (Nat.ne_of_gt unitsPerOne_pos)
  refine ⟨_, exactValue?_of_isFinite isFinite stands, ?_, ?_, ?_⟩
  · rw [exactValue?_of_isFinite roundedFinite roundedStands, floor_add_half,
      Int.cast_mul, Int.cast_natCast, mul_div_cancel_right₀ _ nonzero]
  · exact sub_le_iff_le_add.2 (Int.floor_le _)
  · have above := Int.lt_floor_add_one ((place / unitsPerOne : ℚ) + 1 / 2)
    linarith

/-- The largest number below a half. -/
def belowHalf : Binary64 :=
  ofUnits false (unitsPerHalf - 2 ^ (1020 : Nat))

/-- The largest negative number. -/
def belowZero : Binary64 :=
  ofUnits true 1

/--
The number just below a half goes down and the half goes up; the negative
number just below zero, whose difference to its floor is rounded to one, goes
to zero.
-/
theorem roundHalfUp_exact_belowHalf :
    belowHalf.isFinite = true ∧
      (∃ exact : ℚ,
        belowHalf.exactValue? = some (exact : WithBotTop ℚ) ∧
          zero.exactValue? =
            some ((⌊exact + 1 / 2⌋ : ℚ) : WithBotTop ℚ)) ∧
      belowZero.isAtMost belowHalf = true ∧
      belowZero.roundHalfUp.isAtMost zero = true ∧
      belowZero.subtract belowZero.floor = one ∧
      belowZero.roundHalfUp = zero ∧
      half.roundHalfUp.roundHalfUp = one ∧
      infinity.isFinite = false ∧
      infinity.roundHalfUp = infinity := by
  have isFinite : belowHalf.isFinite = true := by decide +kernel
  have ordered : belowZero.isAtMost belowHalf = true := by decide +kernel
  have down : belowHalf.roundHalfUp = zero := by decide +kernel
  obtain ⟨exact, isExact, isRounded, -, -⟩ :=
    roundHalfUp_exact.1 belowHalf isFinite
  have grows := roundHalfUp_exact.2.1 belowZero belowHalf ordered
  have again := roundHalfUp_exact.2.2.1 half
  have kept := roundHalfUp_exact.2.2.2 infinity rfl
  rw [down] at isRounded grows
  refine
    ⟨isFinite, ⟨exact, isExact, isRounded⟩, ordered, grows, by decide +kernel,
      by decide +kernel, ?_, rfl, kept⟩
  rw [again]
  decide +kernel

end Binary64

end IncentivePay
