import IncentivePay.Proofs.Binary64.Boundedness

/-!
# Rounding keeps the order

A sum and a product of finite numbers stand at the rounding of their exact
result, which `roundedPlace` takes to a place: a magnitude that is too large
goes to the place of an infinity.  Of two ratios with one denominator the
lesser is not rounded above the greater.  Where both have the same spacing this
is rounding to a whole number; otherwise a power of two lies between them, and
it belongs to the format.
-/

namespace IncentivePay

attribute [local instance (2000)] instPowNat

/-! ## Magnitudes -/

theorem roundHalfEven_mono
    {lower upper : Nat}
    (ordered : lower ≤ upper)
    (denominator : Nat) :
    roundHalfEven lower denominator ≤ roundHalfEven upper denominator := by
  have quotients : lower / denominator ≤ upper / denominator :=
    Nat.div_le_div_right ordered
  rcases Nat.lt_or_eq_of_le quotients with less | same
  · calc roundHalfEven lower denominator
        ≤ lower / denominator + 1 := roundHalfEven_le_succ _ _
      _ ≤ upper / denominator := less
      _ ≤ roundHalfEven upper denominator := le_roundHalfEven _ _
  · have lowerDivision := Nat.div_add_mod lower denominator
    have upperDivision := Nat.div_add_mod upper denominator
    rw [same] at lowerDivision
    have remainders : lower % denominator ≤ upper % denominator := by omega
    simp only [roundHalfEven, same]
    repeat' split
    all_goals omega

/-- A power of two lies between two magnitudes of different spacing. -/
theorem exists_two_pow_between
    {lower upper : Nat}
    (finer : spacingExponent lower < spacingExponent upper) :
    lower < 2 ^ (52 + spacingExponent upper) ∧
      2 ^ (52 + spacingExponent upper) ≤ upper := by
  unfold spacingExponent at finer
  have exponent : 52 + spacingExponent upper = upper.log2 := by
    unfold spacingExponent
    omega
  have nonzero : upper ≠ 0 := by
    rintro rfl
    simp at finer
  rw [exponent]
  refine ⟨?_, Nat.log2_self_le nonzero⟩
  calc lower
      < 2 ^ (lower.log2 + 1) := Nat.lt_log2_self
    _ ≤ 2 ^ upper.log2 := Nat.pow_le_pow_right (by decide) (by omega)

/-- The lesser of two ratios is not rounded above the greater. -/
theorem nearestUnits_mono
    {lower upper denominator : Nat}
    (positive : 0 < denominator)
    (ordered : lower ≤ upper) :
    nearestUnits lower denominator ≤ nearestUnits upper denominator := by
  have quotients : lower / denominator ≤ upper / denominator :=
    Nat.div_le_div_right ordered
  have notCoarser :
      spacingExponent (lower / denominator) ≤
        spacingExponent (upper / denominator) := by
    unfold spacingExponent
    exact Nat.sub_le_sub_right (log2_le_log2 quotients) 52
  rcases Nat.lt_or_eq_of_le notCoarser with finer | same
  · obtain ⟨below, above⟩ := exists_two_pow_between finer
    rw [Nat.pow_add] at below above
    have aligned :=
      @aligned_mul_two_pow (2 ^ (52 : Nat))
        (spacingExponent (upper / denominator)) (by decide)
    -- The power of two is rounded to itself from below, and not passed from above.
    have lowerAtMost :
        lower ≤
          2 ^ (52 : Nat) * 2 ^ spacingExponent (upper / denominator) *
            denominator :=
      Nat.le_of_lt ((Nat.div_lt_iff_lt_mul positive).1 below)
    calc nearestUnits lower denominator
        ≤ 2 ^ (52 : Nat) * 2 ^ spacingExponent (upper / denominator) :=
          nearestUnits_le positive aligned lowerAtMost
      _ ≤ nearestUnits upper denominator := by
          unfold nearestUnits
          apply Nat.mul_le_mul_right
          apply Nat.le_trans _ (le_roundHalfEven _ _)
          rw [← Nat.div_div_eq_div_mul]
          exact (Nat.le_div_iff_mul_le (Nat.two_pow_pos _)).2 above
  · unfold nearestUnits
    simp only [same]
    exact Nat.mul_le_mul_right _ (roundHalfEven_mono ordered _)

/-! ## Places -/

/--
The place to which an exact number of units over a denominator is rounded.
-/
def roundedPlace
    (exact : Int)
    (denominator : Nat) :
    Int :=
  Binary64.signedUnits (exact < 0)
    (min (nearestUnits exact.natAbs denominator) unitBound)

theorem nearestUnits_zero_left (denominator : Nat) :
    nearestUnits 0 denominator = 0 := by
  simp [nearestUnits, roundHalfEven]

theorem roundedPlace_of_nonneg
    {exact : Int}
    (nonnegative : 0 ≤ exact)
    (denominator : Nat) :
    roundedPlace exact denominator =
      (min (nearestUnits exact.natAbs denominator) unitBound : Nat) := by
  rw [roundedPlace, decide_eq_false (Int.not_lt.2 nonnegative)]
  rfl

theorem roundedPlace_of_nonpos
    {exact : Int}
    (nonpositive : exact ≤ 0)
    (denominator : Nat) :
    roundedPlace exact denominator =
      -(min (nearestUnits exact.natAbs denominator) unitBound : Nat) := by
  rcases Int.lt_or_eq_of_le nonpositive with negative | rfl
  · rw [roundedPlace, decide_eq_true negative]
    rfl
  · simp [roundedPlace_of_nonneg, nearestUnits_zero_left]

theorem roundedPlace_zero (denominator : Nat) :
    roundedPlace 0 denominator = 0 := by
  simp [roundedPlace_of_nonneg, nearestUnits_zero_left]

/-- Rounding keeps the order of exact results over one denominator. -/
theorem roundedPlace_mono
    {lower upper : Int}
    {denominator : Nat}
    (positive : 0 < denominator)
    (ordered : lower ≤ upper) :
    roundedPlace lower denominator ≤ roundedPlace upper denominator := by
  rcases Int.le_total 0 lower with lowerNonnegative | lowerNonpositive
  · have magnitudes :=
      @nearestUnits_mono lower.natAbs upper.natAbs _ positive (by omega)
    rw [roundedPlace_of_nonneg lowerNonnegative,
      roundedPlace_of_nonneg (Int.le_trans lowerNonnegative ordered)]
    omega
  · rcases Int.le_total 0 upper with upperNonnegative | upperNonpositive
    · rw [roundedPlace_of_nonpos lowerNonpositive,
        roundedPlace_of_nonneg upperNonnegative]
      omega
    · have magnitudes :=
        @nearestUnits_mono upper.natAbs lower.natAbs _ positive (by omega)
      rw [roundedPlace_of_nonpos lowerNonpositive,
        roundedPlace_of_nonpos upperNonpositive]
      omega

/-- What is not negative is not rounded below nought. -/
theorem roundedPlace_nonneg
    {exact : Int}
    (nonnegative : 0 ≤ exact)
    (denominator : Nat) :
    0 ≤ roundedPlace exact denominator := by
  rw [roundedPlace_of_nonneg nonnegative]
  exact Int.natCast_nonneg _

theorem roundedPlace_nonpos
    {exact : Int}
    (nonpositive : exact ≤ 0)
    (denominator : Nat) :
    roundedPlace exact denominator ≤ 0 := by
  rw [roundedPlace_of_nonpos nonpositive]
  omega

/-- The part above nought is rounded as a whole. -/
theorem max_roundedPlace_zero
    (exact : Int)
    (denominator : Nat) :
    max (roundedPlace exact denominator) 0 =
      roundedPlace (max exact 0) denominator := by
  rcases Int.le_total 0 exact with nonnegative | nonpositive
  · have := roundedPlace_nonneg nonnegative denominator
    rw [Int.max_eq_left nonnegative]
    omega
  · have := roundedPlace_nonpos nonpositive denominator
    rw [Int.max_eq_right nonpositive, roundedPlace_zero]
    omega

/-! ## Operations -/

namespace Binary64

theorem place?_ofRatio
    (negative : Bool)
    (numerator denominator : Nat) :
    (ofRatio negative numerator denominator).place? =
      some
        (signedUnits negative
          (min (nearestUnits numerator denominator) unitBound)) := by
  unfold ofRatio
  split
  · rename_i below
    rw [place?, Nat.min_eq_left (Nat.le_of_lt below)]
  · rename_i above
    rw [place?, Nat.min_eq_right (Nat.le_of_not_lt above)]

/--
A signed magnitude is rounded with its sign, which a nought does not need.
-/
theorem roundedPlace_signedUnits
    (negative : Bool)
    (units denominator : Nat) :
    roundedPlace (signedUnits negative units) denominator =
      signedUnits negative
        (min (nearestUnits units denominator) unitBound) := by
  cases negative with
  | false =>
      exact roundedPlace_of_nonneg (Int.natCast_nonneg units) denominator
  | true =>
      rw [signedUnits, if_pos rfl, roundedPlace_of_nonpos (by omega),
        Int.natAbs_neg, Int.natAbs_natCast]
      rfl

theorem signedUnits_mul
    (left right : Bool)
    (leftUnits rightUnits : Nat) :
    signedUnits left leftUnits * signedUnits right rightUnits =
      signedUnits (left != right) (leftUnits * rightUnits) := by
  cases left with
  | false =>
      cases right with
      | false => exact (Int.natCast_mul _ _).symm
      | true =>
          calc
            (leftUnits : Int) * -rightUnits = -(leftUnits * rightUnits) :=
              Int.mul_neg _ _
            _ = -(leftUnits * rightUnits : Nat) := by rw [Int.natCast_mul]
  | true =>
      cases right with
      | false =>
          calc
            -(leftUnits : Int) * rightUnits = -(leftUnits * rightUnits) :=
              Int.neg_mul _ _
            _ = -(leftUnits * rightUnits : Nat) := by rw [Int.natCast_mul]
      | true =>
          calc
            -(leftUnits : Int) * -rightUnits = leftUnits * rightUnits :=
              Int.neg_mul_neg _ _
            _ = (leftUnits * rightUnits : Nat) := by rw [Int.natCast_mul]

variable
  {left right : Binary64}
  {leftPlace rightPlace : Int}

theorem isFinite_of_fraction
    {rate : Binary64}
    (nonnegative : zero.isAtMost rate = true)
    (atMostOne : rate.isAtMost one = true) :
    rate.isFinite = true := by
  obtain ⟨negative, units, representable, rfl, -⟩ :=
    exists_units_of_fraction nonnegative atMostOne
  rfl

/-- A product of finite numbers stands at the rounding of the exact one. -/
theorem place?_multiply
    (leftFinite : left.isFinite = true)
    (rightFinite : right.isFinite = true)
    (leftStands : left.place? = some leftPlace)
    (rightStands : right.place? = some rightPlace) :
    (left.multiply right).place? =
      some (roundedPlace (leftPlace * rightPlace) unitsPerOne) := by
  cases left with
  | nan | infinite => simp [Binary64.isFinite] at leftFinite
  | finite leftNegative leftUnits leftRepresentable =>
      cases right with
      | nan | infinite => simp [Binary64.isFinite] at rightFinite
      | finite rightNegative rightUnits rightRepresentable =>
          obtain rfl := Option.some.inj leftStands
          obtain rfl := Option.some.inj rightStands
          rw [multiply, place?_ofRatio, signedUnits_mul,
            roundedPlace_signedUnits]

/-- A sum of finite numbers stands at the rounding of the exact one. -/
theorem place?_add
    (leftFinite : left.isFinite = true)
    (rightFinite : right.isFinite = true)
    (leftStands : left.place? = some leftPlace)
    (rightStands : right.place? = some rightPlace) :
    (left.add right).place? =
      some (roundedPlace (leftPlace + rightPlace) 1) := by
  cases left with
  | nan | infinite => simp [Binary64.isFinite] at leftFinite
  | finite leftNegative leftUnits leftRepresentable =>
      cases right with
      | nan | infinite => simp [Binary64.isFinite] at rightFinite
      | finite rightNegative rightUnits rightRepresentable =>
          obtain rfl := Option.some.inj leftStands
          obtain rfl := Option.some.inj rightStands
          simp only [add]
          split
          · rename_i vanishes
            rw [vanishes, roundedPlace_zero]
            cases leftNegative && rightNegative <;> rfl
          · exact place?_ofRatio _ _ _

theorem place?_negate (stands : right.place? = some rightPlace) :
    right.negate.place? = some (-rightPlace) := by
  cases right with
  | nan => simp [place?] at stands
  | infinite negative =>
      obtain rfl := Option.some.inj stands
      cases negative with
      | false => rfl
      | true => exact congrArg some (Int.neg_neg _).symm
  | finite negative =>
      obtain rfl := Option.some.inj stands
      cases negative with
      | false => rfl
      | true => exact congrArg some (Int.neg_neg _).symm

/-- A finite number does not stand where the infinities do. -/
theorem place_lt_of_isFinite
    (leftFinite : left.isFinite = true)
    (leftStands : left.place? = some leftPlace) :
    leftPlace < unitBound := by
  cases left with
  | nan | infinite => simp [Binary64.isFinite] at leftFinite
  | finite negative units representable =>
      obtain rfl := Option.some.inj leftStands
      have below := representable.below
      unfold signedUnits
      split <;> omega

/--
The excess of a finite number over one that is not negative stands at its
rounding; over an infinity there is none.
-/
theorem place?_excess
    (leftFinite : left.isFinite = true)
    (leftStands : left.place? = some leftPlace)
    (rightStands : right.place? = some rightPlace)
    (nonnegative : 0 ≤ rightPlace) :
    ((left.subtract right).maxPresent zero).place? =
      some (roundedPlace (max (leftPlace - rightPlace) 0) 1) := by
  cases rightFinite : right.isFinite with
  | true =>
      have difference :=
        place?_add leftFinite ((isFinite_negate right).trans rightFinite)
          leftStands (place?_negate rightStands)
      rw [← Int.sub_eq_add_neg] at difference
      rw [← max_roundedPlace_zero]
      exact place?_maxPresent difference place?_zero
  | false =>
      obtain rfl : right = infinity := by
        cases right with
        | nan => simp [place?] at rightStands
        | finite => simp [Binary64.isFinite] at rightFinite
        | infinite negative =>
            cases negative with
            | false => rfl
            | true =>
                obtain rfl := Option.some.inj rightStands
                have := unitBound_pos
                simp only [signedUnits, if_true] at nonnegative
                omega
      obtain rfl := Option.some.inj (rightStands.symm.trans place?_infinity)
      have below := place_lt_of_isFinite leftFinite leftStands
      have nothing : max (leftPlace - unitBound) 0 = 0 := by omega
      have difference :
          (left.subtract infinity).place? = some (-(unitBound : Int)) := by
        cases left with
        | nan | infinite => simp [Binary64.isFinite] at leftFinite
        | finite => rfl
      have held : max (-(unitBound : Int)) 0 = 0 := by omega
      rw [place?_maxPresent difference place?_zero, nothing, roundedPlace_zero,
        held]

end Binary64

end IncentivePay
