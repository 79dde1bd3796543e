import IncentivePay.Binary64.Arithmetic
import IncentivePay.Proofs.Binary64.Boundedness

/-!
# The signs of zeros

The two readings of the larger of two numbers differ where an operand is a
NaN, and in the order of their operands, which decides between two zeros.
`IsAlike` leaves the signs of zeros out of account: of a number and zero both
readings give alike numbers, in whatever order, and the products of alike
numbers with a finite number are alike.
-/

namespace IncentivePay

namespace Binary64

/-- The same, except that a zero may have either sign. -/
inductive IsAlike : Binary64 → Binary64 → Prop
  | same (value : Binary64) :
      IsAlike value value
  | zeros (negative other : Bool) :
      IsAlike (signedZero negative) (signedZero other)

variable {value left right rate threshold : Binary64}

theorem place?_signedZero (negative : Bool) :
    (signedZero negative).place? = some 0 := by
  cases negative <;> rfl

/-- Only the zeros stand at nought. -/
theorem eq_signedZero_of_place
    (stands : value.place? = some 0) :
    ∃ negative, value = signedZero negative := by
  have magnitude {negative : Bool} {units : Nat}
      (atNought : some (signedUnits negative units) = some 0) :
      units = 0 := by
    rw [← natAbs_signedUnits negative units, Option.some.inj atNought]
    rfl
  cases value with
  | nan => simp [place?] at stands
  | infinite negative =>
      exact absurd (magnitude stands) (Nat.ne_of_gt unitBound_pos)
  | finite negative units representable =>
      obtain rfl := magnitude stands
      exact ⟨negative, rfl⟩

theorem exists_place_of_isNaN
    (isNumber : value.isNaN = false) :
    ∃ place, value.place? = some place := by
  cases value with
  | nan => simp [isNaN] at isNumber
  | infinite negative => exact ⟨_, rfl⟩
  | finite negative units representable => exact ⟨_, rfl⟩

/-! ## The larger of a number and zero -/

theorem isAlike_max_zero (isNumber : value.isNaN = false) :
    IsAlike (value.maxPresent zero) (zero.maxStrict value) := by
  have strict : zero.maxStrict value = zero.maxPresent value := by
    rw [maxStrict, isNumber]
    rfl
  have zeroIsNumber : zero.isNaN = false := rfl
  obtain ⟨place, stands⟩ := exists_place_of_isNaN isNumber
  rw [strict, maxPresent, maxPresent, isNumber, zeroIsNumber,
    isLess_of_places stands place?_zero, isLess_of_places place?_zero stands]
  rcases Int.lt_trichotomy place 0 with below | rfl | above
  · have notAbove : ¬ 0 < place := by omega
    simp only [below, notAbove, decide_true, decide_false, if_true,
      Bool.false_eq_true, if_false]
    exact .same zero
  · -- Of equal operands the first is taken, which is another zero in each.
    obtain ⟨negative, rfl⟩ := eq_signedZero_of_place stands
    exact .zeros negative false
  · have notBelow : ¬ place < 0 := by omega
    simp only [above, notBelow, decide_true, decide_false, if_true,
      Bool.false_eq_true, if_false]
    exact .same value

/-! ## Products -/

theorem ofRatio_zero
    (negative : Bool)
    {denominator : Nat}
    (positive : 0 < denominator) :
    ofRatio negative 0 denominator = signedZero negative := by
  have nothing : nearestUnits 0 denominator = 0 :=
    Nat.le_zero.1
      (nearestUnits_le positive (Nat.dvd_zero _) (Nat.zero_le _))
  unfold ofRatio
  simp only [nothing, unitBound_pos, dif_pos]
  rfl

/-- A zero times a finite number is a zero. -/
theorem exists_multiply_signedZero
    (negative : Bool)
    (isFinite : rate.isFinite = true) :
    ∃ other, (signedZero negative).multiply rate = signedZero other := by
  cases rate with
  | nan => simp [Binary64.isFinite] at isFinite
  | infinite rateNegative => simp [Binary64.isFinite] at isFinite
  | finite rateNegative units representable =>
      refine ⟨negative != rateNegative, ?_⟩
      rw [signedZero, multiply, Nat.zero_mul]
      exact ofRatio_zero _ unitsPerOne_pos

namespace IsAlike

theorem multiply
    (alike : IsAlike left right)
    (isFinite : rate.isFinite = true) :
    IsAlike (left.multiply rate) (right.multiply rate) := by
  cases alike with
  | same => exact .same _
  | zeros negative other =>
      obtain ⟨first, isZero⟩ := exists_multiply_signedZero negative isFinite
      obtain ⟨second, isZeroToo⟩ := exists_multiply_signedZero other isFinite
      rw [isZero, isZeroToo]
      exact .zeros first second

end IsAlike

/-! ## Differences -/

theorem isNaN_ofUnits
    (negative : Bool)
    (units : Nat) :
    (ofUnits negative units).isNaN = false := by
  unfold ofUnits ofRatio
  split <;> rfl

/-- A number less a finite number is a number. -/
theorem isNaN_subtract
    (isNumber : value.isNaN = false)
    (isFinite : threshold.isFinite = true) :
    (value.subtract threshold).isNaN = false := by
  cases threshold with
  | nan => simp [Binary64.isFinite] at isFinite
  | infinite negative => simp [Binary64.isFinite] at isFinite
  | finite negative units representable =>
      cases value with
      | nan => simp [isNaN] at isNumber
      | infinite valueNegative => rfl
      | finite valueNegative valueUnits valueRepresentable =>
          simp only [subtract, negate, add]
          split
          · rfl
          · exact isNaN_ofUnits _ _

end Binary64

end IncentivePay
