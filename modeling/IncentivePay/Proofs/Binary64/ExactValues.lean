import Mathlib.Data.Rat.Floor
import Mathlib.Order.WithBotTop
import IncentivePay.Proofs.Binary64.Places

/-!
# Exact values

The exact value of a finite number is rational, and the infinities are the two
ends of the line of rational numbers.  A number has the exact value of its
place, and exact values keep the order of the places; so the larger and the
smaller of two numbers have the larger and the smaller exact value, and the
whole number below a place is the whole number below its exact value.
-/

namespace IncentivePay

namespace Binary64

/-- The exact value of a number; a NaN has none. -/
def exactValue? : Binary64 → Option (WithBotTop ℚ)
  | .nan => none
  | .infinite true => some ⊥
  | .infinite false => some ⊤
  | .finite negative units _ =>
      some (((signedUnits negative units : ℚ) / unitsPerOne : ℚ))

end Binary64

/--
The whole number below an exact value, held within the range of sixty-four
bits with a sign.
-/
def wholeWithin64 : WithBotTop ℚ → ℤ :=
  WithBotTop.rec (-2 ^ 63)
    (fun value => max (-2 ^ 63) (min ⌊value⌋ (2 ^ 63 - 1)))
    (2 ^ 63 - 1)

/-- The exact value at a place; the infinities stand at the two bounds. -/
def valueAt (place : ℤ) : WithBotTop ℚ :=
  if place ≤ -(unitBound : ℤ) then ⊥
  else if (unitBound : ℤ) ≤ place then ⊤
  else ((place / unitsPerOne : ℚ) : WithBotTop ℚ)

theorem valueAt_mono
    {lower upper : ℤ}
    (ordered : lower ≤ upper) :
    valueAt lower ≤ valueAt upper := by
  have positive : (0 : ℚ) < unitsPerOne := Nat.cast_pos.2 unitsPerOne_pos
  unfold valueAt
  by_cases bottom : lower ≤ -(unitBound : ℤ)
  · rw [if_pos bottom]
    exact bot_le
  · have notBottom : ¬ upper ≤ -(unitBound : ℤ) := by omega
    rw [if_neg bottom, if_neg notBottom]
    by_cases top : (unitBound : ℤ) ≤ upper
    · rw [if_pos top]
      exact le_top
    · have notTop : ¬ (unitBound : ℤ) ≤ lower := by omega
      rw [if_neg top, if_neg notTop, WithBotTop.coe_le_coe]
      exact
        (div_le_div_iff_of_pos_right positive).2 (Int.cast_le.2 ordered)

theorem valueAt_zero : valueAt 0 = ((0 : ℚ) : WithBotTop ℚ) := by
  have positive := unitBound_pos
  have aboveBottom : ¬ 0 ≤ -(unitBound : ℤ) := by omega
  have belowTop : ¬ (unitBound : ℤ) ≤ 0 := by omega
  rw [valueAt, if_neg aboveBottom, if_neg belowTop, Int.cast_zero, zero_div]

namespace Binary64

/-- A number has the exact value of its place. -/
theorem exactValue?_eq (value : Binary64) :
    value.exactValue? = value.place?.map valueAt := by
  have positive := unitBound_pos
  cases value with
  | nan => rfl
  | infinite negative =>
      cases negative with
      | true =>
          have isBottom : valueAt (-(unitBound : ℤ)) = ⊥ :=
            if_pos (Int.le_refl _)
          exact congrArg some isBottom.symm
      | false =>
          have above : ¬ (unitBound : ℤ) ≤ -(unitBound : ℤ) := by omega
          have isTop : valueAt (unitBound : ℤ) = ⊤ := by
            rw [valueAt, if_neg above, if_pos (Int.le_refl _)]
          exact congrArg some isTop.symm
  | finite negative units representable =>
      have below := representable.below
      have aboveBottom :
          ¬ signedUnits negative units ≤ -(unitBound : ℤ) := by
        unfold signedUnits
        split <;> omega
      have belowTop : ¬ (unitBound : ℤ) ≤ signedUnits negative units := by
        unfold signedUnits
        split <;> omega
      simp only [exactValue?, place?, Option.map_some, valueAt,
        if_neg aboveBottom, if_neg belowTop]

/-- The whole number below a place, clamped, is that below its exact value. -/
theorem toInt_clampInt64_ediv (place : ℤ) :
    (clampInt64 (place / unitsPerOne)).toInt =
      wholeWithin64 (valueAt place) := by
  have most : Int64.maxValue.toInt = 2 ^ 63 - 1 := Int64.toInt_maxValue
  have least : Int64.minValue.toInt = -2 ^ 63 := Int64.toInt_minValue
  have huge : 2 ^ 64 ≤ wholeBound := two_pow_le_wholeBound (by decide)
  have positive := unitsPerOne_cast_pos
  have bound : (unitBound : ℤ) = wholeBound * unitsPerOne := by
    rw [unitBound_eq, Int.natCast_mul]
  rw [toInt_clampInt64, most, least]
  unfold valueAt
  split
  · rename_i bottom
    have whole : place / (unitsPerOne : ℤ) ≤ -(wholeBound : ℤ) := by
      rw [bound, ← Int.neg_mul] at bottom
      exact Int.ediv_le_of_le_mul positive bottom
    have isLeast : wholeWithin64 ⊥ = -2 ^ 63 := rfl
    omega
  · split
    · rename_i top
      have whole : (wholeBound : ℤ) ≤ place / (unitsPerOne : ℤ) := by
        rw [bound] at top
        exact (Int.le_ediv_iff_mul_le positive).2 top
      have isMost : wholeWithin64 ⊤ = 2 ^ 63 - 1 := rfl
      omega
    · have isFloor :
          wholeWithin64 ((place / unitsPerOne : ℚ) : WithBotTop ℚ) =
            max (-2 ^ 63)
              (min ⌊(place / unitsPerOne : ℚ)⌋ (2 ^ 63 - 1)) :=
        rfl
      rw [isFloor, Rat.floor_intCast_div_natCast]

/-! ## Whole numbers that are read again -/

/-- The whole number below a number is read exactly, within sixty-four bits. -/
theorem place?_ofInt_ediv
    {value : Binary64}
    {place : ℤ}
    (stands : value.place? = some place)
    (nonnegative : 0 ≤ place)
    (within : place / unitsPerOne < 2 ^ 63) :
    (ofInt (place / unitsPerOne)).place? =
      some (place / unitsPerOne * unitsPerOne) := by
  have huge : 2 ^ 64 ≤ wholeBound := two_pow_le_wholeBound (by decide)
  cases value with
  | nan => simp [place?] at stands
  | infinite negative =>
      obtain rfl := Option.some.inj stands
      cases negative with
      | true =>
          have positive := unitBound_pos
          simp only [signedUnits, if_true] at nonnegative
          omega
      | false =>
          have whole : (unitBound : ℤ) / unitsPerOne = wholeBound := by
            rw [unitBound_eq, Int.natCast_mul,
              Int.mul_ediv_cancel _ (Int.ne_of_gt unitsPerOne_cast_pos)]
          simp only [signedUnits, Bool.false_eq_true, if_false, whole]
            at within
          omega
  | finite negative units representable =>
      have isUnits : place = units := by
        have := Option.some.inj stands
        unfold signedUnits at this
        split at this <;> omega
      have whole : place / unitsPerOne = (units / unitsPerOne : ℕ) := by
        rw [isUnits, Int.natCast_ediv]
      have notNegative : ¬ ((units / unitsPerOne : ℕ) : ℤ) < 0 :=
        Int.not_lt.2 (Int.natCast_nonneg _)
      rw [whole, ofInt, decide_eq_false notNegative, Int.natAbs_natCast,
        ofUnits_of_representable false representable.floor]
      simp only [place?, signedUnits, Bool.false_eq_true, if_false,
        Int.natCast_mul]

/-- The largest number of sixty-four bits is read as the next power of two. -/
theorem place?_ofInt_maxValue :
    (ofInt Int64.maxValue.toInt).place? = some (2 ^ 63 * (unitsPerOne : ℤ)) := by
  decide +kernel

end Binary64

end IncentivePay
