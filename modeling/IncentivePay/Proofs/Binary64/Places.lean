import IncentivePay.Binary64.Integral

/-!
# Places on the line

Comparing two numbers, taking the larger or the smaller of them, cutting off a
fraction and clamping to sixty-four bits are all said by their places on the
line: a whole number is a multiple of the units in one, and every whole number
that `floor` answers belongs to the format, so that nothing is rounded there.
-/

namespace IncentivePay

attribute [local instance (2000)] instPowNat

/-- Exponents add up; the powers themselves are too large to be evaluated. -/
theorem two_pow_of_add
    {first second total : Nat}
    (adds : first + second = total) :
    2 ^ total = 2 ^ first * 2 ^ second := by
  rw [← adds, Nat.pow_add]

/-- The whole number that the infinities stand at. -/
def wholeBound : Nat :=
  2 ^ (1024 : Nat)

theorem unitBound_eq : unitBound = wholeBound * unitsPerOne := by
  unfold unitBound wholeBound unitsPerOne
  apply two_pow_of_add
  rfl

theorem two_pow_le_wholeBound
    {exponent : Nat}
    (bound : exponent ≤ 1024) :
    2 ^ exponent ≤ wholeBound := by
  unfold wholeBound
  apply Nat.pow_le_pow_right (by decide)
  exact bound

/-! ## Whole numbers of the format -/

/--
A whole number of at most fifty-three binary digits belongs to the format.
-/
theorem representable_mul_unitsPerOne
    {whole : Nat}
    (bound : whole ≤ 2 ^ (53 : Nat)) :
    Representable (whole * unitsPerOne) where
  below := by
    have small : whole < wholeBound :=
      calc whole
          ≤ 2 ^ (53 : Nat) := bound
        _ < 2 ^ (54 : Nat) := by decide
        _ ≤ wholeBound := two_pow_le_wholeBound (by decide)
    rw [unitBound_eq]
    exact Nat.mul_lt_mul_of_pos_right small unitsPerOne_pos
  aligned := by
    unfold unitsPerOne
    exact aligned_mul_two_pow 1074 bound

/--
A number of the format is whole, or has at most 52 digits before the point.
-/
theorem Representable.dvd_or_lt
    {units : Nat}
    (representable : Representable units) :
    unitsPerOne ∣ units ∨ units < 2 ^ (52 : Nat) * unitsPerOne := by
  by_cases large : 1126 ≤ units.log2
  · left
    apply Nat.dvd_trans _ representable.aligned
    unfold unitsPerOne spacingExponent
    apply Nat.pow_dvd_pow
    omega
  · right
    have divided : 2 ^ (1126 : Nat) = 2 ^ (52 : Nat) * unitsPerOne := by
      unfold unitsPerOne
      apply two_pow_of_add
      rfl
    rw [← divided]
    apply Nat.lt_of_lt_of_le Nat.lt_log2_self
    apply Nat.pow_le_pow_right (by decide)
    omega

theorem Representable.floor
    {units : Nat}
    (representable : Representable units) :
    Representable (units / unitsPerOne * unitsPerOne) := by
  rcases representable.dvd_or_lt with whole | small
  · rw [Nat.div_mul_cancel whole]
    exact representable
  · apply representable_mul_unitsPerOne
    have bound : units / unitsPerOne < 2 ^ (52 : Nat) :=
      (Nat.div_lt_iff_lt_mul unitsPerOne_pos).2 small
    exact Nat.le_trans (Nat.le_of_lt bound) (by decide)

/-- The whole number above a number of units that is nearest to it. -/
theorem ceiling_mul_bounds
    (units : Nat)
    {one : Nat}
    (positive : 0 < one) :
    units ≤ (units + (one - 1)) / one * one ∧
      (units + (one - 1)) / one * one < units + one := by
  have division := Nat.div_add_mod (units + (one - 1)) one
  have remainder := Nat.mod_lt (units + (one - 1)) positive
  rw [Nat.mul_comm] at division
  omega

theorem Representable.ceiling
    {units : Nat}
    (representable : Representable units) :
    Representable
      ((units + (unitsPerOne - 1)) / unitsPerOne * unitsPerOne) := by
  have positive := unitsPerOne_pos
  have bounds := ceiling_mul_bounds units positive
  rcases representable.dvd_or_lt with ⟨whole, equality⟩ | small
  · have same :
        (units + (unitsPerOne - 1)) / unitsPerOne * unitsPerOne = units := by
      rw [equality, Nat.mul_add_div positive,
        Nat.div_eq_of_lt (Nat.sub_one_lt_of_lt positive), Nat.add_zero,
        Nat.mul_comm]
    rw [same]
    exact representable
  · apply representable_mul_unitsPerOne
    have bound :
        (units + (unitsPerOne - 1)) / unitsPerOne ≤ 2 ^ (52 : Nat) := by
      apply Nat.le_of_mul_le_mul_right _ positive
      have next :
          (units + (unitsPerOne - 1)) / unitsPerOne * unitsPerOne <
            (2 ^ (52 : Nat) + 1) * unitsPerOne := by
        rw [Nat.succ_mul]
        omega
      have := Nat.lt_of_mul_lt_mul_right next
      exact Nat.mul_le_mul_right _ (Nat.le_of_lt_succ this)
    exact Nat.le_trans bound (by decide)

namespace Binary64

variable
  {value left right : Binary64}
  {place leftPlace rightPlace : Int}

/-! ## Comparisons -/

theorem isNaN_eq_false_of_place
    (stands : value.place? = some place) :
    value.isNaN = false := by
  cases value <;> simp_all [place?, isNaN]

/-- Every number stands between the infinities. -/
theorem place_bounds
    (stands : value.place? = some place) :
    -(unitBound : Int) ≤ place ∧ place ≤ unitBound := by
  cases value with
  | nan => simp [place?] at stands
  | infinite negative =>
      obtain rfl := Option.some.inj stands
      unfold signedUnits
      split <;> omega
  | finite negative units representable =>
      obtain rfl := Option.some.inj stands
      have below := representable.below
      unfold signedUnits
      split <;> omega

theorem isLess_of_places
    (leftStands : left.place? = some leftPlace)
    (rightStands : right.place? = some rightPlace) :
    left.isLess right = decide (leftPlace < rightPlace) := by
  simp [isLess, comparePlaces, leftStands, rightStands]

theorem isAtMost_of_places
    (leftStands : left.place? = some leftPlace)
    (rightStands : right.place? = some rightPlace) :
    left.isAtMost right = decide (leftPlace ≤ rightPlace) := by
  simp [isAtMost, comparePlaces, leftStands, rightStands]

theorem place?_zero : zero.place? = some 0 := by
  simp [zero, signedZero, place?, signedUnits]

theorem place?_infinity : infinity.place? = some (unitBound : Int) :=
  rfl

/-- What is at least zero stands at a place, and not below nought. -/
theorem exists_place_of_zero_isAtMost
    {value : Binary64}
    (nonnegative : zero.isAtMost value = true) :
    ∃ place, value.place? = some place ∧ 0 ≤ place := by
  cases stands : value.place? with
  | none => simp [isAtMost, comparePlaces, stands, place?_zero] at nonnegative
  | some place =>
      rw [isAtMost_of_places place?_zero stands] at nonnegative
      exact ⟨place, rfl, by simpa using nonnegative⟩

/-- Numbers that are compared stand at places in that order. -/
theorem exists_places_of_isAtMost
    (atMost : left.isAtMost right = true) :
    ∃ leftPlace rightPlace,
      left.place? = some leftPlace ∧
        right.place? = some rightPlace ∧
        leftPlace ≤ rightPlace := by
  cases leftStands : left.place? with
  | none => simp [isAtMost, comparePlaces, leftStands] at atMost
  | some leftPlace =>
      cases rightStands : right.place? with
      | none => simp [isAtMost, comparePlaces, leftStands, rightStands] at atMost
      | some rightPlace =>
          rw [isAtMost_of_places leftStands rightStands] at atMost
          exact ⟨_, _, rfl, rfl, of_decide_eq_true atMost⟩

theorem place?_maxPresent
    (leftStands : left.place? = some leftPlace)
    (rightStands : right.place? = some rightPlace) :
    (left.maxPresent right).place? = some (max leftPlace rightPlace) := by
  unfold maxPresent
  rw [isNaN_eq_false_of_place leftStands,
    isLess_of_places leftStands rightStands]
  by_cases less : leftPlace < rightPlace
  · simp only [less, decide_true, if_true, Bool.false_eq_true, if_false]
    rw [rightStands, Int.max_eq_right (Int.le_of_lt less)]
  · simp only [less, decide_false, Bool.false_eq_true, if_false]
    rw [leftStands, Int.max_eq_left (Int.not_lt.1 less)]

theorem place?_minPresent
    (leftStands : left.place? = some leftPlace)
    (rightStands : right.place? = some rightPlace) :
    (left.minPresent right).place? = some (min leftPlace rightPlace) := by
  unfold minPresent
  rw [isNaN_eq_false_of_place leftStands,
    isLess_of_places rightStands leftStands]
  by_cases less : rightPlace < leftPlace
  · simp only [less, decide_true, if_true, Bool.false_eq_true, if_false]
    rw [rightStands, Int.min_eq_right (Int.le_of_lt less)]
  · simp only [less, decide_false, Bool.false_eq_true, if_false]
    rw [leftStands, Int.min_eq_left (Int.not_lt.1 less)]

theorem place?_of_isFinite
    (isFinite : value.isFinite = true) :
    ∃ place, value.place? = some place := by
  cases value with
  | nan => simp [Binary64.isFinite] at isFinite
  | infinite negative => exact ⟨_, rfl⟩
  | finite negative units representable => exact ⟨_, rfl⟩

/-! ## Whole numbers -/

theorem unitsPerOne_cast_pos : (0 : Int) < unitsPerOne :=
  Int.natCast_pos.2 unitsPerOne_pos

/-- The infinities stand at whole numbers. -/
theorem unitsPerOne_dvd_signedUnits_unitBound (negative : Bool) :
    (unitsPerOne : Int) ∣ signedUnits negative unitBound := by
  have divides : (unitsPerOne : Int) ∣ unitBound := by
    rw [unitBound_eq, Int.natCast_mul]
    exact Int.dvd_mul_left _ _
  unfold signedUnits
  split
  · exact Int.dvd_neg.2 divides
  · exact divides

/-- The whole number below a negative one is that above its magnitude. -/
theorem neg_ediv_eq_neg_ceiling
    (units : Nat)
    {one : Nat}
    (positive : 0 < one) :
    -(units : Int) / one = -((units + (one - 1)) / one : Nat) := by
  have bounds := ceiling_mul_bounds units positive
  generalize (units + (one - 1)) / one = whole at *
  have product : (one : Int) * -(whole : Int) = -((whole * one : Nat) : Int) := by
    rw [Int.mul_neg, Int.natCast_mul, Int.mul_comm]
  have division :
      ((whole * one : Nat) : Int) - units + one * -(whole : Int) = -units := by
    rw [product]
    omega
  exact
    ((Int.ediv_emod_unique (Int.natCast_pos.2 positive)).2
      ⟨division, by omega, by omega⟩).1

/-- The floor stands at the multiple of one below, and is not rounded. -/
theorem place?_floor
    (stands : value.place? = some place) :
    value.floor.place? = some (place / unitsPerOne * unitsPerOne) := by
  cases value with
  | nan => simp [place?] at stands
  | infinite negative =>
      obtain rfl := Option.some.inj stands
      rw [Int.ediv_mul_cancel (unitsPerOne_dvd_signedUnits_unitBound negative)]
      rfl
  | finite negative units representable =>
      obtain rfl := Option.some.inj stands
      cases negative with
      | false =>
          rw [floor, ofUnits_of_representable false representable.floor]
          simp only [place?, signedUnits, Bool.false_eq_true, if_false]
          rw [Int.natCast_mul, Int.natCast_ediv]
      | true =>
          rw [floor, ofUnits_of_representable true representable.ceiling]
          simp only [place?, signedUnits, if_true]
          rw [neg_ediv_eq_neg_ceiling units unitsPerOne_pos, Int.neg_mul,
            Int.natCast_mul]

/-- What is clamped is the place, in whole ones towards zero. -/
theorem toInt64_of_place
    (stands : value.place? = some place) :
    value.toInt64 = clampInt64 (place.tdiv unitsPerOne) := by
  have wholes : ((unitBound : Int).tdiv unitsPerOne) = wholeBound := by
    rw [← Int.ofNat_tdiv, unitBound_eq, Nat.mul_div_cancel _ unitsPerOne_pos]
  have huge : 2 ^ (64 : Nat) ≤ wholeBound := two_pow_le_wholeBound (by decide)
  have most : Int64.maxValue.toInt = 2 ^ (63 : Nat) - 1 := Int64.toInt_maxValue
  have least : Int64.minValue.toInt = -2 ^ (63 : Nat) := Int64.toInt_minValue
  cases value with
  | nan => simp [place?] at stands
  | infinite negative =>
      obtain rfl := Option.some.inj stands
      cases negative with
      | false =>
          simp only [signedUnits, Bool.false_eq_true, if_false, wholes]
          rw [toInt64, clampInt64, if_neg (by omega), if_pos (by omega)]
      | true =>
          simp only [signedUnits, if_true, Int.neg_tdiv, wholes]
          rw [toInt64, clampInt64, if_pos (by omega)]
  | finite negative units representable =>
      obtain rfl := Option.some.inj stands
      rw [toInt64]
      congr 1
      unfold signedUnits
      split
      · rw [Int.neg_tdiv, ← Int.ofNat_tdiv]
      · rw [← Int.ofNat_tdiv]

/-! ## Clamping -/

theorem toInt_clampInt64 (whole : Int) :
    (clampInt64 whole).toInt =
      max Int64.minValue.toInt (min whole Int64.maxValue.toInt) := by
  have most : Int64.maxValue.toInt = 2 ^ (63 : Nat) - 1 := Int64.toInt_maxValue
  have least : Int64.minValue.toInt = -2 ^ (63 : Nat) := Int64.toInt_minValue
  unfold clampInt64
  split
  · omega
  · split
    · omega
    · rw [Int64.toInt_ofInt_of_le (by omega) (by omega)]
      omega

theorem clampInt64_mono
    {lower upper : Int}
    (ordered : lower ≤ upper) :
    clampInt64 lower ≤ clampInt64 upper := by
  rw [Int64.le_iff_toInt_le, toInt_clampInt64, toInt_clampInt64]
  omega

end Binary64

end IncentivePay
