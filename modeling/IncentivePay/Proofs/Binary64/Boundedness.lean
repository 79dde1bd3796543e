import IncentivePay.Proofs.Binary64.Places

/-!
# Results that stay finite

Rounding a ratio never passes a magnitude of the format, so a product with a
fraction is not larger than its finite factor, and the excess of a finite
number over one that is not negative does not reach infinity.  The difference
itself may be the negative infinity; the larger of it and zero is finite
again.
-/

namespace IncentivePay

attribute [local instance (2000)] instPowNat

/-! ## Rounding -/

theorem log2_le_log2
    {lower upper : Nat}
    (ordered : lower ≤ upper) :
    lower.log2 ≤ upper.log2 := by
  by_cases vanishes : lower = 0
  · simp [vanishes]
  · have nonzero : upper ≠ 0 := by omega
    exact
      (Nat.le_log2 nonzero).2
        (Nat.le_trans (Nat.log2_self_le vanishes) ordered)

theorem roundHalfEven_le
    {numerator denominator whole : Nat}
    (positive : 0 < denominator)
    (atMost : numerator ≤ whole * denominator) :
    roundHalfEven numerator denominator ≤ whole := by
  have quotientAtMost : numerator / denominator ≤ whole :=
    Nat.div_le_of_le_mul (by rwa [Nat.mul_comm])
  rcases Nat.lt_or_eq_of_le quotientAtMost with less | same
  · exact Nat.le_trans (roundHalfEven_le_succ _ _) less
  · have division := Nat.div_add_mod numerator denominator
    rw [same, Nat.mul_comm] at division
    have nothingLeft : numerator % denominator = 0 := by omega
    unfold roundHalfEven
    dsimp only
    rw [nothingLeft, Nat.mul_zero, if_pos positive]
    exact quotientAtMost

/-- Rounding does not pass a magnitude of the format. -/
theorem nearestUnits_le
    {numerator denominator units : Nat}
    (positive : 0 < denominator)
    (aligned : 2 ^ spacingExponent units ∣ units)
    (atMost : numerator ≤ units * denominator) :
    nearestUnits numerator denominator ≤ units := by
  have quotientAtMost : numerator / denominator ≤ units :=
    Nat.div_le_of_le_mul (by rwa [Nat.mul_comm])
  -- The spacing of a lesser ratio is finer, so the magnitude is a multiple of it.
  have finer :
      spacingExponent (numerator / denominator) ≤ spacingExponent units := by
    unfold spacingExponent
    exact Nat.sub_le_sub_right (log2_le_log2 quotientAtMost) 52
  obtain ⟨count, multiple⟩ :=
    Nat.dvd_trans (Nat.pow_dvd_pow 2 finer) aligned
  unfold nearestUnits
  dsimp only
  have spacingPositive :=
    Nat.two_pow_pos (spacingExponent (numerator / denominator))
  generalize 2 ^ spacingExponent (numerator / denominator) = spacing at *
  have rounded :
      roundHalfEven numerator (denominator * spacing) ≤ count := by
    apply roundHalfEven_le (Nat.mul_pos positive spacingPositive)
    calc numerator
        ≤ units * denominator := atMost
      _ = count * (denominator * spacing) := by
          rw [multiple, Nat.mul_comm spacing, Nat.mul_assoc,
            Nat.mul_comm spacing]
  calc roundHalfEven numerator (denominator * spacing) * spacing
      ≤ count * spacing := Nat.mul_le_mul_right spacing rounded
    _ = units := by rw [multiple, Nat.mul_comm]

namespace Binary64

/--
A ratio that is at most a magnitude of the format is rounded to a finite
number.
-/
theorem isFinite_ofRatio
    {numerator denominator units : Nat}
    (negative : Bool)
    (positive : 0 < denominator)
    (representable : Representable units)
    (atMost : numerator ≤ units * denominator) :
    (ofRatio negative numerator denominator).isFinite = true := by
  have below : nearestUnits numerator denominator < unitBound :=
    Nat.lt_of_le_of_lt
      (nearestUnits_le positive representable.aligned atMost)
      representable.below
  rw [ofRatio, dif_pos below]
  rfl

/-! ## Products with a fraction -/

theorem place?_one : one.place? = some (unitsPerOne : Int) := by
  have whole : Representable (1 * unitsPerOne) :=
    representable_mul_unitsPerOne (by decide)
  rw [one, ofNat, ofUnits_of_representable false whole, place?, signedUnits,
    Nat.one_mul]
  rfl

theorem unitsPerOne_lt_unitBound : unitsPerOne < unitBound := by
  have several : 2 ^ 1 ≤ wholeBound := two_pow_le_wholeBound (by decide)
  rw [unitBound_eq]
  exact (Nat.lt_mul_iff_one_lt_left unitsPerOne_pos).2 several

theorem natAbs_signedUnits
    (negative : Bool)
    (units : Nat) :
    (signedUnits negative units).natAbs = units := by
  cases negative <;> simp [signedUnits]

/-- A number from zero to one has at most the units of one. -/
theorem exists_units_of_fraction
    {rate : Binary64}
    (nonnegative : zero.isAtMost rate = true)
    (atMostOne : rate.isAtMost one = true) :
    ∃ negative units representable,
      rate = .finite negative units representable ∧ units ≤ unitsPerOne := by
  obtain ⟨place, stands, notNegative⟩ :=
    exists_place_of_zero_isAtMost nonnegative
  rw [isAtMost_of_places stands place?_one] at atMostOne
  have bounded : place.natAbs ≤ unitsPerOne := by
    have := of_decide_eq_true atMostOne
    omega
  cases rate with
  | nan => simp [place?] at stands
  | infinite negative =>
      obtain rfl := Option.some.inj stands
      rw [natAbs_signedUnits] at bounded
      exact absurd unitsPerOne_lt_unitBound (Nat.not_lt.2 bounded)
  | finite negative units representable =>
      obtain rfl := Option.some.inj stands
      rw [natAbs_signedUnits] at bounded
      exact ⟨negative, units, representable, rfl, bounded⟩

/-- A finite number times a fraction is finite. -/
theorem isFinite_multiply
    {value rate : Binary64}
    (isFinite : value.isFinite = true)
    (nonnegative : zero.isAtMost rate = true)
    (atMostOne : rate.isAtMost one = true) :
    (value.multiply rate).isFinite = true := by
  obtain ⟨rateNegative, rateUnits, rateRepresentable, rfl, atMost⟩ :=
    exists_units_of_fraction nonnegative atMostOne
  cases value with
  | nan => simp [Binary64.isFinite] at isFinite
  | infinite negative => simp [Binary64.isFinite] at isFinite
  | finite negative units representable =>
      rw [multiply]
      exact
        isFinite_ofRatio _ unitsPerOne_pos representable
          (Nat.mul_le_mul_left units atMost)

/-! ## The excess over a threshold -/

theorem isLess_zero_of_negative_infinity :
    (infinite true).isLess zero = true := by
  rw [isLess_of_places rfl place?_zero, signedUnits, if_pos rfl]
  have := unitBound_pos
  exact decide_eq_true (by omega)

/-- What is not infinitely large is finite once it is at least zero. -/
theorem isFinite_maxPresent_zero
    {value : Binary64}
    (bounded : value ≠ infinity) :
    (value.maxPresent zero).isFinite = true := by
  cases value with
  | nan => rfl
  | infinite negative =>
      cases negative with
      | false => exact absurd rfl bounded
      | true =>
          rw [maxPresent, isLess_zero_of_negative_infinity]
          rfl
  | finite negative units representable =>
      unfold maxPresent
      split
      · rfl
      · split <;> rfl

theorem ne_infinity_of_isFinite
    {value : Binary64}
    (isFinite : value.isFinite = true) :
    value ≠ infinity := by
  rintro rfl
  simp [Binary64.isFinite, infinity] at isFinite

theorem ofUnits_true_ne_infinity (units : Nat) :
    ofUnits true units ≠ infinity := by
  unfold ofUnits ofRatio
  split <;> simp [infinity]

/--
A finite number less a number that is not negative is not infinitely large.
-/
theorem subtract_ne_infinity
    {value threshold : Binary64}
    (isFinite : value.isFinite = true)
    (nonnegative : zero.isAtMost threshold = true) :
    value.subtract threshold ≠ infinity := by
  obtain ⟨place, stands, notNegative⟩ :=
    exists_place_of_zero_isAtMost nonnegative
  cases value with
  | nan => simp [Binary64.isFinite] at isFinite
  | infinite negative => simp [Binary64.isFinite] at isFinite
  | finite negative units representable =>
      cases threshold with
      | nan => simp [place?] at stands
      | infinite thresholdNegative =>
          obtain rfl := Option.some.inj stands
          cases thresholdNegative with
          | false => simp [subtract, negate, add, infinity]
          | true =>
              have := unitBound_pos
              rw [signedUnits, if_pos rfl] at notNegative
              omega
      | finite thresholdNegative thresholdUnits thresholdRepresentable =>
          obtain rfl := Option.some.inj stands
          have negated :
              signedUnits (!thresholdNegative) thresholdUnits ≤ 0 := by
            cases thresholdNegative <;> simp_all [signedUnits]
          have atMost : signedUnits negative units ≤ units := by
            unfold signedUnits
            split <;> omega
          simp only [subtract, negate, add]
          generalize signedUnits (!thresholdNegative) thresholdUnits = less at *
          generalize signedUnits negative units = more at *
          split
          · exact ne_infinity_of_isFinite rfl
          · rename_i nonzero
            by_cases below : more + less < 0
            · rw [decide_eq_true below]
              exact ofUnits_true_ne_infinity _
            · -- The difference is positive here, and at most the minuend.
              apply ne_infinity_of_isFinite
              apply isFinite_ofRatio _ Nat.one_pos representable
              omega

end Binary64

end IncentivePay
