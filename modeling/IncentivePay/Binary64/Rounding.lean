import IncentivePay.Binary64.Basic

/-!
# Rounding a ratio to the format

`Binary64.ofRatio` is the one place where a result is rounded.  It takes a
sign and an exact magnitude, given as a ratio of natural numbers counted in
units, and delivers the nearest number of the format; a magnitude halfway
between two numbers goes to the one whose significand is even, and a
magnitude that rounds to `2 ^ 1024` or more becomes an infinity.

The magnitude is divided by the spacing at its own place, rounded there to a
whole number, and multiplied back.  `nearestUnits_aligned` shows that this
lands in the format also when the rounding carries into the next power of
two.
-/

namespace IncentivePay

attribute [local instance (2000)] instPowNat

/-- The whole number nearest to a ratio, an exact half going to the even one. -/
def roundHalfEven
    (numerator denominator : Nat) :
    Nat :=
  let quotient := numerator / denominator
  let remainder := numerator % denominator
  if 2 * remainder < denominator then
    quotient
  else if denominator < 2 * remainder then
    quotient + 1
  else
    quotient + quotient % 2

/-- The magnitude, in units, that is nearest to a ratio of units. -/
def nearestUnits
    (numerator denominator : Nat) :
    Nat :=
  let spacing := 2 ^ spacingExponent (numerator / denominator)
  roundHalfEven numerator (denominator * spacing) * spacing

theorem roundHalfEven_le_succ
    (numerator denominator : Nat) :
    roundHalfEven numerator denominator ≤
      numerator / denominator + 1 := by
  unfold roundHalfEven
  dsimp only
  split
  · omega
  · split <;> omega

theorem le_roundHalfEven
    (numerator denominator : Nat) :
    numerator / denominator ≤
      roundHalfEven numerator denominator := by
  unfold roundHalfEven
  dsimp only
  split
  · omega
  · split <;> omega

/-- A magnitude of at most fifty-three digits at some spacing is aligned. -/
theorem aligned_mul_two_pow
    {significand : Nat}
    (exponent : Nat)
    (bound : significand ≤ 2 ^ (53 : Nat)) :
    2 ^ spacingExponent (significand * 2 ^ exponent) ∣
      significand * 2 ^ exponent := by
  unfold spacingExponent
  by_cases vanishes : significand = 0
  · subst vanishes
    simp
  · have nonzero : significand * 2 ^ exponent ≠ 0 :=
      Nat.mul_ne_zero vanishes (Nat.ne_of_gt (Nat.two_pow_pos exponent))
    by_cases full : significand = 2 ^ (53 : Nat)
    · subst full
      rw [← Nat.pow_add, Nat.log2_two_pow]
      exact Nat.pow_dvd_pow 2 (by omega)
    · have small : significand * 2 ^ exponent < 2 ^ (53 + exponent) := by
        rw [Nat.pow_add]
        exact
          Nat.mul_lt_mul_of_pos_right
            (Nat.lt_of_le_of_ne bound full)
            (Nat.two_pow_pos exponent)
      have logarithm :
          (significand * 2 ^ exponent).log2 < 53 + exponent :=
        (Nat.log2_lt nonzero).2 small
      exact
        Nat.dvd_trans
          (Nat.pow_dvd_pow 2 (by omega))
          (Nat.dvd_mul_left _ _)

/-- The scaled quotient has at most fifty-three binary digits. -/
theorem quotient_lt
    (numerator denominator : Nat) :
    numerator /
        (denominator * 2 ^ spacingExponent (numerator / denominator)) <
      2 ^ (53 : Nat) := by
  rw [← Nat.div_div_eq_div_mul]
  apply Nat.div_lt_of_lt_mul
  rw [← Nat.pow_add]
  calc
    numerator / denominator <
        2 ^ ((numerator / denominator).log2 + 1) :=
      Nat.lt_log2_self
    _ ≤ 2 ^ (spacingExponent (numerator / denominator) + 53) :=
      Nat.pow_le_pow_right (by decide)
        (by unfold spacingExponent; omega)

theorem nearestUnits_aligned
    (numerator denominator : Nat) :
    2 ^ spacingExponent (nearestUnits numerator denominator) ∣
      nearestUnits numerator denominator := by
  apply aligned_mul_two_pow
  exact
    Nat.le_trans
      (roundHalfEven_le_succ _ _)
      (quotient_lt numerator denominator)

/-- A magnitude of the format is its own rounding. -/
theorem nearestUnits_of_aligned
    {units : Nat}
    (aligned : 2 ^ spacingExponent units ∣ units) :
    nearestUnits units 1 = units := by
  obtain ⟨significand, equality⟩ := aligned
  have positive := Nat.two_pow_pos (spacingExponent units)
  unfold nearestUnits
  simp only [Nat.div_one, Nat.one_mul]
  generalize 2 ^ spacingExponent units = spacing at *
  subst equality
  simp only [roundHalfEven, Nat.mul_mod_right,
    Nat.mul_div_cancel_left significand positive, Nat.mul_zero, positive,
    if_true]
  exact Nat.mul_comm significand spacing

namespace Binary64

/-- The number nearest to a sign and a ratio of units. -/
def ofRatio
    (negative : Bool)
    (numerator denominator : Nat) :
    Binary64 :=
  if below : nearestUnits numerator denominator < unitBound then
    .finite negative (nearestUnits numerator denominator)
      ⟨below, nearestUnits_aligned numerator denominator⟩
  else
    .infinite negative

/-- The number nearest to a sign and a whole number of units. -/
def ofUnits
    (negative : Bool)
    (units : Nat) :
    Binary64 :=
  ofRatio negative units 1

/-- The number nearest to an integer. -/
def ofInt (value : Int) : Binary64 :=
  ofUnits (value < 0) (value.natAbs * unitsPerOne)

/-- The number nearest to a natural number. -/
def ofNat (value : Nat) : Binary64 :=
  ofUnits false (value * unitsPerOne)

/-- One. -/
def one : Binary64 :=
  ofNat 1

/-- One half. -/
def half : Binary64 :=
  ofUnits false (unitsPerOne / 2)

/-- A magnitude of the format is kept exactly. -/
theorem ofUnits_of_representable
    (negative : Bool)
    {units : Nat}
    (representable : Representable units) :
    ofUnits negative units = .finite negative units representable := by
  have kept := nearestUnits_of_aligned representable.aligned
  have below := representable.below
  unfold ofUnits ofRatio
  simp only [kept, below, dif_pos]

end Binary64

end IncentivePay
