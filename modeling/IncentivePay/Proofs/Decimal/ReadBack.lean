import IncentivePay.Decimal.Shortest

/-!
# The shortest decimal reads back

Rounding depends on the value of a ratio only, so zeros may move between the
coefficient of a decimal and its exponent.  Every candidate for the shortest
decimal reads back to the magnitude it is written for, the exact expansion
included, and what reads back to a magnitude of the format is that number of
the format.
-/

namespace IncentivePay

attribute [local instance (2000)] instPowNat

/-! ## Rounding a ratio that is extended -/

theorem roundHalfEven_mul_right
    (numerator denominator : Nat)
    {factor : Nat}
    (positive : 0 < factor) :
    roundHalfEven (numerator * factor) (denominator * factor) =
      roundHalfEven numerator denominator := by
  unfold roundHalfEven
  dsimp only
  rw [Nat.mul_div_mul_right _ _ positive, Nat.mul_mod_mul_right,
    ← Nat.mul_assoc]
  simp only [Nat.mul_lt_mul_right positive]

theorem nearestUnits_mul_right
    (numerator denominator : Nat)
    {factor : Nat}
    (positive : 0 < factor) :
    nearestUnits (numerator * factor) (denominator * factor) =
      nearestUnits numerator denominator := by
  unfold nearestUnits
  dsimp only
  rw [Nat.mul_div_mul_right _ _ positive, Nat.mul_right_comm denominator,
    roundHalfEven_mul_right _ _ positive]

/-- Less than half a unit rounds to nought. -/
theorem nearestUnits_of_lt_half
    {numerator denominator : Nat}
    (small : 2 * numerator < denominator) :
    nearestUnits numerator denominator = 0 := by
  have quotient : numerator / denominator = 0 :=
    Nat.div_eq_of_lt (by omega)
  have remainder : numerator % denominator = numerator :=
    Nat.mod_eq_of_lt (by omega)
  have spacing : 2 ^ spacingExponent 0 = 1 := by decide
  unfold nearestUnits
  dsimp only
  rw [quotient, spacing, Nat.mul_one, Nat.mul_one]
  simp [roundHalfEven, quotient, remainder, small]

namespace Decimal

theorem nearestUnits_zero (exponent : Int) :
    nearestUnits ⟨0, exponent⟩ = 0 := by
  unfold nearestUnits
  split
  · apply nearestUnits_of_lt_half
    simp
  · apply nearestUnits_of_lt_half
    simp only [Nat.zero_mul, Nat.mul_zero]
    exact Nat.pow_pos (by decide)

theorem nearestUnits_ofNat
    (coefficient exponent : Nat) :
    nearestUnits ⟨coefficient, .ofNat exponent⟩ =
      IncentivePay.nearestUnits (coefficient * 10 ^ exponent * unitsPerOne) 1 :=
  rfl

theorem nearestUnits_negSucc
    (coefficient exponent : Nat) :
    nearestUnits ⟨coefficient, .negSucc exponent⟩ =
      IncentivePay.nearestUnits (coefficient * unitsPerOne)
        (10 ^ (exponent + 1)) :=
  rfl

/-- A zero moves from the coefficient into the exponent. -/
theorem nearestUnits_mul_ten
    (coefficient : Nat)
    (exponent : Int) :
    nearestUnits ⟨coefficient * 10, exponent⟩ =
      nearestUnits ⟨coefficient, exponent + 1⟩ := by
  have ten : 0 < 10 := by decide
  match exponent with
  | .ofNat places =>
      have next : Int.ofNat places + 1 = .ofNat (places + 1) := rfl
      rw [next, nearestUnits_ofNat, nearestUnits_ofNat, Nat.mul_assoc coefficient,
        Nat.pow_succ, Nat.mul_comm 10]
  | .negSucc 0 =>
      have next : Int.negSucc 0 + 1 = .ofNat 0 := rfl
      rw [next, nearestUnits_negSucc, nearestUnits_ofNat,
        Nat.mul_right_comm, Nat.pow_zero, Nat.mul_one, Nat.zero_add,
        ← nearestUnits_mul_right (coefficient * unitsPerOne) 1 ten]
  | .negSucc (places + 1) =>
      have next : Int.negSucc (places + 1) + 1 = .negSucc places := rfl
      rw [next, nearestUnits_negSucc, nearestUnits_negSucc,
        Nat.mul_right_comm, Nat.pow_succ 10 (places + 1),
        nearestUnits_mul_right _ _ ten]

/-- Stripping zeros keeps the magnitude. -/
theorem nearestUnits_stripZeros
    (coefficient : Nat)
    (exponent : Int) :
    (stripZeros coefficient exponent).nearestUnits =
      nearestUnits ⟨coefficient, exponent⟩ := by
  fun_induction stripZeros coefficient exponent with
  | case1 coefficient exponent _ endsInZero ih =>
      rw [ih, ← nearestUnits_mul_ten, Nat.div_mul_cancel]
      exact Nat.dvd_of_mod_eq_zero endsInZero
  | case2 => rfl
  | case3 coefficient exponent vanishes =>
      have isZero : coefficient = 0 := by omega
      rw [isZero, nearestUnits_zero, nearestUnits_zero]

theorem nearestUnits_stripZeros_self (decimal : Decimal) :
    (stripZeros decimal.coefficient decimal.exponent).nearestUnits =
      decimal.nearestUnits := by
  cases decimal with
  | mk coefficient exponent => exact nearestUnits_stripZeros _ _

/-! ## The candidates -/

theorem nearestUnits_of_neighbour?
    {units count digits : Nat}
    {decimal : Decimal}
    (found : neighbour? units count digits = some decimal) :
    decimal.nearestUnits = units := by
  unfold neighbour? at found
  dsimp only at found
  split at found
  · rename_i both
    split at found
    · rw [← Option.some.inj found]
      exact both.1
    · rw [← Option.some.inj found]
      exact both.2
  · split at found
    · rename_i lower
      rw [← Option.some.inj found]
      exact lower
    · split at found
      · rename_i upper
        rw [← Option.some.inj found]
        exact upper
      · contradiction

/-- A magnitude of the format, expanded by as many fives as one has twos. -/
theorem nearestUnits_expansion
    {units places power : Nat}
    (representable : Representable units)
    (isNext : places + 1 = power)
    (twos : unitsPerOne = 2 ^ power) :
    nearestUnits ⟨units * 5 ^ power, .negSucc places⟩ = units := by
  have positive : 0 < 10 ^ power := Nat.pow_pos (by decide)
  have scaled := nearestUnits_mul_right units 1 positive
  rw [Nat.one_mul] at scaled
  rw [nearestUnits_negSucc, isNext, twos, Nat.mul_assoc, ← Nat.mul_pow,
    scaled, nearestUnits_of_aligned representable.aligned]

/-- The exact expansion of a magnitude of the format reads back. -/
theorem nearestUnits_exact
    {units : Nat}
    (representable : Representable units) :
    (exact units).nearestUnits = units := by
  have exponent : (-1074 : Int) = .negSucc 1073 := rfl
  rw [exact, exponent]
  apply nearestUnits_expansion representable
  · rfl
  · rw [unitsPerOne]

/-- A candidate that reads back, and the exact expansion where there is none. -/
theorem nearestUnits_getD_exact
    {units : Nat}
    (representable : Representable units)
    {candidate? : Option Decimal}
    (readsBack :
      ∀ candidate, candidate? = some candidate → candidate.nearestUnits = units) :
    (candidate?.getD (exact units)).nearestUnits = units := by
  cases candidate? with
  | none => exact nearestUnits_exact representable
  | some candidate => exact readsBack candidate rfl

theorem nearestUnits_shortestCandidate
    {units : Nat}
    (representable : Representable units) :
    (shortestCandidate units).nearestUnits = units := by
  apply nearestUnits_getD_exact representable
  intro candidate found
  obtain ⟨digits, -, isNeighbour⟩ := List.exists_of_findSome?_eq_some found
  exact nearestUnits_of_neighbour? isNeighbour

/-- The shortest decimal of a magnitude of the format reads back. -/
theorem nearestUnits_shortest
    {units : Nat}
    (representable : Representable units) :
    (shortest units).nearestUnits = units := by
  rw [shortest, nearestUnits_stripZeros_self,
    nearestUnits_shortestCandidate representable]

/-! ## The number -/

/--
Two are fewer units than the power of ten by which a decimal may underflow.
-/
theorem two_mul_unitsPerOne_le :
    ∃ more : Nat, more = 325 ∧ 2 * unitsPerOne ≤ 10 ^ more :=
  ⟨325, rfl, by decide +kernel⟩

theorem mul_ten_pow_lt
    {coefficient digits more places : Nat}
    (bound : coefficient < 10 ^ digits)
    (fits : digits + more ≤ places) :
    coefficient * 10 ^ more < 10 ^ places :=
  calc coefficient * 10 ^ more
      < 10 ^ digits * 10 ^ more :=
        Nat.mul_lt_mul_of_pos_right bound (Nat.pow_pos (by decide))
    _ = 10 ^ (digits + more) := (Nat.pow_add 10 digits more).symm
    _ ≤ 10 ^ places := Nat.pow_le_pow_right (by decide) fits

/-- A decimal below the underflow is less than half a unit. -/
theorem nearestUnits_of_underflow
    {decimal : Decimal}
    (small :
      decimal.exponent + digitCount decimal.coefficient < underflowExponent) :
    decimal.nearestUnits = 0 := by
  obtain ⟨coefficient, exponent⟩ := decimal
  match exponent with
  | .ofNat places =>
      simp only [underflowExponent, Int.ofNat_eq_natCast] at small
      omega
  | .negSucc places =>
      simp only [underflowExponent, Int.negSucc_eq] at small
      have digitsPositive : 0 < digitCount coefficient :=
        Nat.length_toDigits_pos
      have bound : coefficient < 10 ^ digitCount coefficient :=
        (Nat.length_toDigits_le_iff (by decide) digitsPositive).1
          (Nat.le_refl _)
      obtain ⟨more, isMore, unitsBound⟩ := two_mul_unitsPerOne_le
      rw [nearestUnits_negSucc]
      apply nearestUnits_of_lt_half
      calc 2 * (coefficient * unitsPerOne)
          = coefficient * (2 * unitsPerOne) := Nat.mul_left_comm _ _ _
        _ ≤ coefficient * 10 ^ more := Nat.mul_le_mul_left _ unitsBound
        _ < 10 ^ (places + 1) := mul_ten_pow_lt bound (by omega)

/-- What reads back to a magnitude of the format is the number of the format. -/
theorem toBinary64_of_nearestUnits
    {decimal : Decimal}
    {units : Nat}
    (readsBack : decimal.nearestUnits = units)
    (representable : Representable units)
    (noOverflow : decimal.exponent < overflowExponent)
    (negative : Bool) :
    decimal.toBinary64 negative = .finite negative units representable := by
  have ofRatio
      {numerator denominator : Nat}
      (same : IncentivePay.nearestUnits numerator denominator = units) :
      Binary64.ofRatio negative numerator denominator =
        .finite negative units representable := by
    subst same
    exact dif_pos representable.below
  have ofZero (vanishes : units = 0) :
      Binary64.signedZero negative =
        .finite negative units representable := by
    subst vanishes
    rfl
  obtain ⟨coefficient, exponent⟩ := decimal
  unfold toBinary64
  dsimp only at *
  split
  · rename_i isZero
    apply ofZero
    rw [← readsBack, isZero, nearestUnits_zero]
  · rw [if_neg (Int.not_le.2 noOverflow)]
    split
    · rename_i small
      exact ofZero (readsBack.symm.trans (nearestUnits_of_underflow small))
    · cases exponent with
      | ofNat places =>
          rw [nearestUnits_ofNat] at readsBack
          exact ofRatio readsBack
      | negSucc places =>
          rw [nearestUnits_negSucc] at readsBack
          exact ofRatio readsBack

end Decimal

end IncentivePay
