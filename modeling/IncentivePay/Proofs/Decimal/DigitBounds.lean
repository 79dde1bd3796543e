import IncentivePay.Proofs.Binary64.Boundedness
import IncentivePay.Proofs.Decimal.ReadBack

/-!
# Seventeen digits suffice

A ratio that misses a magnitude of the format by less than one part in
`2 ^ 54` is rounded to it, because the format keeps fifty-three binary digits.
On the grid of seventeen decimal digits one of the two neighbours is that near,
so the exact expansion, which may have hundreds of digits, is never written.
That bounds the length of the text of every number.
-/

namespace IncentivePay

attribute [local instance (2000)] instPowNat

/-! ## Rounding what is near -/

/--
A ratio that misses a whole number by less than one half is rounded to it.
-/
theorem roundHalfEven_of_near
    {numerator denominator whole : Nat}
    (below : 2 * numerator < 2 * (whole * denominator) + denominator)
    (above : 2 * (whole * denominator) < 2 * numerator + denominator) :
    roundHalfEven numerator denominator = whole := by
  have positive : 0 < denominator := by omega
  have division := Nat.div_add_mod' numerator denominator
  have remainder := Nat.mod_lt numerator positive
  unfold roundHalfEven
  dsimp only
  generalize numerator / denominator = quotient at *
  generalize numerator % denominator = left at *
  have notMore : quotient < whole + 1 := by
    refine Nat.lt_of_mul_lt_mul_right (a := denominator) ?_
    rw [Nat.succ_mul]
    omega
  have notLess : whole < quotient + 2 := by
    refine Nat.lt_of_mul_lt_mul_right (a := denominator) ?_
    rw [Nat.add_mul]
    omega
  -- The quotient is the whole number, or the one below it when the ratio is less.
  rcases Nat.lt_or_eq_of_le (Nat.le_of_lt_succ notMore) with less | rfl
  · obtain rfl : whole = quotient + 1 := by omega
    rw [Nat.succ_mul quotient] at below above
    rw [if_neg (by omega), if_pos (by omega)]
  · rw [if_pos (by omega)]

/-- A magnitude has at most fifty-three digits at its own spacing. -/
theorem lt_mul_spacing (units : Nat) :
    units < 2 ^ (53 : Nat) * 2 ^ spacingExponent units := by
  rw [← Nat.pow_add]
  calc units
      < 2 ^ (units.log2 + 1) := Nat.lt_log2_self
    _ ≤ 2 ^ (53 + spacingExponent units) :=
      Nat.pow_le_pow_right (by decide) (by unfold spacingExponent; omega)

/-- The ratio misses the magnitude by less than one part in `2 ^ 54`. -/
structure IsNear
    (numerator denominator units : Nat) :
    Prop where
  below :
    2 ^ (54 : Nat) * numerator <
      2 ^ (54 : Nat) * (units * denominator) + units * denominator
  above :
    2 ^ (54 : Nat) * (units * denominator) <
      2 ^ (54 : Nat) * numerator + units * denominator

namespace IsNear

variable {numerator denominator units spacing : Nat}

/--
Where the spacing is wide enough, what is near is less than half of it away.
-/
theorem within_half
    (near : IsNear numerator denominator units)
    (wide : units ≤ 2 ^ (53 : Nat) * spacing) :
    2 * numerator < 2 * (units * denominator) + spacing * denominator ∧
      2 * (units * denominator) < 2 * numerator + spacing * denominator := by
  have wide : units * denominator ≤ 2 ^ (53 : Nat) * (spacing * denominator) := by
    rw [← Nat.mul_assoc]
    exact Nat.mul_le_mul_right denominator wide
  have below := near.below
  have above := near.above
  omega

theorem denominator_pos (near : IsNear numerator denominator units) :
    0 < denominator := by
  have below := near.below
  have above := near.above
  rcases Nat.eq_zero_or_pos denominator with rfl | positive
  · simp only [Nat.mul_zero] at below above
    omega
  · exact positive

/-- What is near a magnitude lies in no higher power of two. -/
theorem log2_quotient_le
    (near : IsNear numerator denominator units)
    (aligned : 2 ^ spacingExponent units ∣ units) :
    (numerator / denominator).log2 ≤ units.log2 := by
  obtain ⟨below, -⟩ := near.within_half (Nat.le_of_lt (lt_mul_spacing units))
  have nonzero : numerator / denominator < 2 ^ (units.log2 + 1) := by
    apply Nat.div_lt_of_lt_mul
    -- The next power of two is a whole spacing away at least.
    have divides : 2 ^ spacingExponent units ∣ 2 ^ (units.log2 + 1) :=
      Nat.pow_dvd_pow 2 (by unfold spacingExponent; omega)
    have away :
        units + 2 ^ spacingExponent units ≤ 2 ^ (units.log2 + 1) :=
      Nat.le_of_lt_add_of_dvd (Nat.add_lt_add_right Nat.lt_log2_self _)
        (Nat.dvd_add aligned (Nat.dvd_refl _)) divides
    have bound := Nat.mul_le_mul_right denominator away
    have positive :=
      Nat.mul_pos (Nat.two_pow_pos (spacingExponent units)) near.denominator_pos
    rw [Nat.add_mul] at bound
    rw [Nat.mul_comm denominator]
    omega
  rcases Nat.eq_zero_or_pos (numerator / denominator) with zero | positive
  · rw [zero]
    exact Nat.zero_le _
  · exact Nat.le_of_lt_succ ((Nat.log2_lt (Nat.ne_of_gt positive)).2 nonzero)

/-- What is near a magnitude is at most one power of two lower. -/
theorem log2_le_succ (near : IsNear numerator denominator units) :
    units.log2 ≤ (numerator / denominator).log2 + 1 := by
  have atLeastHalf : units * denominator ≤ 2 * numerator := by
    have above := near.above
    omega
  cases logarithm : units.log2 with
  | zero => exact Nat.zero_le _
  | succ lower =>
      have nonzero : units ≠ 0 := by
        rintro rfl
        simp at logarithm
      have power : 2 ^ (lower + 1) ≤ units := by
        rw [← logarithm]
        exact Nat.log2_self_le nonzero
      have reached : 2 ^ lower ≤ numerator / denominator := by
        rw [Nat.le_div_iff_mul_le near.denominator_pos]
        have product := Nat.mul_le_mul_right denominator power
        rw [Nat.pow_succ, Nat.mul_right_comm] at product
        omega
      have positive := Nat.lt_of_lt_of_le (Nat.two_pow_pos lower) reached
      exact
        Nat.succ_le_succ ((Nat.le_log2 (Nat.ne_of_gt positive)).2 reached)

/--
At the spacing of the ratio, the magnitude has at most fifty-three digits.
-/
theorem le_mul_spacing
    (near : IsNear numerator denominator units)
    (aligned : 2 ^ spacingExponent units ∣ units) :
    units ≤
      2 ^ (53 : Nat) * 2 ^ spacingExponent (numerator / denominator) := by
  have oneLower := near.log2_le_succ
  rw [← Nat.pow_add]
  apply Nat.le_of_not_lt
  intro beyond
  -- The ratio is below the bound, and the magnitude a whole spacing above it.
  have ratioBelow :
      numerator / denominator <
        2 ^ (53 + spacingExponent (numerator / denominator)) := by
    calc numerator / denominator
        < 2 ^ ((numerator / denominator).log2 + 1) := Nat.lt_log2_self
      _ ≤ 2 ^ (53 + spacingExponent (numerator / denominator)) :=
        Nat.pow_le_pow_right (by decide) (by unfold spacingExponent; omega)
  have divides :
      2 ^ spacingExponent units ∣
        2 ^ (53 + spacingExponent (numerator / denominator)) :=
    Nat.pow_dvd_pow 2 (by unfold spacingExponent; omega)
  generalize 2 ^ (53 + spacingExponent (numerator / denominator)) = bound at *
  have numeratorBelow : numerator < bound * denominator :=
    (Nat.div_lt_iff_lt_mul near.denominator_pos).1 ratioBelow
  have away : bound + 2 ^ spacingExponent units ≤ units :=
    Nat.le_of_lt_add_of_dvd (Nat.add_lt_add_right beyond _)
      (Nat.dvd_add divides (Nat.dvd_refl _)) aligned
  have awayProduct := Nat.mul_le_mul_right denominator away
  have spaced :=
    Nat.mul_le_mul_right denominator (Nat.le_of_lt (lt_mul_spacing units))
  have above := near.above
  rw [Nat.add_mul] at awayProduct
  rw [Nat.mul_assoc] at spaced
  omega

/-- What is near a magnitude of the format is rounded to it. -/
theorem nearestUnits_eq
    (near : IsNear numerator denominator units)
    (aligned : 2 ^ spacingExponent units ∣ units) :
    nearestUnits numerator denominator = units := by
  have finer :
      2 ^ spacingExponent (numerator / denominator) ∣
        2 ^ spacingExponent units := by
    apply Nat.pow_dvd_pow
    have notHigher := near.log2_quotient_le aligned
    unfold spacingExponent
    omega
  obtain ⟨whole, isMultiple⟩ := Nat.dvd_trans finer aligned
  obtain ⟨below, above⟩ := near.within_half (near.le_mul_spacing aligned)
  unfold nearestUnits
  dsimp only
  generalize 2 ^ spacingExponent (numerator / denominator) = spacing at *
  subst isMultiple
  have sameProduct :
      spacing * whole * denominator = whole * (denominator * spacing) := by
    rw [Nat.mul_comm spacing, Nat.mul_assoc, Nat.mul_comm spacing]
  rw [sameProduct, Nat.mul_comm spacing denominator] at below above
  rw [roundHalfEven_of_near below above, Nat.mul_comm]

end IsNear

namespace Decimal

/-! ## Seventeen digits -/

theorem ten_pow_le_of_lt_digitCount
    {places value : Nat}
    (positive : 0 < places)
    (fewer : places < digitCount value) :
    10 ^ places ≤ value := by
  apply Nat.le_of_not_lt
  intro below
  exact
    Nat.not_lt.2 ((Nat.length_toDigits_le_iff (by decide) positive).2 below)
      fewer

theorem lt_digitCount_of_ten_pow_le
    {places value : Nat}
    (positive : 0 < places)
    (reached : 10 ^ places ≤ value) :
    places < digitCount value := by
  apply Nat.lt_of_not_le
  intro few
  exact
    Nat.not_lt.2 reached
      ((Nat.length_toDigits_le_iff (by decide) positive).1 few)

/-- A decimal on a grid of so many places, as a ratio. -/
theorem nearestUnits_grid
    (coefficient dropped places : Nat) :
    nearestUnits ⟨coefficient, (dropped : Int) - (places : Int)⟩ =
      IncentivePay.nearestUnits
        (coefficient * (unitsPerOne * 10 ^ dropped)) (10 ^ places) := by
  induction dropped generalizing coefficient with
  | zero =>
      cases places with
      | zero =>
          have exponent : ((0 : Nat) : Int) - ((0 : Nat) : Int) = .ofNat 0 := rfl
          rw [exponent, nearestUnits_ofNat, Nat.pow_zero, Nat.mul_one,
            Nat.mul_one]
      | succ more =>
          have exponent :
              ((0 : Nat) : Int) - ((more + 1 : Nat) : Int) =
                .negSucc more := by
            rw [Int.negSucc_eq]
            omega
          rw [exponent, nearestUnits_negSucc, Nat.pow_zero, Nat.mul_one]
  | succ dropped ih =>
      have exponent :
          ((dropped + 1 : Nat) : Int) - (places : Int) =
            (dropped : Int) - (places : Int) + 1 := by
        omega
      have product :
          coefficient * 10 * (unitsPerOne * 10 ^ dropped) =
            coefficient * (unitsPerOne * 10 ^ (dropped + 1)) := by
        rw [Nat.mul_assoc, Nat.mul_left_comm 10, Nat.pow_succ,
          Nat.mul_comm 10]
      rw [exponent, ← nearestUnits_mul_ten, ih, product]

/--
The guard digits leave every positive magnitude more than seventeen digits.
-/
theorem mostDigits_le_scaledDigitCount
    {units : Nat}
    (positive : 0 < units) :
    mostDigits ≤ scaledDigitCount units := by
  have enough : 10 ^ (16 : Nat) * unitsPerOne ≤ 10 ^ guardDigits := by
    decide +kernel
  apply lt_digitCount_of_ten_pow_le (by decide)
  rw [Nat.le_div_iff_mul_le unitsPerOne_pos]
  exact Nat.le_trans enough (Nat.le_mul_of_pos_left _ positive)

/--
With seventeen digits, a step of the grid is less than one part in `10 ^ 16`.
-/
theorem step_mul_le_scaled
    {units : Nat}
    (positive : 0 < units) :
    unitsPerOne * 10 ^ (scaledDigitCount units - mostDigits) *
        10 ^ (16 : Nat) ≤
      units * 10 ^ guardDigits := by
  have count := mostDigits_le_scaledDigitCount positive
  unfold mostDigits at count ⊢
  have reached :
      10 ^ (scaledDigitCount units - 17 + 16) ≤
        units * 10 ^ guardDigits / unitsPerOne :=
    ten_pow_le_of_lt_digitCount (by omega)
      (by unfold scaledDigitCount at count ⊢; omega)
  rw [Nat.mul_assoc, ← Nat.pow_add, Nat.mul_comm]
  exact (Nat.le_div_iff_mul_le unitsPerOne_pos).1 reached

/-- On a grid as fine as this, the nearer one of the two neighbours is near. -/
theorem isNear_neighbour
    {units scale step : Nat}
    (positive : 0 < step)
    (fine : step * 10 ^ (16 : Nat) ≤ units * scale) :
    IsNear (units * scale / step * step) scale units ∨
      IsNear ((units * scale / step + 1) * step) scale units := by
  have division := Nat.div_add_mod' (units * scale) step
  have remainder := Nat.mod_lt (units * scale) positive
  rw [Nat.succ_mul (units * scale / step)]
  generalize units * scale / step * step = lower at *
  generalize (units * scale) % step = left at *
  by_cases nearer : 2 * left ≤ step
  · exact .inl ⟨by omega, by omega⟩
  · exact .inr ⟨by omega, by omega⟩

/-- One of the two neighbours with seventeen digits reads back. -/
theorem neighbour_readsBack
    {units : Nat}
    (representable : Representable units) :
    let dropped := scaledDigitCount units - mostDigits
    let lower :=
      units * 10 ^ guardDigits / (unitsPerOne * 10 ^ dropped)
    nearestUnits ⟨lower, (dropped : Int) - (guardDigits : Int)⟩ = units ∨
      nearestUnits ⟨lower + 1, (dropped : Int) - (guardDigits : Int)⟩ =
        units := by
  intro dropped lower
  rcases Nat.eq_zero_or_pos units with rfl | positive
  · have nothing : lower = 0 := by simp [lower]
    rw [nothing]
    exact .inl (nearestUnits_zero _)
  · have stepPositive : 0 < unitsPerOne * 10 ^ dropped :=
      Nat.mul_pos unitsPerOne_pos (Nat.pow_pos (by decide))
    rw [nearestUnits_grid, nearestUnits_grid]
    rcases isNear_neighbour stepPositive (step_mul_le_scaled positive) with
      near | near
    · exact .inl (near.nearestUnits_eq representable.aligned)
    · exact .inr (near.nearestUnits_eq representable.aligned)

theorem isSome_neighbour?
    {units : Nat}
    (representable : Representable units) :
    (neighbour? units (scaledDigitCount units) mostDigits).isSome = true := by
  unfold neighbour?
  dsimp only
  rcases neighbour_readsBack representable with readsBack | readsBack
  · rw [readsBack]
    split
    · split <;> rfl
    · simp
  · rw [readsBack]
    split
    · split <;> rfl
    · split
      · rfl
      · simp

/-- So the exact expansion is never taken. -/
theorem exists_neighbour_of_shortestCandidate
    {units : Nat}
    (representable : Representable units) :
    ∃ digits,
      1 ≤ digits ∧
        neighbour? units (scaledDigitCount units) digits =
          some (shortestCandidate units) := by
  have found :
      ((List.range' 1 mostDigits).findSome?
        (neighbour? units (scaledDigitCount units))).isSome = true := by
    rw [List.findSome?_isSome_iff]
    exact ⟨mostDigits, by decide, isSome_neighbour? representable⟩
  obtain ⟨candidate, isCandidate⟩ := Option.isSome_iff_exists.1 found
  obtain ⟨digits, isDigits, isNeighbour⟩ :=
    List.exists_of_findSome?_eq_some isCandidate
  refine ⟨digits, (List.mem_range'_1.1 isDigits).1, ?_⟩
  simp [shortestCandidate, isCandidate, isNeighbour]

/-! ## Decimals of few places -/

/-- The most digits that a number of the format has before the point. -/
def wholeDigits : Nat :=
  309

/-- A decimal with few digits before the point, and few places after it. -/
def IsShort (decimal : Decimal) : Prop :=
  ∃ dropped : Nat,
    decimal.exponent = (dropped : Int) - (guardDigits : Int) ∧
      decimal.coefficient * 10 ^ dropped < 10 ^ (wholeDigits + guardDigits)

theorem bounds_of_neighbour?
    {units count digits : Nat}
    {decimal : Decimal}
    (found : neighbour? units count digits = some decimal) :
    decimal.exponent = ((count - digits : Nat) : Int) - (guardDigits : Int) ∧
      decimal.coefficient ≤
        units * 10 ^ guardDigits / (unitsPerOne * 10 ^ (count - digits)) +
          1 := by
  unfold neighbour? at found
  dsimp only at found
  split at found
  · split at found
    · obtain rfl := Option.some.inj found
      exact ⟨rfl, Nat.le_succ _⟩
    · obtain rfl := Option.some.inj found
      exact ⟨rfl, Nat.le_refl _⟩
  · split at found
    · obtain rfl := Option.some.inj found
      exact ⟨rfl, Nat.le_succ _⟩
    · split at found
      · obtain rfl := Option.some.inj found
        exact ⟨rfl, Nat.le_refl _⟩
      · contradiction

/-- A step of the grid is not much more than the magnitude itself. -/
theorem step_le_scaled
    {units digits : Nat}
    (positive : 1 ≤ digits) :
    unitsPerOne * 10 ^ (scaledDigitCount units - digits) ≤
      units * 10 ^ guardDigits + unitsPerOne := by
  have reached :
      10 ^ (scaledDigitCount units - digits) ≤
        units * 10 ^ guardDigits / unitsPerOne + 1 := by
    have counted : 0 < scaledDigitCount units := Nat.length_toDigits_pos
    rcases Nat.eq_zero_or_pos (scaledDigitCount units - digits) with
      nothing | dropped
    · rw [nothing, Nat.pow_zero]
      exact Nat.le_add_left _ _
    · apply Nat.le_succ_of_le
      apply ten_pow_le_of_lt_digitCount dropped
      unfold scaledDigitCount at *
      omega
  calc unitsPerOne * 10 ^ (scaledDigitCount units - digits)
      ≤ unitsPerOne * (units * 10 ^ guardDigits / unitsPerOne + 1) :=
        Nat.mul_le_mul_left _ reached
    _ = unitsPerOne * (units * 10 ^ guardDigits / unitsPerOne) +
          unitsPerOne := Nat.mul_succ _ _
    _ ≤ units * 10 ^ guardDigits + unitsPerOne :=
      Nat.add_le_add_right (Nat.mul_div_le _ _) _

theorem isShort_of_neighbour?
    {units digits : Nat}
    {decimal : Decimal}
    (representable : Representable units)
    (positive : 1 ≤ digits)
    (found :
      neighbour? units (scaledDigitCount units) digits = some decimal) :
    decimal.IsShort := by
  obtain ⟨exponent, coefficient⟩ := bounds_of_neighbour? found
  refine ⟨_, exponent, ?_⟩
  have stepBound := @step_le_scaled units digits positive
  have largest :
      2 * (unitBound * 10 ^ guardDigits) + unitsPerOne <
        10 ^ (wholeDigits + guardDigits) * unitsPerOne := by
    decide +kernel
  have below :
      units * 10 ^ guardDigits ≤ unitBound * 10 ^ guardDigits :=
    Nat.mul_le_mul_right _ (Nat.le_of_lt representable.below)
  refine Nat.lt_of_mul_lt_mul_right (a := unitsPerOne) ?_
  rw [Nat.mul_assoc, Nat.mul_comm _ unitsPerOne]
  generalize unitsPerOne * 10 ^ (scaledDigitCount units - digits) = step at *
  calc decimal.coefficient * step
      ≤ (units * 10 ^ guardDigits / step + 1) * step :=
        Nat.mul_le_mul_right _ coefficient
    _ = units * 10 ^ guardDigits / step * step + step := Nat.succ_mul _ _
    _ ≤ units * 10 ^ guardDigits + step :=
      Nat.add_le_add_right (Nat.div_mul_le_self _ _) _
    _ ≤ 2 * (unitBound * 10 ^ guardDigits) + unitsPerOne := by omega
    _ < 10 ^ (wholeDigits + guardDigits) * unitsPerOne := largest

theorem isShort_stripZeros
    {coefficient : Nat}
    {exponent : Int}
    (isShort : IsShort ⟨coefficient, exponent⟩) :
    (stripZeros coefficient exponent).IsShort := by
  fun_induction stripZeros coefficient exponent with
  | case1 coefficient exponent _ endsInZero ih =>
      apply ih
      obtain ⟨dropped, isExponent, bounded⟩ := isShort
      refine ⟨dropped + 1, by simp only at isExponent ⊢; omega, ?_⟩
      have divides := Nat.div_mul_cancel (Nat.dvd_of_mod_eq_zero endsInZero)
      calc coefficient / 10 * 10 ^ (dropped + 1)
          = coefficient / 10 * 10 * 10 ^ dropped := by
            rw [Nat.pow_succ, Nat.mul_comm (10 ^ dropped), Nat.mul_assoc]
        _ = coefficient * 10 ^ dropped := by rw [divides]
        _ < 10 ^ (wholeDigits + guardDigits) := bounded
  | case2 => exact isShort
  | case3 =>
      refine ⟨guardDigits, by simp, ?_⟩
      rw [Nat.zero_mul]
      exact Nat.pow_pos (by decide)

theorem isShort_shortest
    {units : Nat}
    (representable : Representable units) :
    (shortest units).IsShort := by
  obtain ⟨digits, positive, found⟩ :=
    exists_neighbour_of_shortestCandidate representable
  have isShort := isShort_of_neighbour? representable positive found
  unfold shortest
  generalize shortestCandidate units = candidate at isShort
  obtain ⟨coefficient, exponent⟩ := candidate
  exact isShort_stripZeros isShort

/-! ## The length of a text -/

theorem length_toDigits_le
    {places value : Nat}
    (positive : 0 < places)
    (below : value < 10 ^ places) :
    (Nat.toDigits 10 value).length ≤ places :=
  (Nat.length_toDigits_le_iff (by decide) positive).2 below

theorem length_paddedDigits
    {width value : Nat}
    (fits : value < 10 ^ width)
    (positive : 0 < width) :
    (paddedDigits width value).length = width := by
  have bound := length_toDigits_le positive fits
  simp only [paddedDigits, List.length_append, List.length_replicate]
  omega

theorem IsShort.length_positional_le
    {decimal : Decimal}
    (isShort : decimal.IsShort) :
    decimal.positional.length ≤ 710 := by
  obtain ⟨coefficient, exponent⟩ := decimal
  obtain ⟨dropped, isExponent, bounded⟩ := isShort
  have positive (more : Nat) : 0 < 10 ^ more := Nat.pow_pos (by decide)
  have guard : guardDigits = 400 := rfl
  have whole : wholeDigits = 309 := rfl
  dsimp only at isExponent bounded
  cases exponent with
  | ofNat places =>
      obtain rfl : dropped = places + guardDigits := by
        rw [Int.ofNat_eq_natCast] at isExponent
        omega
      have isWhole : coefficient * 10 ^ places < 10 ^ wholeDigits := by
        rw [Nat.pow_add, ← Nat.mul_assoc, Nat.pow_add] at bounded
        exact Nat.lt_of_mul_lt_mul_right bounded
      have digits := length_toDigits_le (by decide) isWhole
      simp only [positional]
      omega
  | negSucc places =>
      have split :
          wholeDigits + guardDigits = wholeDigits + (places + 1) + dropped := by
        rw [Int.negSucc_eq] at isExponent
        omega
      have isWhole : coefficient / 10 ^ (places + 1) < 10 ^ wholeDigits := by
        rw [split, Nat.pow_add, Nat.pow_add] at bounded
        rw [Nat.div_lt_iff_lt_mul (positive _)]
        exact Nat.lt_of_mul_lt_mul_right bounded
      have digits := length_toDigits_le (by decide) isWhole
      have fraction :=
        length_paddedDigits (Nat.mod_lt coefficient (positive (places + 1)))
          (Nat.succ_pos places)
      simp only [positional, List.length_append, List.length_cons, fraction]
      omega

end Decimal

/-- The text of a number has a sign, a point and no more than `709` digits. -/
theorem Binary64.length_text_le (value : Binary64) :
    value.text.length ≤ 711 := by
  have signed
      {digits : List Char}
      (negative : Bool)
      (short : digits.length ≤ 710) :
      (if negative then '-' :: digits else digits).length ≤ 711 := by
    cases negative with
    | false => exact Nat.le_succ_of_le short
    | true => exact Nat.succ_le_succ short
  cases value with
  | nan => decide
  | infinite negative => cases negative <;> decide
  | finite negative units representable =>
      have written :
          (finite negative units representable).text =
            String.ofList
              (if negative then '-' :: (Decimal.shortest units).positional
              else (Decimal.shortest units).positional) := rfl
      rw [written, String.length_ofList]
      exact
        signed negative
          (Decimal.isShort_shortest representable).length_positional_le

end IncentivePay
