/-!
# Binary64 numbers

A binary64 number is a NaN, one of the two infinities, or a signed whole
number of *units*.  The unit is the least positive number, `2 ^ -1074`, so
every finite number of the format is `± u` units for a natural number `u`,
and two finite numbers of one sign are equal exactly when their units are.

Counting in units keeps the whole arithmetic inside the natural numbers: a
sum of two numbers is a whole number of units, and the spacing of the format
near `u` units is the power of two `2 ^ spacingExponent u`.  There is one NaN;
both zeros exist and differ only in their sign.
-/

namespace IncentivePay

attribute [local instance (2000)] instPowNat

/-- The number of units in one. -/
def unitsPerOne : Nat := 2 ^ (1074 : Nat)

/-- Every finite number is less than this many units, the number `2 ^ 1024`. -/
def unitBound : Nat := 2 ^ (2098 : Nat)

/--
The spacing of the format around a magnitude of so many units is two to this
power.  Fifty-three significant binary digits are kept, and no spacing is
finer than one unit.
-/
def spacingExponent (units : Nat) : Nat :=
  units.log2 - 52

/--
A magnitude belongs to the format when it is below the bound and a multiple
of the spacing at its own place.
-/
structure Representable (units : Nat) : Prop where
  below : units < unitBound
  aligned : 2 ^ spacingExponent units ∣ units

instance decidableRepresentable
    (units : Nat) :
    Decidable (Representable units) :=
  decidable_of_iff
    (units < unitBound ∧ 2 ^ spacingExponent units ∣ units)
    ⟨fun both => ⟨both.1, both.2⟩,
      fun holds => ⟨holds.below, holds.aligned⟩⟩

theorem unitsPerOne_pos : 0 < unitsPerOne := by
  simp only [unitsPerOne, Nat.two_pow_pos]

theorem unitBound_pos : 0 < unitBound := by
  simp only [unitBound, Nat.two_pow_pos]

/-- A binary64 number; `finite` holds a sign and a magnitude in units. -/
inductive Binary64
  | nan
  | infinite (negative : Bool)
  | finite
      (negative : Bool)
      (units : Nat)
      (representable : Representable units)
deriving DecidableEq

namespace Binary64

/-- The zero of a sign. -/
def signedZero (negative : Bool) : Binary64 :=
  .finite negative 0
    ⟨unitBound_pos, Nat.dvd_zero _⟩

/-- Positive zero. -/
def zero : Binary64 :=
  signedZero false

/-- Positive infinity. -/
def infinity : Binary64 :=
  .infinite false

instance : Inhabited Binary64 :=
  ⟨zero⟩

/-- A number that is neither infinite nor a NaN. -/
def isFinite : Binary64 → Bool
  | .finite .. => true
  | _ => false

/-- The NaN test. -/
def isNaN : Binary64 → Bool
  | .nan => true
  | _ => false

/-- The whole number of units with a sign and a magnitude. -/
def signedUnits
    (negative : Bool)
    (units : Nat) :
    Int :=
  if negative then -(units : Int) else (units : Int)

/--
The place of a number on the line, in units.  Both zeros stand at nought, an
infinity stands just outside the finite numbers, and a NaN stands nowhere.
-/
def place? : Binary64 → Option Int
  | .nan => none
  | .infinite negative => some (signedUnits negative unitBound)
  | .finite negative units _ => some (signedUnits negative units)

/-- The number with the other sign; a NaN stays a NaN. -/
def negate : Binary64 → Binary64
  | .nan => .nan
  | .infinite negative => .infinite (!negative)
  | .finite negative units representable =>
      .finite (!negative) units representable

@[simp]
theorem negate_negate (value : Binary64) :
    value.negate.negate = value := by
  cases value <;> simp [negate]

@[simp]
theorem isFinite_negate (value : Binary64) :
    value.negate.isFinite = value.isFinite := by
  cases value <;> rfl

end Binary64

end IncentivePay
