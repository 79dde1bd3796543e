import IncentivePay.Formula.Rendering
import IncentivePay.Proofs.Decimal.DigitBounds
import IncentivePay.Proofs.Formula.LexemeScanning

/-!
# The texts of numbers

A decimal written by position is a numeral without an exponent that denotes a
decimal of the same value.  So the text of a finite number without a sign is
scanned as that very number, and the text of a number with a sign is the text
of its negation after a minus sign.
-/

namespace IncentivePay.Formula

attribute [local instance (2000)] instPowNat

theorem areDigits_toDigits (value : Nat) :
    AreDigits (Nat.toDigits 10 value) := by
  constructor
  · exact Nat.toDigits_ne_nil
  · intro character member
    have digit : character.isDigit = true :=
      Nat.isDigit_of_mem_toDigits (by decide) (by decide) member
    simpa [isDigit, Char.isDigit, Char.le_def, ge_iff_le] using digit

/-! ## Decimals by position -/

theorem isDigit_of_mem_paddedDigits
    {width value : Nat}
    {character : Char}
    (member : character ∈ Decimal.paddedDigits width value) :
    isDigit character = true := by
  rcases List.mem_append.1 member with padding | digit
  · rw [(List.mem_replicate.1 padding).2]
    decide
  · exact (areDigits_toDigits value).2 character digit

/-- Digits after a number are read as so many places more. -/
theorem ofDigitChars_paddedDigits
    {width value : Nat}
    (fits : value < 10 ^ width)
    (positive : 0 < width)
    (start : Nat) :
    Nat.ofDigitChars 10 (Decimal.paddedDigits width value) start =
      10 ^ width * start + value := by
  have bound : (Nat.toDigits 10 value).length ≤ width :=
    (Nat.length_toDigits_le_iff (by decide) positive).2 fits
  unfold Decimal.paddedDigits
  dsimp only
  rw [Nat.ofDigitChars_append, Nat.ofDigitChars_replicate_zero,
    Nat.ofDigitChars_eq_ofDigitChars_zero, Nat.ofDigitChars_ten_toDigits,
    ← Nat.mul_assoc, ← Nat.pow_add]
  congr 3
  omega

/-- A decimal by position is a numeral of the same magnitude. -/
theorem exists_numeral_of_positional (decimal : Decimal) :
    ∃ numeral,
      IsNumeral decimal.positional numeral ∧
        numeral.toDecimal.nearestUnits = decimal.nearestUnits ∧
        numeral.toDecimal.exponent ≤ 0 := by
  obtain ⟨coefficient, exponent⟩ := decimal
  cases exponent with
  | ofNat places =>
      let whole := Nat.toDigits 10 (coefficient * 10 ^ places)
      refine ⟨⟨whole, [], 0⟩,
        ⟨whole, [], (List.append_nil whole).symm,
          .whole (areDigits_toDigits _), .none⟩, ?_, ?_⟩
      · have isDecimal :
            Numeral.toDecimal ⟨whole, [], 0⟩ =
              ⟨coefficient * 10 ^ places, .ofNat 0⟩ := by
          simp [Numeral.toDecimal, whole]
        rw [isDecimal, Decimal.nearestUnits_ofNat, Decimal.nearestUnits_ofNat,
          Nat.pow_zero, Nat.mul_one]
      · simp [Numeral.toDecimal]
  | negSucc places =>
      let scale := 10 ^ (places + 1)
      have fits : coefficient % scale < 10 ^ (places + 1) :=
        Nat.mod_lt _ (Nat.pow_pos (by decide))
      have positive : 0 < places + 1 := Nat.succ_pos _
      let whole := Nat.toDigits 10 (coefficient / scale)
      let fraction := Decimal.paddedDigits (places + 1) (coefficient % scale)
      have isMantissa : IsMantissa (whole ++ '.' :: fraction) whole fraction :=
        .pointed (areDigits_toDigits _)
          fun _ member => isDigit_of_mem_paddedDigits member
      have isDecimal :
          Numeral.toDecimal ⟨whole, fraction, 0⟩ =
            ⟨coefficient, .negSucc places⟩ := by
        have value :
            Nat.ofDigitChars 10 (whole ++ fraction) 0 = coefficient := by
          rw [Nat.ofDigitChars_append, Nat.ofDigitChars_ten_toDigits,
            ofDigitChars_paddedDigits fits positive]
          exact Nat.div_add_mod coefficient scale
        unfold Numeral.toDecimal
        dsimp only
        rw [value, Decimal.length_paddedDigits fits positive, Int.negSucc_eq]
        congr 1
      refine ⟨⟨whole, fraction, 0⟩,
        ⟨whole ++ '.' :: fraction, [], (List.append_nil _).symm, isMantissa,
          .none⟩, ?_, ?_⟩
      · rw [isDecimal]
      · rw [isDecimal]
        exact Int.le_of_lt (Int.negSucc_lt_zero places)

/-! ## Numbers -/

/-- The shortest decimal of a number of the format is scanned as the number. -/
theorem isScannedAs_shortest
    {units : Nat}
    (representable : Representable units) :
    IsScannedAs (Decimal.shortest units).positional
      [.number (.finite false units representable)] := by
  obtain ⟨numeral, isNumeral, sameMagnitude, noExponent⟩ :=
    exists_numeral_of_positional (Decimal.shortest units)
  have readsBack : numeral.toDecimal.nearestUnits = units :=
    sameMagnitude.trans (Decimal.nearestUnits_shortest representable)
  have noOverflow : numeral.toDecimal.exponent < Decimal.overflowExponent :=
    Int.lt_of_le_of_lt noExponent (by decide)
  have denotes :
      numeral.toBinary64 false = .finite false units representable :=
    Decimal.toBinary64_of_nearestUnits readsBack representable noOverflow false
  rw [← denotes]
  apply IsScannedAs.numeral isNumeral
  rw [denotes]
  rfl

/-- The text of a finite number without a sign is scanned as the number. -/
theorem isScannedAs_text
    {value : Binary64}
    (isUnsignedFinite : value.isFinite = true ∧ isSigned value = false) :
    IsScannedAs value.text.toList [.number value] := by
  obtain ⟨isFinite, isUnsigned⟩ := isUnsignedFinite
  cases value with
  | nan => simp [Binary64.isFinite] at isFinite
  | infinite negative => simp [Binary64.isFinite] at isFinite
  | finite negative units representable =>
      obtain rfl : negative = false := by simpa [isSigned] using isUnsigned
      simpa [Binary64.text] using isScannedAs_shortest representable

/--
The text of a finite number with a sign is a minus sign and another number.
-/
theorem isScannedAs_text_of_isSigned
    {value : Binary64}
    (isFinite : value.isFinite = true)
    (hasSign : isSigned value = true) :
    IsScannedAs value.text.toList
      [.operator .subtract, .number value.negate] := by
  cases value with
  | nan => simp [Binary64.isFinite] at isFinite
  | infinite negative => simp [Binary64.isFinite] at isFinite
  | finite negative units representable =>
      obtain rfl : negative = true := by simpa [isSigned] using hasSign
      simpa [Binary64.text, Binary64.negate] using
        (isScannedAs_shortest representable).minus

end IncentivePay.Formula
