import IncentivePay.Decimal.Basic

/-!
# Numerals

A numeral is a run of digits, optionally a point and more digits, and
optionally an exponent: the letter `e` in either case, an optional sign and at
least one digit.  `Numeral.split` takes the longest numeral off a list of
characters; an `e` that no digit follows is left where it stands.

`Binary64.read?` reads a whole text as an optional sign and a numeral with at
least one digit outside its exponent, or as one of the words for infinity and
NaN in any case.
-/

namespace IncentivePay

/-- An ASCII decimal digit. -/
def isDigit (character : Char) : Bool :=
  '0' ≤ character && character ≤ '9'

/-- The digits before and after the point, and the power of ten. -/
structure Numeral where
  whole : List Char
  fraction : List Char
  exponent : Int
deriving DecidableEq, Repr

namespace Numeral

/-- The sign at the start of the characters, if any, and what follows it. -/
def splitSign
    (characters : List Char) :
    Bool × List Char :=
  match characters with
  | '-' :: rest => (true, rest)
  | '+' :: rest => (false, rest)
  | other => (false, other)

/--
The value of the longest exponent, nought if there is none, and what follows.
-/
def splitExponent
    (characters : List Char) :
    Int × List Char :=
  match characters with
  | [] => (0, [])
  | letter :: afterLetter =>
      if letter = 'e' || letter = 'E' then
        let (negative, unsigned) := splitSign afterLetter
        let digits := unsigned.takeWhile isDigit
        if digits.isEmpty then
          (0, characters)
        else
          let size : Int := Nat.ofDigitChars 10 digits 0
          (if negative then -size else size, unsigned.dropWhile isDigit)
      else
        (0, characters)

/-- The digits after a point, if one comes first, and what follows. -/
def splitFraction
    (characters : List Char) :
    List Char × List Char :=
  match characters with
  | '.' :: afterPoint =>
      (afterPoint.takeWhile isDigit, afterPoint.dropWhile isDigit)
  | _ => ([], characters)

/-- The longest numeral at the start of the characters, and what follows it. -/
def split
    (characters : List Char) :
    Numeral × List Char :=
  let whole := characters.takeWhile isDigit
  let fraction := splitFraction (characters.dropWhile isDigit)
  let exponent := splitExponent fraction.2
  (⟨whole, fraction.1, exponent.1⟩, exponent.2)

/-- The decimal that a numeral denotes. -/
def toDecimal (numeral : Numeral) : Decimal where
  coefficient := Nat.ofDigitChars 10 (numeral.whole ++ numeral.fraction) 0
  exponent := numeral.exponent - numeral.fraction.length

/-- The number nearest to a numeral, with a sign. -/
def toBinary64
    (negative : Bool)
    (numeral : Numeral) :
    Binary64 :=
  numeral.toDecimal.toBinary64 negative

/-- A numeral has a digit outside its exponent. -/
def hasDigit (numeral : Numeral) : Bool :=
  !(numeral.whole.isEmpty && numeral.fraction.isEmpty)

theorem length_dropWhile_isDigit_le (characters : List Char) :
    (characters.dropWhile isDigit).length ≤ characters.length :=
  (List.dropWhile_sublist isDigit).length_le

theorem length_splitSign_le (characters : List Char) :
    (splitSign characters).2.length ≤ characters.length := by
  unfold splitSign
  split <;> simp

theorem length_splitExponent_le (characters : List Char) :
    (splitExponent characters).2.length ≤ characters.length := by
  unfold splitExponent
  split
  · exact Nat.le_refl _
  · rename_i letter afterLetter
    have afterSign := length_splitSign_le afterLetter
    have afterDigits :=
      length_dropWhile_isDigit_le (splitSign afterLetter).2
    split
    · dsimp only
      split
      · exact Nat.le_refl _
      · simp only [List.length_cons]
        omega
    · exact Nat.le_refl _

theorem length_splitFraction_le (characters : List Char) :
    (splitFraction characters).2.length ≤ characters.length := by
  unfold splitFraction
  split
  · rename_i afterPoint
    have afterDigits := length_dropWhile_isDigit_le afterPoint
    simp only [List.length_cons]
    omega
  · exact Nat.le_refl _

/-- What follows a numeral is shorter by its leading digits at least. -/
theorem length_split_le (characters : List Char) :
    (split characters).1.whole.length + (split characters).2.length ≤
      characters.length := by
  have parts :
      (characters.takeWhile isDigit).length +
          (characters.dropWhile isDigit).length =
        characters.length := by
    rw [← List.length_append, List.takeWhile_append_dropWhile]
  have fraction := length_splitFraction_le (characters.dropWhile isDigit)
  have exponent :=
    length_splitExponent_le
      (splitFraction (characters.dropWhile isDigit)).2
  simp only [split]
  omega

end Numeral

namespace Binary64

/-- The number that an unsigned text denotes, with a sign put before it. -/
def readUnsigned?
    (negative : Bool)
    (characters : List Char) :
    Option Binary64 :=
  let word := String.ofList (characters.map Char.toLower)
  if word = "nan" then
    some .nan
  else if word = "inf" || word = "infinity" then
    some (.infinite negative)
  else
    match Numeral.split characters with
    | (numeral, []) =>
        if numeral.hasDigit then
          some (numeral.toBinary64 negative)
        else
          none
    | _ => none

/-- The number that a text denotes: an optional sign, then digits or a word. -/
def read? (text : String) : Option Binary64 :=
  match text.toList with
  | '-' :: characters => readUnsigned? true characters
  | '+' :: characters => readUnsigned? false characters
  | characters => readUnsigned? false characters

end Binary64

end IncentivePay
