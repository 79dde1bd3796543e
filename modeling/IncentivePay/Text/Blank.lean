/-!
# Blank characters

A character is blank when it has the Unicode property `White_Space`.  A blank
text holds only such characters, and `trim` removes them from both ends of a
text.
-/

namespace IncentivePay

/-- The first and last code points of the ranges with property `White_Space`. -/
def blankRanges : List (Nat × Nat) :=
  [(0x0009, 0x000D), (0x0020, 0x0020), (0x0085, 0x0085), (0x00A0, 0x00A0),
   (0x1680, 0x1680), (0x2000, 0x200A), (0x2028, 0x2029), (0x202F, 0x202F),
   (0x205F, 0x205F), (0x3000, 0x3000)]

/-- A character with the Unicode property `White_Space`. -/
def isBlank (character : Char) : Bool :=
  blankRanges.any fun range =>
    range.1 ≤ character.toNat && character.toNat ≤ range.2

/-- A text without any character that is not blank. -/
def isBlankText (text : String) : Bool :=
  text.toList.all isBlank

/-- The characters without the blank ones at either end. -/
def trimBlank (characters : List Char) : List Char :=
  ((characters.dropWhile isBlank).reverse.dropWhile isBlank).reverse

end IncentivePay
