import IncentivePay.Decimal.Shortest
import IncentivePay.Wire.Json.Basic

/-!
# Writing JSON

`Json.compact` writes a value without space, `Json.pretty` with one member or
item a line and two blanks of indentation a level.  A real number is written
with the digits of its shortest decimal: by position while it has at most
sixteen digits before the point and at most five zeros after it, and with an
exponent otherwise.
-/

namespace IncentivePay

/-- The digits of an exponent with its sign, when it is negative. -/
def exponentText (exponent : Int) : List Char :=
  let digits := Nat.toDigits 10 exponent.natAbs
  if exponent < 0 then '-' :: digits else digits

/-- A decimal by position, which always has a digit after its point. -/
def Decimal.pointed (decimal : Decimal) : List Char :=
  let digits := decimal.positional
  if 0 ≤ decimal.exponent then digits ++ ['.', '0'] else digits

/-- A decimal with one digit before its point and an exponent. -/
def Decimal.scientific (decimal : Decimal) : List Char :=
  let digits := Nat.toDigits 10 decimal.coefficient
  let exponent := decimal.exponent + digits.length - 1
  match digits with
  | [] => []
  | [digit] => digit :: 'e' :: exponentText exponent
  | first :: others => first :: '.' :: others ++ 'e' :: exponentText exponent

/-- A decimal in the notation of a JSON number. -/
def Decimal.jsonText (decimal : Decimal) : List Char :=
  let digitsBeforePoint :=
    decimal.exponent + (Decimal.digitCount decimal.coefficient : Int)
  if -5 < digitsBeforePoint ∧ digitsBeforePoint ≤ 16 then
    decimal.pointed
  else
    decimal.scientific

/-- A finite number in the notation of a JSON number, and null for others. -/
def Binary64.jsonText : Binary64 → String
  | .finite negative units _ =>
      let digits :=
        if units = 0 then
          ['0', '.', '0']
        else
          (Decimal.shortest units).jsonText
      String.ofList (if negative then '-' :: digits else digits)
  | _ => "null"

namespace Json

/-- The two hexadecimal digits of a control character. -/
def controlDigits (code : Nat) : List Char :=
  [Nat.digitChar (code / 16), Nat.digitChar (code % 16)]

/-- A character inside a JSON text. -/
def escape (character : Char) : List Char :=
  if character = '\x22' then ['\\', '\x22']
  else if character = '\\' then ['\\', '\\']
  else if character = '\x08' then ['\\', 'b']
  else if character = '\x0c' then ['\\', 'f']
  else if character = '\n' then ['\\', 'n']
  else if character = '\r' then ['\\', 'r']
  else if character = '\t' then ['\\', 't']
  else if character.toNat < 0x20 then
    '\\' :: 'u' :: '0' :: '0' :: controlDigits character.toNat
  else [character]

/-- A text between quotes. -/
def quote (text : String) : String :=
  String.ofList ('\x22' :: text.toList.flatMap escape ++ ['\x22'])

/-- A text between quotes; half of a surrogate pair is written as null. -/
def textOf (text : Option String) : String :=
  (text.map quote).getD "null"

/-- A value that holds no others. -/
def scalarText : Json → String
  | .boolean true => "true"
  | .boolean false => "false"
  | .integer value => toString value
  | .real value => value.jsonText
  | .text value => textOf value
  | _ => "null"

mutual

/-- A value without space. -/
def compact : Json → String
  | .array items => "[" ++ compactItems items ++ "]"
  | .object members => "\x7b" ++ compactMembers members ++ "\x7d"
  | scalar => scalar.scalarText

/-- Items with a comma between two. -/
def compactItems : List Json → String
  | [] => ""
  | [item] => item.compact
  | item :: next :: items => item.compact ++ "," ++ compactItems (next :: items)

/-- Members with a comma between two. -/
def compactMembers : List (Option String × Json) → String
  | [] => ""
  | [(key, value)] => textOf key ++ ":" ++ value.compact
  | (key, value) :: next :: members =>
      textOf key ++ ":" ++ value.compact ++ "," ++
        compactMembers (next :: members)

end

/-- A new line at a level of indentation. -/
def newLine (level : Nat) : String :=
  String.ofList ('\n' :: List.replicate (2 * level) ' ')

mutual

/-- A value at a level of indentation. -/
def prettyAt
    (level : Nat) :
    Json →
    String
  | .array [] => "[]"
  | .array items =>
      "[" ++ prettyItems (level + 1) items ++ newLine level ++ "]"
  | .object [] => "\x7b\x7d"
  | .object members =>
      "\x7b" ++ prettyMembers (level + 1) members ++ newLine level ++ "\x7d"
  | scalar => scalar.scalarText

/-- Items on lines of their own. -/
def prettyItems
    (level : Nat) :
    List Json →
    String
  | [] => ""
  | [item] => newLine level ++ item.prettyAt level
  | item :: next :: items =>
      newLine level ++ item.prettyAt level ++ "," ++
        prettyItems level (next :: items)

/-- Members on lines of their own. -/
def prettyMembers
    (level : Nat) :
    List (Option String × Json) →
    String
  | [] => ""
  | [(key, value)] =>
      newLine level ++ textOf key ++ ": " ++ value.prettyAt level
  | (key, value) :: next :: members =>
      newLine level ++ textOf key ++ ": " ++ value.prettyAt level ++ "," ++
        prettyMembers level (next :: members)

end

/-- A value with one item or member a line. -/
def pretty (value : Json) : String :=
  value.prettyAt 0

end Json

end IncentivePay
