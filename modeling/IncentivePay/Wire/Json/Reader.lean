import IncentivePay.Decimal.Scaling
import IncentivePay.Wire.Json.Basic

/-!
# Reading JSON

`Json.read?` reads a text that holds exactly one JSON value, with space around
it.  Every function below takes what it reads off the characters and hands
back the characters after it, of which there are fewer.

A real number is read by scaling its leading digits, so a text with many
digits or a large exponent may denote a neighbour of the nearest number.
-/

namespace IncentivePay

namespace Json

/-- What was read, and the characters after it. -/
structure Taken (Value : Type) (bound : Nat) where
  value : Value
  rest : List Char
  shorter : rest.length < bound

namespace Taken

/-- What was read, under a larger bound and another reading. -/
def widen
    {Value Other : Type}
    {bound larger : Nat}
    (taken : Taken Value bound)
    (read : Value → Other)
    (atMost : bound ≤ larger) :
    Taken Other larger :=
  ⟨read taken.value, taken.rest, Nat.lt_of_lt_of_le taken.shorter atMost⟩

end Taken

/-- The four characters that JSON counts as space. -/
def isSpace (character : Char) : Bool :=
  character = ' ' || character = '\n' || character = '\r' || character = '\t'

/-- The characters after any space. -/
def skipSpace (characters : List Char) : List Char :=
  characters.dropWhile isSpace

theorem length_dropWhile_le
    (test : Char → Bool)
    (characters : List Char) :
    (characters.dropWhile test).length ≤ characters.length :=
  (List.dropWhile_sublist test).length_le

theorem length_skipSpace_le (characters : List Char) :
    (skipSpace characters).length ≤ characters.length :=
  length_dropWhile_le isSpace characters

/-- The value of a hexadecimal digit. -/
def hexDigit? (character : Char) : Option Nat :=
  if '0' ≤ character && character ≤ '9' then
    some (character.toNat - '0'.toNat)
  else if 'a' ≤ character && character ≤ 'f' then
    some (character.toNat - 'a'.toNat + 10)
  else if 'A' ≤ character && character ≤ 'F' then
    some (character.toNat - 'A'.toNat + 10)
  else
    none

/-- Four hexadecimal digits. -/
def takeHex? (characters : List Char) : Option (Taken Nat characters.length) :=
  match characters with
  | first :: second :: third :: fourth :: rest => do
      let thousands ← hexDigit? first
      let hundreds ← hexDigit? second
      let tens ← hexDigit? third
      let ones ← hexDigit? fourth
      some
        ⟨((thousands * 16 + hundreds) * 16 + tens) * 16 + ones, rest,
          by simp only [List.length_cons]; omega⟩
  | _ => none

/-- The first half of a surrogate pair. -/
def isHighSurrogate (unit : Nat) : Bool :=
  0xD800 ≤ unit && unit ≤ 0xDBFF

/-- The second half of a surrogate pair. -/
def isLowSurrogate (unit : Nat) : Bool :=
  0xDC00 ≤ unit && unit ≤ 0xDFFF

/-- The character of a surrogate pair. -/
def ofPair
    (high low : Nat) :
    Char :=
  Char.ofNat (0x10000 + (high - 0xD800) * 0x400 + (low - 0xDC00))

/-- The second half of a pair in an escape of its own. -/
def takeLowSurrogate?
    (characters : List Char) :
    Option (Taken Nat characters.length) :=
  match characters with
  | '\\' :: 'u' :: rest =>
      match takeHex? rest with
      | some low =>
          if isLowSurrogate low.value then
            some (low.widen id (by simp only [List.length_cons]; omega))
          else
            none
      | none => none
  | _ => none

/-- The character of a numeric escape; none for half of a pair. -/
def takeUnit?
    (characters : List Char) :
    Option (Taken (Option Char) characters.length) := do
  let unit ← takeHex? characters
  if isHighSurrogate unit.value then
    match takeLowSurrogate? unit.rest with
    | some low =>
        some
          (low.widen (fun low => some (ofPair unit.value low))
            (Nat.le_of_lt unit.shorter))
    | none => some (unit.widen (fun _ => none) (Nat.le_refl _))
  else if isLowSurrogate unit.value then
    some (unit.widen (fun _ => none) (Nat.le_refl _))
  else
    some (unit.widen (fun unit => some (Char.ofNat unit)) (Nat.le_refl _))

/-- The character that an escape of one letter stands for. -/
def ofEscape? : Char → Option Char
  | '\x22' => some '\x22'
  | '\\' => some '\\'
  | '/' => some '/'
  | 'b' => some '\x08'
  | 'f' => some '\x0c'
  | 'n' => some '\n'
  | 'r' => some '\r'
  | 't' => some '\t'
  | _ => none

/-- The character of an escape whose backslash has been taken. -/
def takeEscape?
    (characters : List Char) :
    Option (Taken (Option Char) characters.length) :=
  match characters with
  | [] => none
  | letter :: rest =>
      if letter = 'u' then
        (takeUnit? rest).map fun taken =>
          taken.widen id (Nat.le_succ rest.length)
      else
        (ofEscape? letter).map fun character =>
          ⟨some character, rest, Nat.lt_succ_self rest.length⟩

/-- A character put before a text, if both denote something. -/
def prepend
    (character : Option Char)
    (text : Option (List Char)) :
    Option (List Char) :=
  match character, text with
  | some character, some text => some (character :: text)
  | _, _ => none

/-- The characters of a text whose opening quote has been taken. -/
def takeText?
    (characters : List Char) :
    Option (Taken (Option (List Char)) characters.length) :=
  match characters with
  | [] => none
  | character :: rest =>
      if character = '\x22' then
        some ⟨some [], rest, by simp⟩
      else if character = '\\' then
        match takeEscape? rest with
        | none => none
        | some escaped =>
            have fewer := escaped.shorter
            (takeText? escaped.rest).map fun text =>
              text.widen (prepend escaped.value)
                (by simp only [List.length_cons]; omega)
      else if character.toNat < 0x20 then
        none
      else
        (takeText? rest).map fun text =>
          text.widen (prepend (some character))
            (by simp only [List.length_cons]; omega)
termination_by characters.length
decreasing_by
  all_goals simp only [List.length_cons]; omega

/-- The value of a whole number: an integer when sixty-four bits hold it. -/
def ofWhole
    (negative : Bool)
    (numeral : Numeral) :
    Json :=
  let size := Nat.ofDigitChars 10 numeral.whole 0
  if negative then
    if 0 < size ∧ size ≤ UInt64.size / 2 then
      .integer (-(size : Int))
    else
      .real (numeral.scaled negative)
  else if size < UInt64.size then
    .integer size
  else
    .real (numeral.scaled negative)

/-- A whole part is one digit, or starts with another digit than nought. -/
def isWholePart (digits : List Char) : Bool :=
  match digits with
  | [] => false
  | [_] => true
  | first :: _ => first ≠ '0'

/--
A number whose sign has been taken.  A point has digits on both sides, and an
exponent has digits.
-/
def takeNumber?
    (negative : Bool)
    (characters : List Char) :
    Option (Taken Json characters.length) :=
  let numeral := (Numeral.split characters).1
  let rest := (Numeral.split characters).2
  let afterWhole := characters.dropWhile isDigit
  if whole : isWholePart numeral.whole = true then
    if afterWhole.head? = some '.' && numeral.fraction.isEmpty then
      none
    else if rest.head? = some 'e' || rest.head? = some 'E' then
      none
    else
      some
        ⟨if rest.length = afterWhole.length then
            ofWhole negative numeral
          else
            .real (numeral.scaled negative),
          rest, by
            have bound : numeral.whole.length + rest.length ≤
                characters.length :=
              Numeral.length_split_le characters
            have positive : 0 < numeral.whole.length := by
              cases digits : numeral.whole with
              | nil => simp [isWholePart, digits] at whole
              | cons _ _ => simp
            omega⟩
  else
    none

/-- The key of a member with its colon, with space before both. -/
def takeKey?
    (characters : List Char) :
    Option (Taken (Option String) characters.length) :=
  have trimmed := length_skipSpace_le characters
  match shape : skipSpace characters with
  | '\x22' :: rest => do
      let key ← takeText? rest
      have fewer := key.shorter
      have trimmedAgain := length_skipSpace_le key.rest
      match shapeAgain : skipSpace key.rest with
      | ':' :: afterColon =>
          some
            ⟨key.value.map String.ofList, afterColon, by
              simp only [shape, List.length_cons] at trimmed
              simp only [shapeAgain, List.length_cons] at trimmedAgain
              omega⟩
      | _ => none
  | _ => none

mutual

/-- A value, with space before it. -/
def takeValue?
    (characters : List Char) :
    Option (Taken Json characters.length) :=
  have trimmed := length_skipSpace_le characters
  match shape : skipSpace characters with
  | '\x22' :: rest =>
      have fewer : rest.length ≤ characters.length := by
        simp only [shape, List.length_cons] at trimmed
        omega
      (takeText? rest).map fun text =>
        text.widen (fun text => .text (text.map String.ofList)) fewer
  | '[' :: rest =>
      have fewer : rest.length < characters.length := by
        simp only [shape, List.length_cons] at trimmed
        omega
      (takeItems? rest).map fun items =>
        items.widen .array (Nat.le_of_lt fewer)
  | '\x7b' :: rest =>
      have fewer : rest.length < characters.length := by
        simp only [shape, List.length_cons] at trimmed
        omega
      (takeMembers? rest).map fun members =>
        members.widen .object (Nat.le_of_lt fewer)
  | '-' :: rest =>
      have fewer : rest.length ≤ characters.length := by
        simp only [shape, List.length_cons] at trimmed
        omega
      (takeNumber? true rest).map fun number => number.widen id fewer
  | 'n' :: 'u' :: 'l' :: 'l' :: rest =>
      some
        ⟨.null, rest, by
          simp only [shape, List.length_cons] at trimmed
          omega⟩
  | 't' :: 'r' :: 'u' :: 'e' :: rest =>
      some
        ⟨.boolean true, rest, by
          simp only [shape, List.length_cons] at trimmed
          omega⟩
  | 'f' :: 'a' :: 'l' :: 's' :: 'e' :: rest =>
      some
        ⟨.boolean false, rest, by
          simp only [shape, List.length_cons] at trimmed
          omega⟩
  | other =>
      (takeNumber? false other).map fun number =>
        number.widen id (by rw [shape] at trimmed; exact trimmed)
termination_by (characters.length, 0)

/-- The items of an array whose opening bracket has been taken. -/
def takeItems?
    (characters : List Char) :
    Option (Taken (List Json) characters.length) :=
  have trimmed := length_skipSpace_le characters
  match shape : skipSpace characters with
  | ']' :: rest =>
      some
        ⟨[], rest, by
          simp only [shape, List.length_cons] at trimmed; omega⟩
  | _ => takeMoreItems? characters
termination_by (characters.length, 2)

/-- One item and those after it, up to the closing bracket. -/
def takeMoreItems?
    (characters : List Char) :
    Option (Taken (List Json) characters.length) := do
  let item ← takeValue? characters
  have fewer := item.shorter
  have trimmed := length_skipSpace_le item.rest
  match shape : skipSpace item.rest with
  | ']' :: rest =>
      some
        ⟨[item.value], rest, by
          simp only [shape, List.length_cons] at trimmed; omega⟩
  | ',' :: rest =>
      have bound : rest.length < characters.length := by
        simp only [shape, List.length_cons] at trimmed; omega
      let items ← takeMoreItems? rest
      some (items.widen (item.value :: ·) (Nat.le_of_lt bound))
  | _ => none
termination_by (characters.length, 1)

/-- The members of an object whose opening brace has been taken. -/
def takeMembers?
    (characters : List Char) :
    Option (Taken (List (Option String × Json)) characters.length) :=
  have trimmed := length_skipSpace_le characters
  match shape : skipSpace characters with
  | '\x7d' :: rest =>
      some
        ⟨[], rest, by
          simp only [shape, List.length_cons] at trimmed; omega⟩
  | _ => takeMoreMembers? characters
termination_by (characters.length, 2)

/-- One member and those after it, up to the closing brace. -/
def takeMoreMembers?
    (characters : List Char) :
    Option (Taken (List (Option String × Json)) characters.length) := do
  let key ← takeKey? characters
  have afterKey := key.shorter
  let value ← takeValue? key.rest
  have fewer := value.shorter
  have trimmed := length_skipSpace_le value.rest
  match shape : skipSpace value.rest with
  | '\x7d' :: rest =>
      some
        ⟨[(key.value, value.value)], rest, by
          simp only [shape, List.length_cons] at trimmed; omega⟩
  | ',' :: rest =>
      have bound : rest.length < characters.length := by
        simp only [shape, List.length_cons] at trimmed; omega
      let members ← takeMoreMembers? rest
      some
        (members.widen ((key.value, value.value) :: ·) (Nat.le_of_lt bound))
  | _ => none
termination_by (characters.length, 1)

end

/-- The JSON value that a text holds. -/
def read? (text : String) : Option Json :=
  match takeValue? text.toList with
  | some taken => if taken.rest.all isSpace then some taken.value else none
  | none => none

end Json

end IncentivePay
