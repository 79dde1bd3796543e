import IncentivePay.Decimal.Basic
import IncentivePay.Decimal.Numeral
import IncentivePay.Text.Blank

/-!
# Dates

Dates of the Gregorian calendar, extended to the years from `firstYear` to
`lastYear`.  A date is read as year, month and day with hyphens between them;
leading zeros may be missing, blanks may stand around each part, and a year
with a sign may have any number of digits.  It is written with all its zeros,
and with a sign when its year does not have four digits.
-/

namespace IncentivePay

/-- The first year of the calendar. -/
def firstYear : Int :=
  -262143

/-- The last year of the calendar. -/
def lastYear : Int :=
  262142

/-- A year of the calendar. -/
def isCalendarYear (year : Int) : Bool :=
  firstYear ≤ year && year ≤ lastYear

/-- A leap year has a twenty-ninth of February. -/
def isLeapYear (year : Int) : Bool :=
  year % 4 = 0 && (year % 100 ≠ 0 || year % 400 = 0)

/-- The number of days of a month; none for a number that is no month. -/
def daysInMonth
    (year : Int)
    (month : Nat) :
    Nat :=
  match month with
  | 1 | 3 | 5 | 7 | 8 | 10 | 12 => 31
  | 4 | 6 | 9 | 11 => 30
  | 2 => if isLeapYear year then 29 else 28
  | _ => 0

/-- A date of the calendar. -/
structure Date where
  year : Int
  month : Nat
  day : Nat
  yearIsCalendar : isCalendarYear year = true
  dayIsPositive : 1 ≤ day
  dayIsInMonth : day ≤ daysInMonth year month
deriving DecidableEq

namespace Date

/-- The date with a year, a month and a day, if there is one. -/
def of?
    (year : Int)
    (month day : Nat) :
    Option Date :=
  if holds :
      isCalendarYear year = true ∧ 1 ≤ day ∧
        day ≤ daysInMonth year month then
    some ⟨year, month, day, holds.1, holds.2.1, holds.2.2⟩
  else
    none

/-- The day after a date, unless the calendar ends. -/
def next? (date : Date) : Option Date :=
  (of? date.year date.month (date.day + 1)).or
    ((of? date.year (date.month + 1) 1).or
      (of? (date.year + 1) 1 1))

/-- The day before a date, unless the calendar begins. -/
def previous? (date : Date) : Option Date :=
  (of? date.year date.month (date.day - 1)).or
    ((of? date.year (date.month - 1)
        (daysInMonth date.year (date.month - 1))).or
      (of? (date.year - 1) 12 31))

/-- The date so many days after a date, unless the calendar ends before. -/
def daysAfter?
    (date : Date) :
    (days : Nat) →
    Option Date
  | 0 => some date
  | days + 1 => (date.daysAfter? days).bind next?

/-- The first of January of 1970, from which clocks count. -/
def epoch : Date where
  year := 1970
  month := 1
  day := 1
  yearIsCalendar := by decide
  dayIsPositive := by decide
  dayIsInMonth := by decide

/-- A year in four digits, or with a sign when it does not have four. -/
def yearText (year : Int) : List Char :=
  let digits := Decimal.paddedDigits 4 year.natAbs
  if year < 0 then '-' :: digits
  else if year ≤ 9999 then digits
  else '+' :: digits

/-- Two digits of a number. -/
def twoDigits (value : Nat) : List Char :=
  Decimal.paddedDigits 2 value

/-- The characters of a date. -/
def characters (date : Date) : List Char :=
  yearText date.year ++ '-' :: twoDigits date.month ++
    '-' :: twoDigits date.day

/-- The text of a date. -/
def text (date : Date) : String :=
  String.ofList date.characters

/-- The characters after any blanks. -/
def skipBlanks (characters : List Char) : List Char :=
  characters.dropWhile isBlank

/-- The number in the leading digits, of which at least one is needed. -/
def takeDigits?
    (digits rest : List Char) :
    Option (Nat × List Char) :=
  if digits.isEmpty then none else some (Nat.ofDigitChars 10 digits 0, rest)

/-- A number of any number of digits, and what follows it. -/
def takeNumber? (characters : List Char) : Option (Nat × List Char) :=
  takeDigits? (characters.takeWhile isDigit) (characters.dropWhile isDigit)

/-- A number of at most so many digits after any blanks, and what follows it. -/
def takeShortNumber?
    (width : Nat)
    (characters : List Char) :
    Option (Nat × List Char) :=
  let trimmed := skipBlanks characters
  let digits := (trimmed.take width).takeWhile isDigit
  takeDigits? digits (trimmed.drop digits.length)

/-- A mark after any blanks is taken off. -/
def takeMark?
    (mark : Char)
    (characters : List Char) :
    Option (List Char) :=
  match skipBlanks characters with
  | next :: rest => if next = mark then some rest else none
  | [] => none

/-- A year after any blanks: four digits at most, or a sign and digits. -/
def takeYear? (characters : List Char) : Option (Int × List Char) :=
  match skipBlanks characters with
  | '-' :: rest =>
      (takeNumber? rest).map fun taken => (-(taken.1 : Int), taken.2)
  | '+' :: rest =>
      (takeNumber? rest).map fun taken => ((taken.1 : Int), taken.2)
  | rest =>
      (takeShortNumber? 4 rest).map fun taken => ((taken.1 : Int), taken.2)

/-- A date, and what follows it. -/
def take? (characters : List Char) : Option (Date × List Char) := do
  let (year, afterYear) ← takeYear? characters
  let monthPart ← takeMark? '-' afterYear
  let (month, afterMonth) ← takeShortNumber? 2 monthPart
  let dayPart ← takeMark? '-' afterMonth
  let (day, rest) ← takeShortNumber? 2 dayPart
  let date ← of? year month day
  some (date, rest)

/-- The date that a text denotes. -/
def read? (text : String) : Option Date :=
  match take? text.toList with
  | some (date, rest) => if rest.all isBlank then some date else none
  | none => none

end Date

end IncentivePay
