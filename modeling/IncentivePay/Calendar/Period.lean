import IncentivePay.Calendar.Date

/-!
# Payroll periods

A payroll period is one calendar month.  It is read as four digits, a hyphen
and one or two digits, with blanks around the whole; it is written with two
digits for the month and at least four characters for the year.  Periods are
ordered by time.
-/

namespace IncentivePay

/-- One month of the calendar. -/
structure Period where
  year : Int
  month : Nat
  yearIsCalendar : isCalendarYear year = true
  monthIsPositive : 1 ≤ month
  monthIsAtMostTwelve : month ≤ 12

/-- Two periods are the same when their years and their months are. -/
instance : DecidableEq Period := fun left right =>
  decidable_of_iff
    (left.year = right.year ∧ left.month = right.month)
    ⟨fun same => by cases left; cases right; simpa using same,
      fun same => by rw [same]; exact ⟨rfl, rfl⟩⟩

/-- Why a text or a pair of numbers is no period. -/
inductive PeriodError
  | malformed (text : String)
  | invalidMonth (month : Nat)
deriving DecidableEq

/-- The wording of a period error. -/
def PeriodError.message : PeriodError → String
  | .malformed text =>
      "Period must be formatted as YYYY-MM, got '" ++ text ++ "'"
  | .invalidMonth month =>
      "Invalid month " ++ toString month ++ " (expected 1-12)"

namespace Period

/--
The period with a year and a month.  A year outside the calendar is reported
as an invalid month, like a month outside the year.
-/
def of
    (year : Int)
    (month : Nat) :
    Except PeriodError Period :=
  if holds : isCalendarYear year = true ∧ 1 ≤ month ∧ month ≤ 12 then
    .ok ⟨year, month, holds.1, holds.2.1, holds.2.2⟩
  else
    .error (.invalidMonth month)

/-- A year in at least four characters, of which a minus sign is one. -/
def yearText (year : Int) : List Char :=
  if year < 0 then
    '-' :: Decimal.paddedDigits 3 year.natAbs
  else
    Decimal.paddedDigits 4 year.natAbs

/-- The text of a period. -/
def text (period : Period) : String :=
  String.ofList
    (yearText period.year ++ '-' :: Decimal.paddedDigits 2 period.month)

/-- The period that a text denotes. -/
def parse (text : String) : Except PeriodError Period :=
  let trimmed := trimBlank text.toList
  let year := trimmed.takeWhile (· != '-')
  match trimmed.dropWhile (· != '-') with
  | [] => .error (.malformed text)
  | _ :: month =>
      if
          year.length = 4 && year.all isDigit &&
            !month.isEmpty && month.length ≤ 2 && month.all isDigit then
        of (Nat.ofDigitChars 10 year 0) (Nat.ofDigitChars 10 month 0)
      else
        .error (.malformed text)

/-- A period is strictly earlier than another. -/
def isEarlier
    (left right : Period) :
    Bool :=
  left.year < right.year ||
    (left.year = right.year && left.month < right.month)

/-- Puts a period into an ordered list, unless it is there already. -/
def insertInOrder
    (period : Period) :
    List Period →
    List Period
  | [] => [period]
  | first :: rest =>
      if period.isEarlier first then
        period :: first :: rest
      else if period = first then
        first :: rest
      else
        first :: insertInOrder period rest

/-- The different periods of a list in the order of time. -/
def inOrder (periods : List Period) : List Period :=
  periods.foldr insertInOrder []

end Period

end IncentivePay
