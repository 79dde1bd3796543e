import IncentivePay.Calendar.Date

/-!
# Instants

An instant is a date and a time of day at offset zero, to the nanosecond.  A
leap second is the second after the fifty-ninth of a minute; it is counted as
a fifty-ninth second with a billion nanoseconds and more.

An instant is read as a date, the letter `T` or a blank, a time of day with
an optional fraction, and an offset, and is moved to offset zero.  It is
written with the letter `Z` and a fraction of three, six or nine digits, or
none when the second is whole.
-/

namespace IncentivePay

attribute [local instance (2000)] instPowNat

/-- The number of nanoseconds in a second. -/
def nanosecondsPerSecond : Nat :=
  1000000000

/-- The number of seconds in a day. -/
def secondsPerDay : Nat :=
  86400

/-- The nanoseconds that a second of the day may have. -/
def isNanosecond
    (second nanosecond : Nat) :
    Bool :=
  nanosecond < nanosecondsPerSecond ||
    (second % 60 = 59 && nanosecond < 2 * nanosecondsPerSecond)

/-- A date and a time of day at offset zero. -/
structure Instant where
  date : Date
  second : Nat
  nanosecond : Nat
  secondIsInDay : second < secondsPerDay
  nanosecondIsInSecond : isNanosecond second nanosecond = true
deriving DecidableEq

namespace Instant

/-- The instant with a date, a second and a nanosecond, if there is one. -/
def of?
    (date : Date)
    (second nanosecond : Nat) :
    Option Instant :=
  if holds :
      second < secondsPerDay ∧ isNanosecond second nanosecond = true then
    some ⟨date, second, nanosecond, holds.1, holds.2⟩
  else
    none

/-- The instant that a clock shows, unless the calendar ends before. -/
def sinceEpoch? (seconds nanoseconds : Nat) : Option Instant :=
  (Date.epoch.daysAfter? (seconds / secondsPerDay)).bind fun date =>
    of? date (seconds % secondsPerDay) nanoseconds

/-- The fraction of a second, in as few groups of three digits as it needs. -/
def fractionText (nanosecond : Nat) : List Char :=
  if nanosecond = 0 then
    []
  else if nanosecond % 1000000 = 0 then
    '.' :: Decimal.paddedDigits 3 (nanosecond / 1000000)
  else if nanosecond % 1000 = 0 then
    '.' :: Decimal.paddedDigits 6 (nanosecond / 1000)
  else
    '.' :: Decimal.paddedDigits 9 nanosecond

/-- The text of an instant. -/
def text (instant : Instant) : String :=
  let leap := instant.nanosecond / nanosecondsPerSecond
  String.ofList
    (instant.date.characters ++
      'T' :: Date.twoDigits (instant.second / 3600) ++
      ':' :: Date.twoDigits (instant.second / 60 % 60) ++
      ':' :: Date.twoDigits (instant.second % 60 + leap) ++
      fractionText (instant.nanosecond % nanosecondsPerSecond) ++ ['Z'])

/--
The nanoseconds of an optional fraction; digits past the ninth are dropped.
-/
def takeFraction? (characters : List Char) : Option (Nat × List Char) :=
  match characters with
  | '.' :: rest =>
      let digits := (rest.take 9).takeWhile isDigit
      if digits.isEmpty then
        none
      else
        some
          (Nat.ofDigitChars 10 digits 0 * 10 ^ (9 - digits.length),
            rest.dropWhile isDigit)
  | _ => some (0, characters)

/-- A time of day as its second and nanosecond, and what follows it. -/
def takeTime? (characters : List Char) : Option ((Nat × Nat) × List Char) := do
  let (hour, afterHour) ← Date.takeShortNumber? 2 characters
  let minutePart ← Date.takeMark? ':' afterHour
  let (minute, afterMinute) ← Date.takeShortNumber? 2 minutePart
  let secondPart ← Date.takeMark? ':' afterMinute
  let (second, afterSecond) ← Date.takeShortNumber? 2 secondPart
  let (fraction, rest) ← takeFraction? afterSecond
  if hour ≤ 23 ∧ minute ≤ 59 ∧ second ≤ 60 then
    if second = 60 then
      some
        ((hour * 3600 + minute * 60 + 59, nanosecondsPerSecond + fraction),
          rest)
    else
      some ((hour * 3600 + minute * 60 + second, fraction), rest)
  else
    none

/-- The number in exactly two digits, and what follows it. -/
def takeTwoDigits? (characters : List Char) : Option (Nat × List Char) :=
  match characters with
  | tens :: ones :: rest =>
      if isDigit tens && isDigit ones then
        some (Nat.ofDigitChars 10 [tens, ones] 0, rest)
      else
        none
  | _ => none

/-- An offset of hours and minutes in seconds, whose sign has been taken. -/
def takeHoursAndMinutes?
    (characters : List Char) :
    Option (Nat × List Char) := do
  let (hours, afterHours) ← takeTwoDigits? characters
  let minutePart :=
    afterHours.dropWhile fun character => character = ':' || isBlank character
  let (minutes, rest) ← takeTwoDigits? minutePart
  if minutes ≤ 59 ∧ hours ≤ 23 then
    some (hours * 3600 + minutes * 60, rest)
  else
    none

/-- An offset in seconds, and what follows it. -/
def takeOffset? (characters : List Char) : Option (Int × List Char) :=
  match characters with
  | 'Z' :: rest => some (0, rest)
  | 'z' :: rest => some (0, rest)
  | '+' :: rest =>
      (takeHoursAndMinutes? rest).map fun taken => ((taken.1 : Int), taken.2)
  | '-' :: rest =>
      (takeHoursAndMinutes? rest).map fun taken => (-(taken.1 : Int), taken.2)
  | '\u2212' :: rest =>
      (takeHoursAndMinutes? rest).map fun taken => (-(taken.1 : Int), taken.2)
  | u :: t :: c :: rest =>
      if u.toUpper = 'U' && t.toUpper = 'T' && c.toUpper = 'C' then
        some (0, rest)
      else
        none
  | _ => none

/-- The instant at offset zero of a local date and time with an offset. -/
def ofLocal?
    (date : Date)
    (second nanosecond : Nat)
    (offset : Int) :
    Option Instant :=
  let moved := (second : Int) - offset
  if moved < 0 then
    date.previous?.bind fun day =>
      of? day (moved + secondsPerDay).toNat nanosecond
  else if moved < secondsPerDay then
    of? date moved.toNat nanosecond
  else
    date.next?.bind fun day =>
      of? day (moved - secondsPerDay).toNat nanosecond

/-- The instant that a text denotes. -/
def read? (text : String) : Option Instant := do
  let (date, afterDate) ← Date.take? text.toList
  let timePart ←
    match afterDate with
    | separator :: rest =>
        if separator = 'T' || separator = 't' || separator = ' ' then
          some rest
        else
          none
    | [] => none
  let ((second, nanosecond), afterTime) ← takeTime? timePart
  let (offset, rest) ← takeOffset? (Date.skipBlanks afterTime)
  let instant ← ofLocal? date second nanosecond offset
  if rest.all isBlank then some instant else none

end Instant

end IncentivePay
