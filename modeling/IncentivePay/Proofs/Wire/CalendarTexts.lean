import IncentivePay.Calendar.Instant
import IncentivePay.Calendar.Period
import IncentivePay.Proofs.Formula.NumberTexts

/-!
# Dates, instants and periods are read back

The text of every date of the calendar is read as the date, whatever the sign
and the number of digits of its year, and that of every instant as the
instant, leap seconds included.  The text of a period is read as the period
when its year has at most four digits and no sign, and no other period is
read.
-/

namespace IncentivePay

open Formula

attribute [local instance (2000)] instPowNat

/-! ## Padded digits -/

section Padding

variable
  {width value : Nat}
  {rest : List Char}

theorem ofDigitChars_padded (width value : Nat) :
    Nat.ofDigitChars 10 (Decimal.paddedDigits width value) 0 = value := by
  simp only [Decimal.paddedDigits, Nat.ofDigitChars_append,
    Nat.ofDigitChars_replicate_zero, Nat.mul_zero,
    Nat.ofDigitChars_ten_toDigits]

theorem exists_digit_of_padded (width value : Nat) :
    ∃ digit others,
      Decimal.paddedDigits width value = digit :: others ∧
        isDigit digit = true := by
  cases shape : Decimal.paddedDigits width value with
  | nil =>
      obtain ⟨-, noDigits⟩ := List.append_eq_nil_iff.1 shape
      exact absurd noDigits Nat.toDigits_ne_nil
  | cons digit others =>
      have member : digit ∈ Decimal.paddedDigits width value := by
        rw [shape]
        exact List.mem_cons_self
      exact ⟨digit, others, rfl, isDigit_of_mem_paddedDigits member⟩

theorem isBlank_of_isDigit
    {digit : Char}
    (isDigit : isDigit digit = true) :
    isBlank digit = false :=
  isBlank_of_extendsNumber (extendsNumber_of_isDigit isDigit)

theorem takeWhile_padded
    (width value : Nat)
    (stops : Stops isDigit rest) :
    (Decimal.paddedDigits width value ++ rest).takeWhile isDigit =
      Decimal.paddedDigits width value :=
  takeWhile_append_of_stops (fun _ => isDigit_of_mem_paddedDigits) stops

theorem dropWhile_padded
    (width value : Nat)
    (stops : Stops isDigit rest) :
    (Decimal.paddedDigits width value ++ rest).dropWhile isDigit = rest :=
  dropWhile_append_of_stops (fun _ => isDigit_of_mem_paddedDigits) stops

end Padding

/-! ## Dates -/

namespace Date

section Parts

variable
  {width value : Nat}
  {rest : List Char}

theorem skipBlanks_cons
    {character : Char}
    (notBlank : isBlank character = false)
    (rest : List Char) :
    skipBlanks (character :: rest) = character :: rest := by
  simp [skipBlanks, notBlank]

theorem skipBlanks_padded (width value : Nat) (rest : List Char) :
    skipBlanks (Decimal.paddedDigits width value ++ rest) =
      Decimal.paddedDigits width value ++ rest := by
  obtain ⟨digit, others, shape, isDigit⟩ := exists_digit_of_padded width value
  rw [shape, List.cons_append, skipBlanks_cons (isBlank_of_isDigit isDigit)]

theorem takeDigits?_padded (width value : Nat) (rest : List Char) :
    takeDigits? (Decimal.paddedDigits width value) rest =
      some (value, rest) := by
  obtain ⟨digit, others, shape, -⟩ := exists_digit_of_padded width value
  rw [takeDigits?, ofDigitChars_padded, shape]
  rfl

theorem takeNumber?_padded
    (width value : Nat)
    (stops : Stops isDigit rest) :
    takeNumber? (Decimal.paddedDigits width value ++ rest) =
      some (value, rest) := by
  rw [takeNumber?, takeWhile_padded width value stops,
    dropWhile_padded width value stops, takeDigits?_padded]

/-- A number that fills its width is read, whatever follows it. -/
theorem takeShortNumber?_padded
    (fits : value < 10 ^ width)
    (positive : 0 < width)
    (rest : List Char) :
    takeShortNumber? width (Decimal.paddedDigits width value ++ rest) =
      some (value, rest) := by
  have length := Decimal.length_paddedDigits fits positive
  have taken := takeWhile_padded width value stops_nil
  rw [List.append_nil] at taken
  rw [takeShortNumber?, skipBlanks_padded, List.take_left' length,
    taken, List.drop_left, takeDigits?_padded]

theorem takeMark?_cons
    {mark : Char}
    (notBlank : isBlank mark = false)
    (rest : List Char) :
    takeMark? mark (mark :: rest) = some rest := by
  rw [takeMark?, skipBlanks_cons notBlank]
  simp

end Parts

/-- The text of a year is read up to the hyphen after it. -/
theorem takeYear?_yearText
    (year : Int)
    (rest : List Char) :
    takeYear? (yearText year ++ '-' :: rest) = some (year, '-' :: rest) := by
  have stops : Stops isDigit ('-' :: rest) := stops_cons (by decide)
  have read := takeNumber?_padded 4 year.natAbs stops
  unfold yearText
  dsimp only
  split
  · have isYear : -(year.natAbs : Int) = year := by omega
    rw [List.cons_append, takeYear?, skipBlanks_cons (by decide)]
    simp only [read, Option.map_some, isYear]
  · have isYear : (year.natAbs : Int) = year := by omega
    split
    · have fits : year.natAbs < 10 ^ 4 := by omega
      obtain ⟨digit, others, shape, isDigit⟩ :=
        exists_digit_of_padded 4 year.natAbs
      have short := takeShortNumber?_padded fits (by decide) ('-' :: rest)
      rw [takeYear?, skipBlanks_padded]
      rw [shape, List.cons_append] at short ⊢
      split
      · rename_i same
        obtain ⟨rfl, -⟩ := List.cons.inj same
        exact absurd isDigit (by decide)
      · rename_i same
        obtain ⟨rfl, -⟩ := List.cons.inj same
        exact absurd isDigit (by decide)
      · rw [short, Option.map_some, isYear]
    · rw [List.cons_append, takeYear?, skipBlanks_cons (by decide)]
      simp only [read, Option.map_some, isYear]

theorem of?_self (date : Date) :
    of? date.year date.month date.day = some date :=
  dif_pos ⟨date.yearIsCalendar, date.dayIsPositive, date.dayIsInMonth⟩

theorem month_lt (date : Date) : date.month < 100 := by
  have positive := date.dayIsPositive
  have within := date.dayIsInMonth
  unfold daysInMonth at within
  split at within <;> omega

theorem daysInMonth_le
    (year : Int)
    (month : Nat) :
    daysInMonth year month ≤ 31 := by
  unfold daysInMonth
  split
  case h_12 => split <;> omega
  all_goals omega

theorem day_lt (date : Date) : date.day < 100 := by
  have within := date.dayIsInMonth
  have atMost := daysInMonth_le date.year date.month
  omega

theorem takeShortNumber?_twoDigits
    {value : Nat}
    (fits : value < 100)
    (rest : List Char) :
    takeShortNumber? 2 (twoDigits value ++ rest) = some (value, rest) :=
  takeShortNumber?_padded fits (by decide) rest

/-- The characters of a date are read as the date, whatever follows them. -/
theorem take?_characters
    (date : Date)
    (rest : List Char) :
    take? (date.characters ++ rest) = some (date, rest) := by
  have spelled :
      date.characters ++ rest =
        yearText date.year ++ '-' :: (twoDigits date.month ++
          '-' :: (twoDigits date.day ++ rest)) := by
    simp [characters]
  have isMark : isBlank '-' = false := by decide
  rw [take?, spelled, takeYear?_yearText]
  simp only [bind, Option.bind_some, takeMark?_cons isMark,
    takeShortNumber?_twoDigits date.month_lt,
    takeShortNumber?_twoDigits date.day_lt, of?_self]

/-- The text of a date is read as the date. -/
theorem read?_text (date : Date) : read? date.text = some date := by
  have taken := date.take?_characters []
  rw [List.append_nil] at taken
  rw [read?, text, String.toList_ofList, taken]
  rfl

end Date

/-! ## Instants -/

namespace Instant

/-- The nanoseconds of a fraction, up to the letter after it. -/
theorem takeFraction?_padded
    {width value : Nat}
    (fits : value < 10 ^ width)
    (positive : 0 < width)
    (atMost : width ≤ 9)
    (rest : List Char) :
    takeFraction? ('.' :: (Decimal.paddedDigits width value ++ 'Z' :: rest)) =
      some (value * 10 ^ (9 - width), 'Z' :: rest) := by
  have length := Decimal.length_paddedDigits fits positive
  have stops (others : List Char) : Stops isDigit ('Z' :: others) :=
    stops_cons (by decide)
  have digits :
      ((Decimal.paddedDigits width value ++ 'Z' :: rest).take 9).takeWhile
          isDigit =
        Decimal.paddedDigits width value := by
    rw [List.take_append, length, List.take_of_length_le (by omega)]
    cases left : 9 - width with
    | zero =>
        rw [List.take_zero]
        exact takeWhile_padded width value stops_nil
    | succ left =>
        rw [List.take_succ_cons]
        exact takeWhile_padded width value (stops _)
  obtain ⟨digit, others, shape, -⟩ := exists_digit_of_padded width value
  have notEmpty : (Decimal.paddedDigits width value).isEmpty = false := by
    rw [shape]
    rfl
  rw [takeFraction?, digits]
  simp only [notEmpty, Bool.false_eq_true, if_false, ofDigitChars_padded,
    length, dropWhile_padded width value (stops rest)]

/-- The fraction of a second is read up to the letter after it. -/
theorem takeFraction?_fractionText
    {nanosecond : Nat}
    (isFraction : nanosecond < nanosecondsPerSecond)
    (rest : List Char) :
    takeFraction? (fractionText nanosecond ++ 'Z' :: rest) =
      some (nanosecond, 'Z' :: rest) := by
  unfold nanosecondsPerSecond at isFraction
  unfold fractionText
  split
  · rename_i isZero
    rw [isZero]
    rfl
  split
  · have whole : nanosecond / 1000000 * 10 ^ (9 - 3) = nanosecond := by omega
    rw [List.cons_append,
      takeFraction?_padded (by omega) (by decide) (by decide), whole]
  split
  · have whole : nanosecond / 1000 * 10 ^ (9 - 6) = nanosecond := by omega
    rw [List.cons_append,
      takeFraction?_padded (by omega) (by decide) (by decide), whole]
  · rw [List.cons_append,
      takeFraction?_padded (by omega) (by decide) (by decide), Nat.sub_self,
      Nat.pow_zero, Nat.mul_one]

theorem of?_self (instant : Instant) :
    of? instant.date instant.second instant.nanosecond = some instant :=
  dif_pos ⟨instant.secondIsInDay, instant.nanosecondIsInSecond⟩

/-- An instant at offset zero stays where it is. -/
theorem ofLocal?_self (instant : Instant) :
    ofLocal? instant.date instant.second instant.nanosecond 0 =
      some instant := by
  have inDay := instant.secondIsInDay
  rw [ofLocal?, Int.sub_zero, if_neg (by omega), if_pos (by omega),
    Int.toNat_natCast, of?_self]

/-- The characters of the time of day of an instant, without its letter. -/
def timeText (instant : Instant) : List Char :=
  Date.twoDigits (instant.second / 3600) ++
    ':' :: (Date.twoDigits (instant.second / 60 % 60) ++
    ':' :: (Date.twoDigits
        (instant.second % 60 + instant.nanosecond / nanosecondsPerSecond) ++
      fractionText (instant.nanosecond % nanosecondsPerSecond)))

theorem text_eq (instant : Instant) :
    instant.text =
      String.ofList
        (instant.date.characters ++ 'T' :: (instant.timeText ++ ['Z'])) := by
  simp [text, timeText]

/-- A leap second is the sixtieth of its minute. -/
theorem leap_cases (instant : Instant) :
    (instant.nanosecond / nanosecondsPerSecond = 0 ∧
        instant.nanosecond < nanosecondsPerSecond) ∨
      (instant.nanosecond / nanosecondsPerSecond = 1 ∧
        instant.second % 60 = 59) := by
  have within := instant.nanosecondIsInSecond
  simp only [isNanosecond, Bool.or_eq_true, Bool.and_eq_true,
    decide_eq_true_eq] at within
  unfold nanosecondsPerSecond at *
  omega

/-- The time of day of an instant is read, with a leap second as itself. -/
theorem takeTime?_timeText
    (instant : Instant)
    (rest : List Char) :
    takeTime? (instant.timeText ++ 'Z' :: rest) =
      some ((instant.second, instant.nanosecond), 'Z' :: rest) := by
  have inDay := instant.secondIsInDay
  have leap := instant.leap_cases
  have isMark : isBlank ':' = false := by decide
  have hour : instant.second / 3600 < 100 := by
    unfold secondsPerDay at inDay
    omega
  have minute : instant.second / 60 % 60 < 100 := by omega
  have second :
      instant.second % 60 + instant.nanosecond / nanosecondsPerSecond <
        100 := by
    omega
  have fraction :
      instant.nanosecond % nanosecondsPerSecond < nanosecondsPerSecond :=
    Nat.mod_lt _ (by decide)
  rw [takeTime?, timeText]
  simp only [bind, Option.bind_some, List.append_assoc, List.cons_append,
    Date.takeShortNumber?_twoDigits hour,
    Date.takeShortNumber?_twoDigits minute,
    Date.takeShortNumber?_twoDigits second, Date.takeMark?_cons isMark,
    takeFraction?_fractionText fraction]
  have parts := Nat.div_add_mod' instant.nanosecond nanosecondsPerSecond
  rw [if_pos (by unfold secondsPerDay at inDay; omega)]
  rcases leap with ⟨noLeap, small⟩ | ⟨isLeap, isLast⟩
  · have isSecond :
        instant.second / 3600 * 3600 + instant.second / 60 % 60 * 60 +
            (instant.second % 60 + 0) =
          instant.second := by
      omega
    rw [if_neg (by omega), noLeap, Nat.mod_eq_of_lt small, isSecond]
  · have isSecond :
        instant.second / 3600 * 3600 + instant.second / 60 % 60 * 60 + 59 =
          instant.second := by
      omega
    have isNanosecond :
        nanosecondsPerSecond + instant.nanosecond % nanosecondsPerSecond =
          instant.nanosecond := by
      rw [isLeap] at parts
      omega
    rw [if_pos (by omega), isSecond, isNanosecond]

/-- The text of an instant is read as the instant. -/
theorem read?_text (instant : Instant) : read? instant.text = some instant := by
  have offset : takeOffset? (Date.skipBlanks ['Z']) = some (0, []) := rfl
  rw [read?, text_eq, String.toList_ofList, Date.take?_characters]
  simp only [bind, Option.bind_some, decide_true, Bool.true_or, if_true]
  rw [takeTime?_timeText, Option.bind_some, offset, Option.bind_some,
    ofLocal?_self, Option.bind_some, List.all_nil, if_pos rfl]

end Instant

/-! ## Periods -/

/-- So many digits stand for less than the power of ten. -/
theorem ofDigitChars_lt
    {digits : List Char}
    (areDigits : ∀ digit ∈ digits, isDigit digit = true)
    (start : Nat) :
    Nat.ofDigitChars 10 digits start < (start + 1) * 10 ^ digits.length := by
  induction digits generalizing start with
  | nil => simp
  | cons digit digits ih =>
      obtain ⟨isDigit, areDigits⟩ := List.forall_mem_cons.1 areDigits
      have atMostNine : digit.toNat ≤ '9'.toNat := by
        simp only [IncentivePay.isDigit, Bool.and_eq_true, decide_eq_true_eq,
          Char.le_def, UInt32.le_iff_toNat_le] at isDigit
        exact isDigit.2
      have small : digit.toNat - '0'.toNat ≤ 9 := Nat.sub_le_sub_right atMostNine _
      calc Nat.ofDigitChars 10 (digit :: digits) start
          = Nat.ofDigitChars 10 digits
              (10 * start + (digit.toNat - '0'.toNat)) :=
            Nat.ofDigitChars_cons
        _ < (10 * start + (digit.toNat - '0'.toNat) + 1) *
              10 ^ digits.length := ih areDigits _
        _ ≤ ((start + 1) * 10) * 10 ^ digits.length :=
            Nat.mul_le_mul_right _ (by omega)
        _ = (start + 1) * 10 ^ (digit :: digits).length := by
            rw [List.length_cons, Nat.pow_succ', Nat.mul_assoc]

/-- A year that is written with four digits. -/
def Period.IsWritable (period : Period) : Prop :=
  0 ≤ period.year ∧ period.year ≤ 9999

theorem trimBlank_of_stops
    {characters : List Char}
    (starts : Stops isBlank characters)
    (ends : Stops isBlank characters.reverse) :
    trimBlank characters = characters := by
  rw [trimBlank, dropWhile_of_stops starts, dropWhile_of_stops ends,
    List.reverse_reverse]

theorem stops_of_padded
    (width value : Nat)
    (rest : List Char) :
    Stops isBlank (Decimal.paddedDigits width value ++ rest) := by
  obtain ⟨digit, others, shape, isDigit⟩ := exists_digit_of_padded width value
  rw [shape]
  exact stops_cons (isBlank_of_isDigit isDigit)

theorem stops_of_reverse_padded
    (width value : Nat)
    (rest : List Char) :
    Stops isBlank ((Decimal.paddedDigits width value).reverse ++ rest) := by
  cases shape : (Decimal.paddedDigits width value).reverse with
  | nil =>
      obtain ⟨digit, others, same, -⟩ := exists_digit_of_padded width value
      simp [same] at shape
  | cons digit others =>
      have member : digit ∈ Decimal.paddedDigits width value := by
        rw [← List.mem_reverse, shape]
        exact List.mem_cons_self
      exact stops_cons (isBlank_of_isDigit (isDigit_of_mem_paddedDigits member))

namespace Period

/-- The text of a writable period is read as the period. -/
theorem parse_text
    {period : Period}
    (writable : period.IsWritable) :
    parse period.text = .ok period := by
  obtain ⟨nonnegative, small⟩ := writable
  have isYear : (period.year.natAbs : Int) = period.year := by omega
  have yearFits : period.year.natAbs < 10 ^ 4 := by omega
  have monthFits : period.month < 100 := by
    have atMost := period.monthIsAtMostTwelve
    omega
  let year := Decimal.paddedDigits 4 period.year.natAbs
  let month := Decimal.paddedDigits 2 period.month
  have yearLength : year.length = 4 :=
    Decimal.length_paddedDigits yearFits (by decide)
  have monthLength : month.length = 2 :=
    Decimal.length_paddedDigits monthFits (by decide)
  have areDigits (width value : Nat) :
      (Decimal.paddedDigits width value).all isDigit = true :=
    List.all_eq_true.2 fun _ => isDigit_of_mem_paddedDigits
  have spelled : period.text.toList = year ++ '-' :: month := by
    rw [text, String.toList_ofList, yearText, if_neg (by omega)]
  have trimmed : trimBlank (year ++ '-' :: month) = year ++ '-' :: month := by
    apply trimBlank_of_stops (stops_of_padded 4 _ _)
    rw [List.reverse_append, List.reverse_cons, List.append_assoc]
    exact stops_of_reverse_padded 2 _ _
  have noHyphen : ∀ digit ∈ year, (digit != '-') = true := by
    intro digit member
    rw [bne_iff_ne]
    rintro rfl
    exact absurd (isDigit_of_mem_paddedDigits member) (by decide)
  have stops : Stops (· != '-') ('-' :: month) := stops_cons (by decide)
  rw [parse, spelled, trimmed, takeWhile_append_of_stops noHyphen stops,
    dropWhile_append_of_stops noHyphen stops]
  have notEmpty : month.isEmpty = false := by
    rw [List.isEmpty_eq_false_iff, ← List.length_pos_iff, monthLength]
    decide
  have isPeriod :
      (decide (year.length = 4) && year.all isDigit && !month.isEmpty &&
          decide (month.length ≤ 2) && month.all isDigit) =
        true := by
    simp [yearLength, monthLength, notEmpty, year, month, areDigits]
  have yearRead : (Nat.ofDigitChars 10 year 0 : Int) = period.year := by
    rw [ofDigitChars_padded, isYear]
  have monthRead : Nat.ofDigitChars 10 month 0 = period.month :=
    ofDigitChars_padded 2 period.month
  dsimp only
  rw [if_pos isPeriod, yearRead, monthRead, of,
    dif_pos
      ⟨period.yearIsCalendar, period.monthIsPositive,
        period.monthIsAtMostTwelve⟩]

/-- Only writable periods are read. -/
theorem isWritable_of_parse
    {text : String}
    {period : Period}
    (isRead : parse text = .ok period) :
    period.IsWritable := by
  unfold parse at isRead
  dsimp only at isRead
  split at isRead
  · cases isRead
  · rename_i month shape
    split at isRead
    · rename_i isPeriod
      simp only [Bool.and_eq_true, decide_eq_true_eq, List.all_eq_true] at isPeriod
      obtain ⟨⟨⟨⟨length, areDigits⟩, -⟩, -⟩, -⟩ := isPeriod
      have small := ofDigitChars_lt areDigits 0
      rw [length] at small
      unfold of at isRead
      split at isRead
      · obtain rfl := Except.ok.inj isRead
        constructor <;> dsimp only <;> omega
      · cases isRead
    · cases isRead

end Period

end IncentivePay
