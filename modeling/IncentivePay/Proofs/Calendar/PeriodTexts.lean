import Mathlib.Data.List.TakeWhile
import IncentivePay.Proofs.Wire.CalendarTexts

/-!
# The texts of periods

A text is a period when it spells one: between blanks it has four digits, a
hyphen and one or two digits, and the last of them are a month.  Nothing else
is read, and the error tells the two reasons apart.  A printed period spells
itself if its year has four digits; a longer year and a sign are no spelling.

Printed periods of four-digit years have digits in the same places.  Digits of
one length are in the order of their values, so these texts are in the order of
time.
-/

namespace IncentivePay

open Formula

attribute [local instance (2000)] instPowNat

/-! ## Digits in the order of their values -/

section Order

variable {left right : List Char}

/-- Digits stand for at least what has been read before them. -/
theorem le_ofDigitChars
    (digits : List Char)
    (start : Nat) :
    start * 10 ^ digits.length ≤ Nat.ofDigitChars 10 digits start := by
  induction digits generalizing start with
  | nil => simp
  | cons digit digits ih =>
      calc start * 10 ^ (digit :: digits).length
          = (10 * start) * 10 ^ digits.length := by
            rw [List.length_cons, Nat.pow_succ', ← Nat.mul_assoc,
              Nat.mul_comm start]
        _ ≤ (10 * start + (digit.toNat - '0'.toNat)) * 10 ^ digits.length :=
            Nat.mul_le_mul_right _ (Nat.le_add_right _ _)
        _ ≤ Nat.ofDigitChars 10 digits
              (10 * start + (digit.toNat - '0'.toNat)) := ih _
        _ = Nat.ofDigitChars 10 (digit :: digits) start :=
            Nat.ofDigitChars_cons.symm

/--
Of digits of one length, those with the lesser start have the lesser value.
-/
theorem ofDigitChars_lt_of_lt
    (areDigits : ∀ digit ∈ left, isDigit digit = true)
    (sameLength : left.length = right.length)
    {leftStart rightStart : Nat}
    (less : leftStart < rightStart) :
    Nat.ofDigitChars 10 left leftStart <
      Nat.ofDigitChars 10 right rightStart :=
  calc Nat.ofDigitChars 10 left leftStart
      < (leftStart + 1) * 10 ^ left.length := ofDigitChars_lt areDigits _
    _ ≤ rightStart * 10 ^ right.length := by
        rw [sameLength]
        exact Nat.mul_le_mul_right _ less
    _ ≤ Nat.ofDigitChars 10 right rightStart := le_ofDigitChars right _

/-- A digit is not below the digit zero, from which its value counts. -/
theorem zero_le_of_isDigit
    {digit : Char}
    (isDigit : isDigit digit = true) :
    '0'.toNat ≤ digit.toNat := by
  simp only [IncentivePay.isDigit, Bool.and_eq_true, decide_eq_true_eq,
    Char.le_def, UInt32.le_iff_toNat_le] at isDigit
  exact isDigit.1

/-- Digits of one length are in the order of their values. -/
theorem digits_lt_iff
    (leftDigits : ∀ digit ∈ left, isDigit digit = true)
    (rightDigits : ∀ digit ∈ right, isDigit digit = true)
    (sameLength : left.length = right.length)
    (start : Nat) :
    left < right ↔
      Nat.ofDigitChars 10 left start < Nat.ofDigitChars 10 right start := by
  induction left generalizing right start with
  | nil =>
      obtain rfl := List.length_eq_zero_iff.1 sameLength.symm
      simp
  | cons first left ih =>
      cases right with
      | nil => simp at sameLength
      | cons second right =>
          obtain ⟨firstIsDigit, leftRest⟩ := List.forall_mem_cons.1 leftDigits
          obtain ⟨secondIsDigit, rightRest⟩ :=
            List.forall_mem_cons.1 rightDigits
          have restLength : left.length = right.length := by
            simpa using sameLength
          have firstLeast := zero_le_of_isDigit firstIsDigit
          have secondLeast := zero_le_of_isDigit secondIsDigit
          rw [List.cons_lt_cons_iff, Nat.ofDigitChars_cons,
            Nat.ofDigitChars_cons, Char.lt_def, UInt32.lt_iff_toNat_lt]
          -- The first digits decide, unless they are the same.
          rcases Nat.lt_trichotomy first.toNat second.toNat with
            less | same | greater
          · have value :=
              ofDigitChars_lt_of_lt leftRest restLength
                (show 10 * start + (first.toNat - '0'.toNat) <
                  10 * start + (second.toNat - '0'.toNat) by omega)
            exact iff_of_true (.inl less) value
          · obtain rfl := Char.toNat_inj.1 same
            rw [← ih leftRest rightRest restLength]
            simp
          · have value :=
              ofDigitChars_lt_of_lt rightRest restLength.symm
                (show 10 * start + (second.toNat - '0'.toNat) <
                  10 * start + (first.toNat - '0'.toNat) by omega)
            apply iff_of_false _ (Nat.lt_asymm value)
            rintro (less | ⟨rfl, -⟩)
            · exact Nat.lt_asymm greater less
            · exact Nat.lt_irrefl _ greater

/--
Lists of two parts are compared by the first parts when these are as long.
-/
theorem append_lt_append_iff
    {leftRest rightRest : List Char}
    (sameLength : left.length = right.length) :
    left ++ leftRest < right ++ rightRest ↔
      left < right ∨ left = right ∧ leftRest < rightRest := by
  induction left generalizing right with
  | nil =>
      obtain rfl := List.length_eq_zero_iff.1 sameLength.symm
      simp
  | cons first left ih =>
      cases right with
      | nil => simp at sameLength
      | cons second right =>
          have restLength : left.length = right.length := by
            simpa using sameLength
          simp only [List.cons_append, List.cons_lt_cons_iff, ih restLength,
            List.cons.injEq, and_or_left, or_assoc, and_assoc]

theorem padded_lt_padded_iff
    {width first second : Nat}
    (firstFits : first < 10 ^ width)
    (secondFits : second < 10 ^ width)
    (positive : 0 < width) :
    Decimal.paddedDigits width first < Decimal.paddedDigits width second ↔
      first < second := by
  have sameLength :
      (Decimal.paddedDigits width first).length =
        (Decimal.paddedDigits width second).length := by
    rw [Decimal.length_paddedDigits firstFits positive,
      Decimal.length_paddedDigits secondFits positive]
  rw [digits_lt_iff (fun _ => isDigit_of_mem_paddedDigits)
    (fun _ => isDigit_of_mem_paddedDigits) sameLength 0,
    ofDigitChars_padded, ofDigitChars_padded]

theorem padded_eq_padded_iff (width first second : Nat) :
    Decimal.paddedDigits width first = Decimal.paddedDigits width second ↔
      first = second := by
  constructor
  · intro same
    rw [← ofDigitChars_padded width first, same, ofDigitChars_padded]
  · rintro rfl
    rfl

end Order

/-! ## Blank characters around a text -/

section Blanks

variable {before core after digits : List Char}

theorem stops_of_areDigits
    (areDigits : AreDigits digits)
    (rest : List Char) :
    Stops isBlank (digits ++ rest) := by
  obtain ⟨nonempty, areDigits⟩ := areDigits
  cases digits with
  | nil => exact absurd rfl nonempty
  | cons first others =>
      exact stops_cons (isBlank_of_isDigit (areDigits first List.mem_cons_self))

theorem areDigits_reverse (areDigits : AreDigits digits) :
    AreDigits digits.reverse := by
  obtain ⟨nonempty, areDigits⟩ := areDigits
  refine ⟨by simpa using nonempty, ?_⟩
  intro digit member
  exact areDigits digit (List.mem_reverse.1 member)

/--
Trimming takes the blanks off around what neither starts nor ends with one.
-/
theorem trimBlank_append
    (beforeBlank : ∀ character ∈ before, isBlank character = true)
    (afterBlank : ∀ character ∈ after, isBlank character = true)
    (starts : Stops isBlank (core ++ after))
    (ends : Stops isBlank core.reverse) :
    trimBlank (before ++ (core ++ after)) = core := by
  have reversedBlank :
      ∀ character ∈ after.reverse, isBlank character = true := by
    intro character member
    exact afterBlank character (List.mem_reverse.1 member)
  rw [trimBlank, dropWhile_append_of_stops beforeBlank starts,
    List.reverse_append, dropWhile_append_of_stops reversedBlank ends,
    List.reverse_reverse]

/-- What trimming takes off is blank. -/
theorem exists_blanks_around (characters : List Char) :
    ∃ before after,
      (∀ character ∈ before, isBlank character = true) ∧
        (∀ character ∈ after, isBlank character = true) ∧
        characters = before ++ (trimBlank characters ++ after) := by
  let left := characters.dropWhile isBlank
  refine
    ⟨characters.takeWhile isBlank, (left.reverse.takeWhile isBlank).reverse,
      fun _ => List.mem_takeWhile_imp, ?_, ?_⟩
  · intro character member
    exact List.mem_takeWhile_imp (List.mem_reverse.1 member)
  · have kept : trimBlank characters = (left.reverse.dropWhile isBlank).reverse :=
      rfl
    rw [kept, ← List.reverse_append, List.takeWhile_append_dropWhile,
      List.reverse_reverse, List.takeWhile_append_dropWhile]

end Blanks

namespace Period

/-! ## Reading -/

/--
A text is four digits, a hyphen and one or two digits, between blanks; they
denote a year and the number of a month.
-/
inductive Spells : String → Int → Nat → Prop
  | between {before year month after : List Char} :
      (∀ character ∈ before, isBlank character = true) →
      (∀ character ∈ after, isBlank character = true) →
      AreDigits year →
      year.length = 4 →
      AreDigits month →
      month.length ≤ 2 →
      Spells (String.ofList (before ++ (year ++ '-' :: month ++ after)))
        (Nat.ofDigitChars 10 year 0 : Nat)
        (Nat.ofDigitChars 10 month 0)

variable
  {text : String}
  {year : Int}
  {month : Nat}

theorem Spells.year_bounds (spelled : Spells text year month) :
    0 ≤ year ∧ year ≤ 9999 := by
  obtain ⟨-, -, areDigits, length, -, -⟩ := spelled
  have small := ofDigitChars_lt areDigits.2 0
  rw [length] at small
  omega

/-- No hyphen is among digits. -/
theorem ne_hyphen_of_areDigits
    {digits : List Char}
    (areDigits : AreDigits digits) :
    ∀ digit ∈ digits, (digit != '-') = true := by
  intro digit member
  rw [bne_iff_ne]
  rintro rfl
  exact absurd (areDigits.2 _ member) (by decide)

/-- A spelling is read as the period with its numbers. -/
theorem parse_of_spells (spelled : Spells text year month) :
    parse text = of year month := by
  obtain @⟨before, year, month, after, beforeBlank, afterBlank, yearDigits,
    yearLength, monthDigits, monthLength⟩ := spelled
  have starts : Stops isBlank ((year ++ '-' :: month) ++ after) := by
    rw [List.append_assoc]
    exact stops_of_areDigits yearDigits _
  have ends : Stops isBlank (year ++ '-' :: month).reverse := by
    rw [List.reverse_append, List.reverse_cons, List.append_assoc]
    exact stops_of_areDigits (areDigits_reverse monthDigits) _
  have trimmed := trimBlank_append beforeBlank afterBlank starts ends
  have noHyphen := ne_hyphen_of_areDigits yearDigits
  have stops : Stops (· != '-') ('-' :: month) := stops_cons (by decide)
  have shape :
      (decide (year.length = 4) && year.all isDigit && !month.isEmpty &&
          decide (month.length ≤ 2) && month.all isDigit) =
        true := by
    simp only [Bool.and_eq_true, decide_eq_true_eq, List.all_eq_true,
      Bool.not_eq_true', List.isEmpty_eq_false_iff]
    exact
      ⟨⟨⟨⟨yearLength, yearDigits.2⟩, monthDigits.1⟩, monthLength⟩,
        monthDigits.2⟩
  rw [parse, String.toList_ofList, trimmed,
    takeWhile_append_of_stops noHyphen stops,
    dropWhile_append_of_stops noHyphen stops]
  exact if_pos shape

/-- What is no spelling is malformed. -/
theorem parse_of_not_spells
    (unspelled : ¬ ∃ year month, Spells text year month) :
    parse text = .error (.malformed text) := by
  unfold parse
  dsimp only
  split
  · rfl
  · rename_i hyphen month shape
    apply if_neg
    intro isShape
    simp only [Bool.and_eq_true, decide_eq_true_eq, List.all_eq_true,
      Bool.not_eq_true', List.isEmpty_eq_false_iff] at isShape
    obtain ⟨⟨⟨⟨yearLength, yearDigits⟩, nonempty⟩, monthLength⟩, monthDigits⟩ :=
      isShape
    have isHyphen := List.head?_dropWhile_not (· != '-') (trimBlank text.toList)
    rw [shape] at isHyphen
    obtain rfl : hyphen = '-' := by simpa using isHyphen
    obtain ⟨before, after, beforeBlank, afterBlank, isText⟩ :=
      exists_blanks_around text.toList
    rw [← @List.takeWhile_append_dropWhile _ (· != '-')
      (trimBlank text.toList), shape] at isText
    generalize (trimBlank text.toList).takeWhile (· != '-') = year at *
    have yearNonempty : year ≠ [] := by
      rintro rfl
      simp at yearLength
    apply unspelled
    rw [← @String.ofList_toList text, isText]
    exact
      ⟨_, _, .between beforeBlank afterBlank ⟨yearNonempty, yearDigits⟩
        yearLength ⟨nonempty, monthDigits⟩ monthLength⟩

theorem of_self (period : Period) :
    of period.year period.month = .ok period :=
  dif_pos
    ⟨period.yearIsCalendar, period.monthIsPositive, period.monthIsAtMostTwelve⟩

theorem of_of_not_month
    (notMonth : ¬ (1 ≤ month ∧ month ≤ 12)) :
    of year month = .error (.invalidMonth month) :=
  dif_neg fun holds => notMonth holds.2

/-- A spelling of a month is read as its period. -/
theorem exists_period_of_spells
    (spelled : Spells text year month)
    (isMonth : 1 ≤ month ∧ month ≤ 12) :
    ∃ period,
      parse text = .ok period ∧
        period.year = year ∧
        period.month = month := by
  have isCalendar : isCalendarYear year = true := by
    have bounds := spelled.year_bounds
    apply Bool.and_eq_true_iff.2
    constructor
    · exact decide_eq_true (by unfold firstYear; omega)
    · exact decide_eq_true (by unfold lastYear; omega)
  let period : Period := ⟨year, month, isCalendar, isMonth.1, isMonth.2⟩
  exact ⟨period, (parse_of_spells spelled).trans period.of_self, rfl, rfl⟩

/-- The three answers of the reader, by what the text spells. -/
theorem parse_cases (text : String) :
    (∃ period,
      parse text = .ok period ∧ Spells text period.year period.month) ∨
    (∃ year month,
      parse text = .error (.invalidMonth month) ∧
        Spells text year month ∧
        ¬ (1 ≤ month ∧ month ≤ 12)) ∨
    (parse text = .error (.malformed text) ∧
      ¬ ∃ year month, Spells text year month) := by
  by_cases spelled : ∃ year month, Spells text year month
  · obtain ⟨year, month, spelled⟩ := spelled
    by_cases isMonth : 1 ≤ month ∧ month ≤ 12
    · obtain ⟨period, isRead, rfl, rfl⟩ :=
        exists_period_of_spells spelled isMonth
      exact .inl ⟨period, isRead, spelled⟩
    · have isRead := parse_of_spells spelled
      rw [of_of_not_month isMonth] at isRead
      exact .inr (.inl ⟨year, month, isRead, spelled, isMonth⟩)
  · exact .inr (.inr ⟨parse_of_not_spells spelled, spelled⟩)

theorem spells_of_parse
    {period : Period}
    (isRead : parse text = .ok period) :
    Spells text period.year period.month := by
  rcases parse_cases text with
    ⟨other, otherRead, spelled⟩ | ⟨_, _, fails, -⟩ | ⟨fails, -⟩
  · obtain rfl := Except.ok.inj (otherRead.symm.trans isRead)
    exact spelled
  · rw [isRead] at fails
    contradiction
  · rw [isRead] at fails
    contradiction

/-! ## Printing -/

/--
What has more or fewer than four characters before its hyphen is malformed.
-/
theorem parse_of_year_length
    {year month : List Char}
    (trimmed : trimBlank text.toList = year ++ '-' :: month)
    (noHyphen : ∀ digit ∈ year, (digit != '-') = true)
    (notFour : year.length ≠ 4) :
    parse text = .error (.malformed text) := by
  have stops : Stops (· != '-') ('-' :: month) := stops_cons (by decide)
  rw [parse, trimmed, takeWhile_append_of_stops noHyphen stops,
    dropWhile_append_of_stops noHyphen stops]
  apply if_neg
  simp [notFour]

/-- Nothing is trimmed off a printed period. -/
theorem trimBlank_text (period : Period) :
    trimBlank period.text.toList =
      yearText period.year ++ '-' :: Decimal.paddedDigits 2 period.month := by
  rw [text, String.toList_ofList]
  apply trimBlank_of_stops
  · unfold yearText
    split
    · exact stops_cons (by decide)
    · exact stops_of_padded 4 _ _
  · rw [List.reverse_append, List.reverse_cons, List.append_assoc]
    exact stops_of_reverse_padded 2 _ _

theorem ne_hyphen_of_padded (width value : Nat) :
    ∀ digit ∈ Decimal.paddedDigits width value, (digit != '-') = true := by
  intro digit member
  rw [bne_iff_ne]
  rintro rfl
  exact absurd (isDigit_of_mem_paddedDigits member) (by decide)

/-- A period whose year does not have four digits is not read back. -/
theorem parse_text_of_not_isWritable
    {period : Period}
    (notWritable : ¬ period.IsWritable) :
    parse period.text = .error (.malformed period.text) := by
  have trimmed := period.trimBlank_text
  unfold yearText at trimmed
  by_cases negative : period.year < 0
  · -- The sign is taken for the hyphen, with no year before it.
    rw [if_pos negative] at trimmed
    exact @parse_of_year_length _ [] _ trimmed (by simp) (by simp)
  · rw [if_neg negative] at trimmed
    apply parse_of_year_length trimmed (ne_hyphen_of_padded 4 _)
    have large : ¬ period.year.natAbs < 10 ^ 4 := by
      unfold IsWritable at notWritable
      omega
    have long : ¬ (Nat.toDigits 10 period.year.natAbs).length ≤ 4 :=
      fun short =>
        large ((Nat.length_toDigits_le_iff (by decide) (by decide)).1 short)
    simp only [Decimal.paddedDigits, List.length_append, List.length_replicate]
    omega

/-! ## The order of printed periods -/

/--
The text of a writable period has its digits in the same places as any other.
-/
theorem toList_text_of_isWritable
    {period : Period}
    (writable : period.IsWritable) :
    period.text.toList =
      Decimal.paddedDigits 4 period.year.natAbs ++
        '-' :: Decimal.paddedDigits 2 period.month := by
  have nonnegative : ¬ period.year < 0 := Int.not_lt.2 writable.1
  rw [text, String.toList_ofList, yearText, if_neg nonnegative]

/-- The texts of writable periods are in the order of time. -/
theorem text_lt_text_iff
    {left right : Period}
    (leftWritable : left.IsWritable)
    (rightWritable : right.IsWritable) :
    left.text < right.text ↔ left.isEarlier right = true := by
  obtain ⟨leftNonnegative, leftSmall⟩ := leftWritable
  obtain ⟨rightNonnegative, rightSmall⟩ := rightWritable
  have leftFits : left.year.natAbs < 10 ^ 4 := by omega
  have rightFits : right.year.natAbs < 10 ^ 4 := by omega
  have years := padded_lt_padded_iff leftFits rightFits (by decide)
  have leftMonth : left.month < 10 ^ 2 := by
    have atMost := left.monthIsAtMostTwelve
    omega
  have rightMonth : right.month < 10 ^ 2 := by
    have atMost := right.monthIsAtMostTwelve
    omega
  have months := padded_lt_padded_iff leftMonth rightMonth (by decide)
  have sameYear := padded_eq_padded_iff 4 left.year.natAbs right.year.natAbs
  have sameLength :
      (Decimal.paddedDigits 4 left.year.natAbs).length =
        (Decimal.paddedDigits 4 right.year.natAbs).length := by
    rw [Decimal.length_paddedDigits leftFits (by decide),
      Decimal.length_paddedDigits rightFits (by decide)]
  rw [String.lt_iff,
    toList_text_of_isWritable ⟨leftNonnegative, leftSmall⟩,
    toList_text_of_isWritable ⟨rightNonnegative, rightSmall⟩,
    append_lt_append_iff sameLength, List.cons_lt_cons_iff, years, months,
    sameYear]
  simp only [Char.lt_irrefl, false_or, true_and, isEarlier, Bool.or_eq_true,
    Bool.and_eq_true, decide_eq_true_eq]
  omega

theorem eq_of_year_of_month
    {left right : Period}
    (sameYear : left.year = right.year)
    (sameMonth : left.month = right.month) :
    left = right := by
  cases left
  cases right
  simp only at sameYear sameMonth
  subst sameYear sameMonth
  rfl

/--
A text is read exactly when it spells a year and a month from one to twelve,
and as the period of these; a number that is no month is named by the error, and
a text that spells nothing is itself named.  A printed period is read back if
its year has four digits and no sign, and is malformed otherwise.  So a period
that was read is read from its own text again; the texts of two that were read
are the same exactly when year and month are, and in the order of time.
-/
theorem parse_text_exact :
    (∀ (text : String) (year : Int) (month : Nat),
      (∃ period,
        parse text = .ok period ∧
          period.year = year ∧
          period.month = month) ↔
        Spells text year month ∧ 1 ≤ month ∧ month ≤ 12) ∧
    (∀ (text : String) (month : Nat),
      parse text = .error (.invalidMonth month) ↔
        (∃ year, Spells text year month) ∧ ¬ (1 ≤ month ∧ month ≤ 12)) ∧
    (∀ text given : String,
      parse text = .error (.malformed given) ↔
        given = text ∧ ¬ ∃ year month, Spells text year month) ∧
    (∀ period : Period,
      parse period.text =
        if 0 ≤ period.year ∧ period.year ≤ 9999 then
          .ok period
        else
          .error (.malformed period.text)) ∧
    (∀ (text : String) (period : Period),
      parse text = .ok period → parse period.text = .ok period) ∧
    (∀ (text otherText : String) (period other : Period),
      parse text = .ok period →
      parse otherText = .ok other →
      (period.text = other.text ↔
        period.year = other.year ∧ period.month = other.month) ∧
      (period.text < other.text ↔
        period.year < other.year ∨
          period.year = other.year ∧ period.month < other.month)) := by
  refine ⟨?_, ?_, ?_, ?_, ?_, ?_⟩
  · intro text year month
    constructor
    · rintro ⟨period, isRead, rfl, rfl⟩
      exact
        ⟨spells_of_parse isRead, period.monthIsPositive,
          period.monthIsAtMostTwelve⟩
    · rintro ⟨spelled, isMonth⟩
      exact exists_period_of_spells spelled isMonth
  · intro text month
    constructor
    · intro fails
      rcases parse_cases text with
        ⟨_, isRead, -⟩ | ⟨year, other, otherFails, spelled, notMonth⟩ |
          ⟨otherFails, -⟩
      · simp [isRead] at fails
      · obtain rfl : other = month := by simpa [otherFails] using fails
        exact ⟨⟨year, spelled⟩, notMonth⟩
      · simp [otherFails] at fails
    · rintro ⟨⟨year, spelled⟩, notMonth⟩
      rw [parse_of_spells spelled, of_of_not_month notMonth]
  · intro text given
    constructor
    · intro fails
      rcases parse_cases text with
        ⟨_, isRead, -⟩ | ⟨_, _, otherFails, -⟩ | ⟨otherFails, unspelled⟩
      · simp [isRead] at fails
      · simp [otherFails] at fails
      · obtain rfl : text = given := by simpa [otherFails] using fails
        exact ⟨rfl, unspelled⟩
    · rintro ⟨rfl, unspelled⟩
      exact parse_of_not_spells unspelled
  · intro period
    split
    · rename_i writable
      exact parse_text writable
    · rename_i notWritable
      exact parse_text_of_not_isWritable notWritable
  · intro text period isRead
    exact parse_text (isWritable_of_parse isRead)
  · intro text otherText period other isRead otherRead
    have writable := isWritable_of_parse isRead
    have otherWritable := isWritable_of_parse otherRead
    constructor
    · constructor
      · intro sameText
        have readBack := parse_text writable
        rw [sameText, parse_text otherWritable] at readBack
        obtain rfl := Except.ok.inj readBack
        exact ⟨rfl, rfl⟩
      · rintro ⟨sameYear, sameMonth⟩
        rw [eq_of_year_of_month sameYear sameMonth]
    · rw [text_lt_text_iff writable otherWritable]
      simp [isEarlier]

/-- December of one year, and the next May in two spellings. -/
theorem parse_text_exact_mayAfterDecember :
    let may : Period := ⟨2024, 5, by decide, by decide, by decide⟩
    let december : Period := ⟨2023, 12, by decide, by decide, by decide⟩
    parse " 2024-5\n" = .ok may ∧
      parse "2024-05" = .ok may ∧
      parse "2023-12" = .ok december ∧
      parse may.text = .ok may ∧
      december.text < may.text ∧
      december.text ≠ may.text := by
  intro may december
  have mayRead : parse " 2024-5\n" = .ok may := by decide +kernel
  have decemberRead : parse "2023-12" = .ok december := by decide +kernel
  have readBack := parse_text_exact.2.2.2.2.1 _ may mayRead
  have compared :=
    parse_text_exact.2.2.2.2.2 _ _ december may decemberRead mayRead
  refine
    ⟨mayRead, by decide +kernel, decemberRead, readBack,
      compared.2.2 (.inl (by decide)), ?_⟩
  intro sameText
  exact absurd (compared.1.1 sameText).1 (by decide)

end Period

end IncentivePay
