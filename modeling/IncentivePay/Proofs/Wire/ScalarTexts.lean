import IncentivePay.Proofs.Wire.ReadingSteps

/-!
# JSON texts and numbers are read back

A text between quotes is taken whole with its escapes, and a number is taken
whole where nothing follows that would extend it: an integer that sixty-four
bits hold as itself, and a real number as itself when its text alone reads
back.  `Binary64.ReadsBack` says so of a number; since the reader scales the
leading digits, not every number does.
-/

namespace IncentivePay

open Formula

/-- The JSON text of a number is read as the number. -/
def Binary64.ReadsBack (number : Binary64) : Prop :=
  Json.read? number.jsonText = some (.real number)

namespace Json

/-! ## Texts -/

section Texts

variable
  {afterBackslash rest after : List Char}
  {text : Option (List Char)}

theorem takes_quote (rest : List Char) :
    Takes (takeText? ('\x22' :: rest)) (some []) rest := by
  rw [takeText?]
  exact ⟨_, rfl, rfl, rfl⟩

theorem takes_plain
    {character : Char}
    (noQuote : character ≠ '\x22')
    (noBackslash : character ≠ '\\')
    (noControl : ¬ character.toNat < 0x20)
    (takes : Takes (takeText? rest) text after) :
    Takes (takeText? (character :: rest)) (prepend (some character) text)
      after := by
  rw [takeText?, if_neg noQuote, if_neg noBackslash, if_neg noControl]
  exact takes.widen _ _

theorem takes_backslash
    {character : Option Char}
    (escaped : Takes (takeEscape? afterBackslash) character rest)
    (takes : Takes (takeText? rest) text after) :
    Takes (takeText? ('\\' :: afterBackslash)) (prepend character text)
      after := by
  obtain ⟨taken, delivered, rfl, rfl⟩ := escaped
  rw [takeText?, if_neg (by decide), if_pos rfl, delivered]
  exact takes.widen _ _

/-- An escape of one letter. -/
theorem takes_letter
    {letter character : Char}
    (isLetter : ofEscape? letter = some character)
    (rest : List Char) :
    Takes (takeEscape? (letter :: rest)) (some character) rest := by
  have notUnit : letter ≠ 'u' := by
    rintro rfl
    simp [ofEscape?] at isLetter
  rw [takeEscape?, if_neg notUnit, isLetter]
  exact ⟨_, rfl, rfl, rfl⟩

theorem hexDigit?_digitChar :
    ∀ digit < 16, hexDigit? (Nat.digitChar digit) = some digit := by
  decide

/-- The numeric escape of a control character. -/
theorem takes_controlDigits
    {code : Nat}
    (isControl : code < 0x20)
    (rest : List Char) :
    Takes (takeEscape? ('u' :: '0' :: '0' :: controlDigits code ++ rest))
      (some (Char.ofNat code)) rest := by
  have noughts : hexDigit? '0' = some 0 := rfl
  have sum : code / 16 * 16 + code % 16 = code := by omega
  have noHigh : isHighSurrogate code = false := by
    simp only [isHighSurrogate, Bool.and_eq_false_iff, decide_eq_false_iff_not]
    omega
  have noLow : isLowSurrogate code = false := by
    simp only [isLowSurrogate, Bool.and_eq_false_iff, decide_eq_false_iff_not]
    omega
  refine ⟨_, by
    simp [takeEscape?, takeUnit?, takeHex?, controlDigits, noughts,
      hexDigit?_digitChar (code / 16) (by omega),
      hexDigit?_digitChar (code % 16) (by omega), sum, noHigh, noLow]
    rfl, rfl, rfl⟩

/-- A character stands in a text as a letter, as its code or as itself. -/
theorem escape_cases (character : Char) :
    (∃ letter,
      escape character = ['\\', letter] ∧
        ofEscape? letter = some character) ∨
      (escape character =
          '\\' :: 'u' :: '0' :: '0' :: controlDigits character.toNat ∧
        character.toNat < 0x20) ∨
      (escape character = [character] ∧
        character ≠ '\x22' ∧ character ≠ '\\' ∧ ¬ character.toNat < 0x20) := by
  unfold escape
  iterate 7
    split
    · exact .inl ⟨_, rfl, by rename_i same; rw [same]; rfl⟩
  split
  · exact .inr (.inl ⟨rfl, ‹_›⟩)
  · exact .inr (.inr ⟨rfl, ‹_›, ‹_›, ‹_›⟩)

/-- A character is read from its escape. -/
theorem takes_escape
    (character : Char)
    (takes : Takes (takeText? rest) text after) :
    Takes (takeText? (escape character ++ rest))
      (prepend (some character) text) after := by
  rcases escape_cases character with
    ⟨letter, same, isLetter⟩ | ⟨same, isControl⟩ |
      ⟨same, noQuote, noBackslash, noControl⟩
  · rw [same]
    exact takes_backslash (takes_letter isLetter _) takes
  · have escaped := takes_controlDigits isControl rest
    rw [Char.ofNat_toNat] at escaped
    rw [same]
    exact takes_backslash escaped takes
  · rw [same]
    exact takes_plain noQuote noBackslash noControl takes

/-- A text is taken up to its closing quote. -/
theorem takes_escapedText (text rest : List Char) :
    Takes (takeText? (text.flatMap escape ++ '\x22' :: rest)) (some text)
      rest := by
  induction text with
  | nil => exact takes_quote rest
  | cons character text ih =>
      rw [List.flatMap_cons, List.append_assoc]
      exact takes_escape character ih

end Texts

/-! ## Numbers -/

section Numbers

variable
  {negative : Bool}
  {characters rest : List Char}

theorem dropWhile_isDigit_append
    (stops : Stops extendsNumber rest)
    (characters : List Char) :
    (characters ++ rest).dropWhile isDigit =
      characters.dropWhile isDigit ++ rest := by
  induction characters with
  | nil => exact dropWhile_of_stops stops.isDigit
  | cons character characters ih =>
      cases digit : isDigit character with
      | true => simpa [digit] using ih
      | false => simp [digit]

theorem skipSpace_of_takes
    {number : Json}
    (takes : Takes (takeNumber? negative characters) number rest) :
    skipSpace characters = characters := by
  obtain ⟨digit, others, rfl, isDigit, -⟩ :=
    exists_digit_of_isWholePart (takes_number_iff.1 takes).1
  exact skipSpace_cons (isSpace_of_isDigit isDigit) others

theorem stops_letter (stops : Stops extendsNumber rest) :
    rest.head? ≠ some 'e' ∧ rest.head? ≠ some 'E' ∧ rest.head? ≠ some '.' := by
  refine ⟨?_, ?_, ?_⟩ <;> intro first <;> exact absurd (stops _ first) (by decide)

/-- A number that is taken alone is taken where nothing extends it. -/
theorem Takes.number_append
    {number : Json}
    (takes : Takes (takeNumber? negative characters) number [])
    (stops : Stops extendsNumber rest) :
    Takes (takeNumber? negative (characters ++ rest)) number rest := by
  obtain ⟨whole, pointed, -, nothingLeft, isValue⟩ := takes_number_iff.1 takes
  obtain ⟨noSmall, noCapital, noPoint⟩ := stops_letter stops
  obtain ⟨digit, others, rfl, isDigit, starts⟩ :=
    exists_digit_of_isWholePart whole
  obtain ⟨text, spelled, isNumeral⟩ := exists_numeral starts
  rw [nothingLeft, List.append_nil] at spelled
  have split := split_of_isNumeral isNumeral stops
  rw [← spelled] at split
  rw [takes_number_iff, split, dropWhile_isDigit_append stops]
  refine ⟨whole, ?_, ⟨noSmall, noCapital⟩, rfl, ?_⟩
  · intro point
    apply pointed
    cases shape : (digit :: others).dropWhile IncentivePay.isDigit with
    | nil =>
        rw [shape, List.nil_append] at point
        exact absurd point noPoint
    | cons next more => simpa [shape] using point
  · rw [isValue]
    congr 1
    simp only [List.length_append, List.length_nil, eq_iff_iff]
    omega

/-! ### Integers -/

/-- Sixty-four bits hold an integer, with or without a sign. -/
def IsShortInteger (value : Int) : Prop :=
  -(UInt64.size / 2 : Nat) ≤ value ∧ value < UInt64.size

/-- The digits of a positive number do not start with nought. -/
theorem head?_toDigits_ne
    {value : Nat}
    (positive : 0 < value) :
    (Nat.toDigits 10 value).head? ≠ some '0' := by
  induction value using Nat.strongRecOn with
  | ind value ih =>
      rcases Nat.lt_or_ge value 10 with small | large
      · rw [Nat.toDigits_of_lt_base small, List.head?_cons]
        have others :
            ∀ digit < 10, 0 < digit → some (Nat.digitChar digit) ≠ some '0' := by
          decide
        exact others value small positive
      · have fewer := ih (value / 10) (by omega) (by omega)
        rw [Nat.toDigits_of_base_le (by decide) large, List.head?_append]
        cases digits : Nat.toDigits 10 (value / 10) with
        | nil => exact absurd digits Nat.toDigits_ne_nil
        | cons _ _ => simpa [digits] using fewer

theorem isWholePart_toDigits (value : Nat) :
    isWholePart (Nat.toDigits 10 value) = true := by
  rcases Nat.lt_or_ge value 10 with small | large
  · rw [Nat.toDigits_of_lt_base small]
    rfl
  · have first : (Nat.toDigits 10 value).head? ≠ some '0' :=
      head?_toDigits_ne (by omega)
    cases digits : Nat.toDigits 10 value with
    | nil => exact absurd digits Nat.toDigits_ne_nil
    | cons digit others =>
        rw [digits] at first
        cases others with
        | nil => rfl
        | cons _ _ => simpa [isWholePart] using first

/-- The digits of a natural number are taken as a whole number. -/
theorem takes_toDigits
    (negative : Bool)
    (value : Nat)
    (stops : Stops extendsNumber rest) :
    Takes (takeNumber? negative (Nat.toDigits 10 value ++ rest))
      (ofWhole negative ⟨Nat.toDigits 10 value, [], 0⟩) rest := by
  apply Takes.number_append _ stops
  have areDigits := areDigits_toDigits value
  have isNumeral :
      IsNumeral (Nat.toDigits 10 value) ⟨Nat.toDigits 10 value, [], 0⟩ :=
    ⟨_, [], (List.append_nil _).symm, .whole areDigits, .none⟩
  have split := split_of_isNumeral isNumeral stops_nil
  have nothingLeft := dropWhile_append_of_stops areDigits.2 stops_nil
  rw [List.append_nil] at split nothingLeft
  rw [takes_number_iff, split, nothingLeft]
  simp [isWholePart_toDigits]

theorem ofWhole_false
    {value : Nat}
    (isShort : value < UInt64.size) :
    ofWhole false ⟨Nat.toDigits 10 value, [], 0⟩ = .integer value := by
  simp [ofWhole, Nat.ofDigitChars_ten_toDigits, isShort]

theorem ofWhole_true
    {value : Nat}
    (positive : 0 < value)
    (isShort : value ≤ UInt64.size / 2) :
    ofWhole true ⟨Nat.toDigits 10 value, [], 0⟩ = .integer (-value) := by
  simp [ofWhole, Nat.ofDigitChars_ten_toDigits, isShort, positive]

theorem toList_toString_ofNat (value : Nat) :
    (toString (Int.ofNat value)).toList = Nat.toDigits 10 value :=
  Nat.toList_repr

theorem toList_toString_negSucc (value : Nat) :
    (toString (Int.negSucc value)).toList =
      '-' :: Nat.toDigits 10 (value + 1) := by
  change ("-" ++ (value + 1).repr).toList = _
  rw [String.toList_append, Nat.toList_repr]
  rfl

/-- An integer that sixty-four bits hold is taken as itself. -/
theorem takes_integer
    {value : Int}
    (isShort : IsShortInteger value)
    (stops : Stops extendsNumber rest) :
    Takes (takeValue? ((toString value).toList ++ rest)) (.integer value)
      rest := by
  rw [takes_value_iff]
  cases value with
  | ofNat value =>
      have fits : value < UInt64.size := Int.ofNat_lt.1 isShort.2
      have takes := takes_toDigits false value stops
      rw [ofWhole_false fits] at takes
      rw [toList_toString_ofNat, skipSpace_of_takes takes]
      exact .positive takes
  | negSucc value =>
      have fits : value + 1 ≤ UInt64.size / 2 := by
        have := isShort.1
        omega
      have takes := takes_toDigits true (value + 1) stops
      rw [ofWhole_true (Nat.succ_pos value) fits] at takes
      rw [toList_toString_negSucc, List.cons_append,
        skipSpace_cons (by decide)]
      exact .negative takes

/-! ### Real numbers -/

/-- What is left of a number stood at its end. -/
theorem mem_of_mem_rest
    {number : Json}
    (takes : Takes (takeNumber? negative characters) number rest)
    {character : Char}
    (member : character ∈ rest) :
    character ∈ characters := by
  obtain ⟨whole, -, -, rfl, -⟩ := takes_number_iff.1 takes
  obtain ⟨digit, others, rfl, -, starts⟩ := exists_digit_of_isWholePart whole
  obtain ⟨text, spelled, -⟩ := exists_numeral starts
  rw [spelled]
  exact List.mem_append_right text member

end Numbers

/-- There is no space among the characters. -/
def HaveNoSpace (characters : List Char) : Prop :=
  ∀ character ∈ characters, isSpace character = false

namespace HaveNoSpace

variable {characters others : List Char}

theorem skipSpace (noSpace : HaveNoSpace characters) :
    skipSpace characters = characters := by
  cases characters with
  | nil => rfl
  | cons character others =>
      exact skipSpace_cons (noSpace character List.mem_cons_self) others

theorem of_digits
    (areDigits : ∀ character ∈ characters, isDigit character = true) :
    HaveNoSpace characters :=
  fun character member => isSpace_of_isDigit (areDigits character member)

theorem nil : HaveNoSpace [] :=
  List.forall_mem_nil _

theorem append
    (first : HaveNoSpace characters)
    (second : HaveNoSpace others) :
    HaveNoSpace (characters ++ others) :=
  List.forall_mem_append.2 ⟨first, second⟩

theorem cons
    {character : Char}
    (notSpace : isSpace character = false)
    (noSpace : HaveNoSpace characters) :
    HaveNoSpace (character :: characters) :=
  List.forall_mem_cons.2 ⟨notSpace, noSpace⟩

theorem toDigits (value : Nat) :
    HaveNoSpace (Nat.toDigits 10 value) :=
  of_digits (areDigits_toDigits value).2

theorem positional (decimal : Decimal) :
    HaveNoSpace decimal.positional := by
  unfold Decimal.positional
  split
  · exact toDigits _
  · exact
      (toDigits _).append
        (cons (by decide)
          (of_digits fun _ member => isDigit_of_mem_paddedDigits member))

theorem pointed (decimal : Decimal) :
    HaveNoSpace decimal.pointed := by
  unfold Decimal.pointed
  dsimp only
  split
  · exact (positional decimal).append (cons (by decide) (cons (by decide) nil))
  · exact positional decimal

theorem exponentText (exponent : Int) :
    HaveNoSpace (exponentText exponent) := by
  unfold IncentivePay.exponentText
  dsimp only
  split
  · exact cons (by decide) (toDigits _)
  · exact toDigits _

theorem scientific (decimal : Decimal) :
    HaveNoSpace decimal.scientific := by
  have noSpace := toDigits decimal.coefficient
  unfold Decimal.scientific
  dsimp only
  split
  · rename_i digits
    rwa [digits] at noSpace
  · rename_i digit digits
    rw [digits] at noSpace
    exact
      cons (noSpace digit List.mem_cons_self)
        (cons (by decide) (exponentText _))
  · rename_i first others _ digits
    rw [digits] at noSpace
    obtain ⟨notSpace, noSpace⟩ := List.forall_mem_cons.1 noSpace
    exact
      cons notSpace
        (cons (by decide)
          (append noSpace (cons (by decide) (exponentText _))))

theorem decimal (decimal : Decimal) :
    HaveNoSpace decimal.jsonText := by
  unfold Decimal.jsonText
  dsimp only
  split
  · exact pointed decimal
  · exact scientific decimal

/-- There is no space in the text of a number. -/
theorem jsonText (number : Binary64) :
    HaveNoSpace number.jsonText.toList := by
  cases number with
  | nan => simp [Binary64.jsonText, HaveNoSpace, isSpace]
  | infinite negative => simp [Binary64.jsonText, HaveNoSpace, isSpace]
  | finite negative units representable =>
      have digits :
          HaveNoSpace
            (if units = 0 then ['0', '.', '0']
            else (Decimal.shortest units).jsonText) := by
        split
        · simp [HaveNoSpace, isSpace]
        · exact decimal _
      rw [Binary64.jsonText, String.toList_ofList]
      split
      · exact cons rfl digits
      · exact digits

end HaveNoSpace

section Numbers

variable {rest : List Char}

/-- A number that reads back is taken as itself where nothing extends it. -/
theorem takes_real
    {number : Binary64}
    (readsBack : number.ReadsBack)
    (stops : Stops extendsNumber rest) :
    Takes (takeValue? (number.jsonText.toList ++ rest)) (.real number)
      rest := by
  have noSpace := HaveNoSpace.jsonText number
  obtain ⟨left, takes, areSpace⟩ := read?_iff.1 readsBack
  have unspaced := noSpace.skipSpace
  have nothingLeft
      (among : ∀ character ∈ left, character ∈ number.jsonText.toList) :
      left = [] := by
    apply List.eq_nil_iff_forall_not_mem.2
    intro character member
    have isSpace := areSpace character member
    rw [noSpace character (among character member)] at isSpace
    contradiction
  rw [takes_value_iff, unspaced] at takes
  rw [takes_value_iff]
  generalize number.jsonText.toList = characters at *
  generalize isReal : Json.real number = json at takes
  cases takes with
  | word isWord => rcases isWord with rfl | ⟨value, rfl⟩ <;> cases isReal
  | text | array | object => cases isReal
  | negative takes =>
      obtain rfl : left = [] :=
        nothingLeft fun character member =>
          List.mem_cons_of_mem _ (mem_of_mem_rest takes member)
      rw [List.cons_append, skipSpace_cons (by decide)]
      exact .negative (takes.number_append stops)
  | positive takes =>
      obtain rfl : left = [] :=
        nothingLeft fun character member => mem_of_mem_rest takes member
      have appended := takes.number_append stops
      rw [skipSpace_of_takes appended]
      exact .positive appended

/-- Digits with a point among them are read as a real number. -/
theorem read?_of_pointed
    {text : String}
    {digits : List Char}
    (isText : text.toList = digits)
    (whole : isWholePart (Numeral.split digits).1.whole = true)
    (fraction : (Numeral.split digits).1.fraction ≠ [])
    (isAll : (Numeral.split digits).2 = [])
    (isPointed : digits.dropWhile isDigit ≠ []) :
    read? text = some (.real ((Numeral.split digits).1.scaled false)) := by
  obtain ⟨digit, others, starts, isDigit, -⟩ :=
    exists_digit_of_isWholePart whole
  have noSpace : skipSpace digits = digits := by
    rw [starts, skipSpace_cons (isSpace_of_isDigit isDigit)]
  have isReal :
      ([] : List Char).length ≠ (digits.dropWhile IncentivePay.isDigit).length :=
    fun same => isPointed (List.length_eq_zero_iff.1 same.symm)
  refine read?_iff.2 ⟨[], ?_, by simp⟩
  rw [isText, takes_value_iff, noSpace]
  refine .positive (takes_number_iff.2 ⟨whole, fun _ => fraction, ?_, isAll, ?_⟩)
  · simp
  · rw [if_neg isReal]

end Numbers

end Json

/-- One half reads back. -/
theorem Binary64.readsBack_half : half.ReadsBack := by
  have isText : half.jsonText.toList = ['0', '.', '5'] := by decide +kernel
  rw [ReadsBack,
    Json.read?_of_pointed isText (by decide) (by decide) (by decide) (by decide)]
  refine congrArg (fun number => some (Json.real number)) ?_
  decide +kernel

/-- A number with sixteen digits that is read as its neighbour. -/
def Binary64.misread : Binary64 :=
  ofRatio false (unitsPerOne * 9863848388955757) 10000000000000000

/-- Not every finite number reads back, whence it is asked of each by itself. -/
theorem Binary64.exists_not_readsBack :
    ∃ number : Binary64, number.isFinite = true ∧ ¬ number.ReadsBack := by
  have isText :
      misread.jsonText.toList =
        ['0', '.', '9', '8', '6', '3', '8', '4', '8', '3', '8', '8', '9', '5',
          '5', '7', '5', '7'] := by
    decide +kernel
  refine ⟨misread, by decide +kernel, fun readsBack => ?_⟩
  rw [ReadsBack,
    Json.read?_of_pointed isText (by decide) (by decide) (by decide) (by decide)]
    at readsBack
  have same := Json.real.inj (Option.some.inj readsBack)
  revert same
  decide +kernel

end IncentivePay
