import IncentivePay.Proofs.Formula.Lexemes

/-!
# Lexemes are scanned

The text of a numeral or of an identifier is taken whole when nothing follows
that would extend it, and a mark of one character whatever follows it.
`IsScannedAs characters tokens` puts such texts together: in front of
anything that ends a word, the characters are scanned to the tokens and the
scan goes on after them.
-/

namespace IncentivePay.Formula

/-- The characters do not start with one of a kind. -/
def Stops
    (kind : Char → Bool)
    (characters : List Char) :
    Prop :=
  ∀ next ∈ characters.head?, kind next = false

section Runs

variable
  {kind : Char → Bool}
  {word rest : List Char}

theorem stops_nil : Stops kind [] := by
  intro next first
  simp at first

theorem stops_cons
    {character : Char}
    (other : kind character = false) :
    Stops kind (character :: rest) := by
  intro next first
  simp only [List.head?_cons, Option.mem_def, Option.some.injEq] at first
  rwa [← first]

theorem Stops.mono
    {narrower : Char → Bool}
    (stops : Stops kind rest)
    (implies :
      ∀ character, narrower character = true → kind character = true) :
    Stops narrower rest := by
  intro next first
  rw [Bool.eq_false_iff]
  intro isNarrower
  have isOfKind := implies next isNarrower
  rw [stops next first] at isOfKind
  contradiction

theorem takeWhile_of_stops (stops : Stops kind rest) :
    rest.takeWhile kind = [] := by
  cases rest with
  | nil => rfl
  | cons next others => simp [stops next rfl]

theorem dropWhile_of_stops (stops : Stops kind rest) :
    rest.dropWhile kind = rest := by
  cases rest with
  | nil => rfl
  | cons next others => simp [stops next rfl]

theorem takeWhile_append_of_stops
    (areOfKind : ∀ character ∈ word, kind character = true)
    (stops : Stops kind rest) :
    (word ++ rest).takeWhile kind = word := by
  rw [List.takeWhile_append_of_pos areOfKind, takeWhile_of_stops stops,
    List.append_nil]

theorem dropWhile_append_of_stops
    (areOfKind : ∀ character ∈ word, kind character = true)
    (stops : Stops kind rest) :
    (word ++ rest).dropWhile kind = rest := by
  rw [List.dropWhile_append_of_pos areOfKind, dropWhile_of_stops stops]

end Runs

/-! ## Numerals -/

theorem extendsNumber_of_isDigit
    {character : Char}
    (digit : isDigit character = true) :
    extendsNumber character = true := by
  have isDigit : character.isDigit = true := by
    simpa [IncentivePay.isDigit, Char.isDigit, Char.le_def, ge_iff_le] using digit
  simp [extendsNumber, isIdentifierPart, Char.isAlphanum, isDigit]

theorem toNat_of_isAlpha
    {character : Char}
    (letter : character.isAlpha = true) :
    65 ≤ character.toNat ∧ character.toNat ≤ 122 := by
  have ofRanges :
      (decide ('A'.val ≤ character.val ∧ character.val ≤ 'Z'.val) ||
        (decide ('a'.val ≤ character.val) &&
          decide (character.val ≤ 'z'.val))) = true :=
    letter
  simp only [Bool.or_eq_true, Bool.and_eq_true, decide_eq_true_eq,
    UInt32.le_iff_toNat_le] at ofRanges
  rcases ofRanges with upper | lower
  · exact ⟨upper.1, Nat.le_trans upper.2 (by decide)⟩
  · exact ⟨Nat.le_trans (by decide) lower.1, lower.2⟩

/-- What extends a number is a visible character of ASCII. -/
theorem toNat_of_extendsNumber
    {character : Char}
    (extension : extendsNumber character = true) :
    33 ≤ character.toNat ∧ character.toNat ≤ 126 := by
  simp only [extendsNumber, isIdentifierPart, Char.isAlphanum, Char.isDigit,
    Bool.or_eq_true, Bool.and_eq_true, decide_eq_true_eq,
    UInt32.le_iff_toNat_le, ge_iff_le] at extension
  rcases extension with (((letter | digit) | rfl) | rfl) | rfl
  · have bounds := toNat_of_isAlpha letter
    exact ⟨Nat.le_trans (by decide) bounds.1, Nat.le_trans bounds.2 (by decide)⟩
  · exact ⟨Nat.le_trans (by decide) digit.1, Nat.le_trans digit.2 (by decide)⟩
  · decide
  · decide
  · decide

theorem isBlank_of_extendsNumber
    {character : Char}
    (extension : extendsNumber character = true) :
    isBlank character = false := by
  have bounds := toNat_of_extendsNumber extension
  simp only [isBlank, blankRanges, List.any_cons, List.any_nil, Bool.or_false,
    Bool.or_eq_false_iff, Bool.and_eq_false_iff, decide_eq_false_iff_not]
  omega

theorem splitSign_of_isDigit
    {characters : List Char}
    (digits : AreDigits characters)
    (rest : List Char) :
    Numeral.splitSign (characters ++ rest) = (false, characters ++ rest) := by
  cases characters with
  | nil => exact absurd rfl digits.1
  | cons digit others =>
      have isDigit : isDigit digit = true :=
        digits.2 digit List.mem_cons_self
      unfold Numeral.splitSign
      split
      · rename_i same
        simp only [List.cons_append, List.cons.injEq] at same
        rw [same.1] at isDigit
        simp [IncentivePay.isDigit] at isDigit
      · rename_i same
        simp only [List.cons_append, List.cons.injEq] at same
        rw [same.1] at isDigit
        simp [IncentivePay.isDigit] at isDigit
      · rfl

variable {rest : List Char}

theorem Stops.isDigit (stops : Stops extendsNumber rest) :
    Stops isDigit rest :=
  stops.mono fun _ => extendsNumber_of_isDigit

/-- An exponent is taken whole. -/
theorem splitExponent_of_isExponent
    {characters : List Char}
    {exponent : Int}
    (isExponent : IsExponent characters exponent)
    (stops : Stops extendsNumber rest) :
    Numeral.splitExponent (characters ++ rest) = (exponent, rest) := by
  have run
      {digits : List Char} (areDigits : AreDigits digits) :
      (digits ++ rest).takeWhile isDigit = digits ∧
        (digits ++ rest).dropWhile isDigit = rest :=
    ⟨takeWhile_append_of_stops areDigits.2 stops.isDigit,
      dropWhile_append_of_stops areDigits.2 stops.isDigit⟩
  cases isExponent with
  | none =>
      cases rest with
      | nil => rfl
      | cons next others =>
          have notLetter : (next = 'e' || next = 'E') = false := by
            rw [Bool.eq_false_iff]
            intro isLetter
            simp only [Bool.or_eq_true, decide_eq_true_eq] at isLetter
            have extension := stops next rfl
            rcases isLetter with rfl | rfl
            · exact absurd extension (by decide)
            · exact absurd extension (by decide)
          simp [Numeral.splitExponent, notLetter]
  | unsigned isLetter areDigits =>
      rw [List.cons_append, Numeral.splitExponent]
      simp [isLetter, splitSign_of_isDigit areDigits, run areDigits,
        areDigits.1]
  | plus isLetter areDigits =>
      rw [List.cons_append, List.cons_append, Numeral.splitExponent]
      simp [isLetter, Numeral.splitSign, run areDigits, areDigits.1]
  | minus isLetter areDigits =>
      rw [List.cons_append, List.cons_append, Numeral.splitExponent]
      simp [isLetter, Numeral.splitSign, run areDigits, areDigits.1]

/--
An exponent does not start with a digit or a point, nor does what follows.
-/
theorem stops_exponent
    {kind : Char → Bool}
    {characters : List Char}
    {exponent : Int}
    (isExponent : IsExponent characters exponent)
    (stops : Stops kind rest)
    (notLetter : kind 'e' = false ∧ kind 'E' = false) :
    Stops kind (characters ++ rest) := by
  have letterStops
      {letter : Char} (isLetter : letter = 'e' ∨ letter = 'E') :
      kind letter = false := by
    rcases isLetter with rfl | rfl
    · exact notLetter.1
    · exact notLetter.2
  cases isExponent with
  | none => exact stops
  | unsigned isLetter _ => exact stops_cons (letterStops isLetter)
  | plus isLetter _ => exact stops_cons (letterStops isLetter)
  | minus isLetter _ => exact stops_cons (letterStops isLetter)

theorem splitFraction_of_stops
    {characters : List Char}
    (stops : Stops (· = '.') characters) :
    Numeral.splitFraction characters = ([], characters) := by
  unfold Numeral.splitFraction
  split
  · have isPoint := stops '.' rfl
    simp at isPoint
  · rfl

/-- The digits of a mantissa are taken whole, before the point and after it. -/
theorem splitMantissa_of_isMantissa
    {mantissa whole fraction : List Char}
    (isMantissa : IsMantissa mantissa whole fraction)
    (digitsStop : Stops isDigit rest)
    (pointStops : Stops (· = '.') rest) :
    (mantissa ++ rest).takeWhile isDigit = whole ∧
      Numeral.splitFraction ((mantissa ++ rest).dropWhile isDigit) =
        (fraction, rest) := by
  have noDigit (others : List Char) : Stops isDigit ('.' :: others) :=
    stops_cons (by decide)
  cases isMantissa with
  | whole digits =>
      rw [takeWhile_append_of_stops digits.2 digitsStop,
        dropWhile_append_of_stops digits.2 digitsStop]
      exact ⟨rfl, splitFraction_of_stops pointStops⟩
  | pointed digits fractionDigits =>
      rw [List.append_assoc, List.cons_append,
        takeWhile_append_of_stops digits.2 (noDigit _),
        dropWhile_append_of_stops digits.2 (noDigit _)]
      simp [Numeral.splitFraction,
        takeWhile_append_of_stops fractionDigits digitsStop,
        dropWhile_append_of_stops fractionDigits digitsStop]
  | fraction digits =>
      rw [List.cons_append, takeWhile_of_stops (noDigit _),
        dropWhile_of_stops (noDigit _)]
      simp [Numeral.splitFraction,
        takeWhile_append_of_stops digits.2 digitsStop,
        dropWhile_append_of_stops digits.2 digitsStop]

/-- A numeral is taken whole where nothing extends it. -/
theorem split_of_isNumeral
    {characters : List Char}
    {numeral : Numeral}
    (isNumeral : IsNumeral characters numeral)
    (stops : Stops extendsNumber rest) :
    Numeral.split (characters ++ rest) = (numeral, rest) := by
  obtain ⟨mantissa, exponent, rfl, isMantissa, isExponent⟩ := isNumeral
  have pointStops : Stops (· = '.') rest :=
    stops.mono fun character isPoint => by
      simp only [decide_eq_true_eq] at isPoint
      simp [extendsNumber, isPoint]
  obtain ⟨wholeTaken, fractionTaken⟩ :=
    splitMantissa_of_isMantissa isMantissa
      (stops_exponent isExponent stops.isDigit (by decide))
      (stops_exponent isExponent pointStops (by decide))
  unfold Numeral.split
  rw [List.append_assoc, wholeTaken, fractionTaken]
  dsimp only
  rw [splitExponent_of_isExponent isExponent stops]

theorem AreDigits.exists_first
    {digits : List Char}
    (areDigits : AreDigits digits) :
    ∃ digit others, digits = digit :: others ∧ isDigit digit = true := by
  cases digits with
  | nil => exact absurd rfl areDigits.1
  | cons digit others =>
      exact ⟨digit, others, rfl, areDigits.2 digit List.mem_cons_self⟩

/-- A mantissa starts as the scanner expects of a number. -/
theorem startsNumber_of_isMantissa
    {mantissa whole fraction : List Char}
    (isMantissa : IsMantissa mantissa whole fraction) :
    ∃ first others,
      mantissa = first :: others ∧
        ∀ more, startsNumber first (others ++ more) = true := by
  cases isMantissa with
  | whole digits =>
      obtain ⟨digit, others, same, isDigit⟩ := digits.exists_first
      exact ⟨digit, others, same, by simp [startsNumber, isDigit]⟩
  | pointed digits _ =>
      obtain ⟨digit, others, same, isDigit⟩ := digits.exists_first
      exact ⟨digit, _, by rw [same]; rfl, by simp [startsNumber, isDigit]⟩
  | fraction digits =>
      obtain ⟨digit, others, same, isDigit⟩ := digits.exists_first
      exact ⟨'.', _, rfl, by simp [startsNumber, same, isDigit]⟩

/--
The number that a numeral denotes is the first token where nothing extends it.
-/
theorem firstToken_of_isNumeral
    {characters : List Char}
    {numeral : Numeral}
    (isNumeral : IsNumeral characters numeral)
    (isFinite : (numeral.toBinary64 false).isFinite = true)
    (stops : Stops extendsNumber rest)
    (position : Nat) :
    ∃ first others,
      characters = first :: others ∧
        isBlank first = false ∧
        firstToken position first (others ++ rest) =
          .ok (.number (numeral.toBinary64 false), characters.length) := by
  have taken := split_of_isNumeral isNumeral stops
  obtain ⟨mantissa, exponent, rfl, isMantissa, isExponent⟩ := isNumeral
  obtain ⟨first, others, rfl, starts⟩ := startsNumber_of_isMantissa isMantissa
  have notBlank : isBlank first = false := by
    have starts := starts []
    simp only [startsNumber, Bool.or_eq_true, Bool.and_eq_true,
      decide_eq_true_eq] at starts
    rcases starts with digit | ⟨rfl, -⟩
    · exact isBlank_of_extendsNumber (extendsNumber_of_isDigit digit)
    · decide
  refine ⟨first, others ++ exponent, rfl, notBlank, ?_⟩
  rw [firstToken, List.append_assoc, if_pos (starts _), numberToken]
  simp only [List.cons_append, List.append_assoc] at taken
  simp only [taken, takeWhile_of_stops stops, isFinite, List.isEmpty_nil,
    Bool.and_self, if_true, Except.ok.injEq, Prod.mk.injEq, true_and,
    List.length_cons, List.length_append]
  omega

/-! ## Identifiers -/

theorem extendsNumber_of_isIdentifierPart
    {character : Char}
    (part : isIdentifierPart character = true) :
    extendsNumber character = true := by
  simp [extendsNumber, part]

/-- Parts of a name are taken until they stop. -/
theorem identifierTail_append
    {parts : List Char}
    (areParts : ∀ character ∈ parts, isIdentifierPart character = true)
    (rest : List Char) :
    identifierTail (parts ++ rest) = parts ++ identifierTail rest := by
  induction parts with
  | nil => rfl
  | cons part others ih =>
      rw [List.cons_append, identifierTail,
        if_pos (areParts part List.mem_cons_self),
        ih fun character member =>
          areParts character (List.mem_cons_of_mem _ member),
        List.cons_append]

theorem identifierTail_of_stops (stops : Stops extendsNumber rest) :
    identifierTail rest = [] := by
  cases rest with
  | nil => rfl
  | cons next others =>
      have ends := stops next rfl
      simp only [extendsNumber, Bool.or_eq_false_iff,
        decide_eq_false_iff_not] at ends
      simp [identifierTail, ends]

/-- An identifier starts as the scanner expects, and its tail is taken whole. -/
theorem identifierTail_of_isIdentifier
    {characters : List Char}
    (isIdentifier : IsIdentifier characters)
    (stops : Stops extendsNumber rest) :
    ∃ first others,
      characters = first :: others ∧
        isIdentifierStart first = true ∧
        identifierTail (others ++ rest) = others := by
  induction isIdentifier with
  | name isName =>
      obtain ⟨first, parts, rfl, starts, areParts⟩ := isName
      refine ⟨first, parts, rfl, starts, ?_⟩
      rw [identifierTail_append areParts, identifierTail_of_stops stops,
        List.append_nil]
  | dotted isName _ ih =>
      obtain ⟨first, parts, rfl, starts, areParts⟩ := isName
      obtain ⟨next, others, rfl, nextStarts, taken⟩ := ih
      refine ⟨first, parts ++ '.' :: next :: others, rfl, starts, ?_⟩
      have nextIsPart := isIdentifierPart_of_start nextStarts
      rw [List.append_assoc, identifierTail_append areParts]
      simp [identifierTail, nextStarts, nextIsPart, taken,
        show isIdentifierPart '.' = false by decide]

/-- No identifier starts as a number does. -/
theorem startsNumber_of_isIdentifierStart
    {first : Char}
    (starts : isIdentifierStart first = true)
    (others : List Char) :
    startsNumber first others = false := by
  have notDigit : isDigit first = false := by
    rw [Bool.eq_false_iff]
    intro digit
    simp only [isDigit, Bool.and_eq_true, decide_eq_true_eq, Char.le_def,
      UInt32.le_iff_toNat_le] at digit
    simp only [isIdentifierStart, Bool.or_eq_true, decide_eq_true_eq] at starts
    rcases starts with (letter | rfl) | rfl
    · have bounds := toNat_of_isAlpha letter
      exact absurd (Nat.le_trans bounds.1 digit.2) (by decide)
    · exact absurd digit.2 (by decide)
    · exact absurd digit.1 (by decide)
  have notPoint : first ≠ '.' := by
    rintro rfl
    exact absurd starts (by decide)
  simp [startsNumber, notDigit, notPoint]

/-- An identifier is the first token where nothing extends it. -/
theorem firstToken_of_isIdentifier
    {characters : List Char}
    (isIdentifier : IsIdentifier characters)
    (stops : Stops extendsNumber rest)
    (position : Nat) :
    ∃ first others,
      characters = first :: others ∧
        isBlank first = false ∧
        firstToken position first (others ++ rest) =
          .ok (.identifier (String.ofList characters), characters.length) := by
  obtain ⟨first, others, rfl, starts, taken⟩ :=
    identifierTail_of_isIdentifier isIdentifier stops
  have notBlank : isBlank first = false :=
    isBlank_of_extendsNumber
      (extendsNumber_of_isIdentifierPart (isIdentifierPart_of_start starts))
  have notNumber := startsNumber_of_isIdentifierStart starts (others ++ rest)
  refine ⟨first, others, rfl, notBlank, ?_⟩
  simp [firstToken, notNumber, starts, taken]

/-! ## Texts -/

/--
The characters are scanned to the tokens, in front of anything that ends a
word.
-/
def IsScannedAs
    (characters : List Char)
    (tokens : List Token) :
    Prop :=
  ∀ ⦃position : Nat⦄ ⦃rest : List Char⦄ ⦃others : List Located⦄,
    Stops extendsNumber rest →
    scanFrom (position + characters.length) rest = .ok others →
    ∃ located,
      scanFrom position (characters ++ rest) = .ok (located ++ others) ∧
        located.map Located.token = tokens

/-- A lexeme at the start is one token, and the scan goes on after it. -/
theorem scanFrom_lexeme
    {position : Nat}
    {first : Char}
    {others rest : List Char}
    {token : Token}
    {tokens : List Located}
    (notBlank : isBlank first = false)
    (found :
      firstToken position first (others ++ rest) =
        .ok (token, others.length + 1))
    (scanned :
      scanFrom (position + (others.length + 1)) rest = .ok tokens) :
    scanFrom position (first :: (others ++ rest)) =
      .ok (⟨token, position⟩ :: tokens) := by
  have afterLexeme :
      (others ++ rest).drop (others.length + 1 - 1) = rest := by
    simp
  rw [← afterLexeme] at scanned
  exact scanFrom_cons notBlank found scanned

namespace IsScannedAs

variable
  {characters : List Char}
  {tokens : List Token}

theorem nil : IsScannedAs [] [] := by
  intro position rest others _ scanned
  exact ⟨[], scanned, rfl⟩

/--
A word that is the first token wherever a word ends is scanned as this token.
-/
theorem word
    {first : Char}
    {others : List Char}
    {token : Token}
    (notBlank : isBlank first = false)
    (found :
      ∀ position rest,
        Stops extendsNumber rest →
        firstToken position first (others ++ rest) =
          .ok (token, others.length + 1)) :
    IsScannedAs (first :: others) [token] := by
  intro position rest following stops scanned
  exact
    ⟨[⟨token, position⟩],
      scanFrom_lexeme notBlank (found position rest stops) scanned, rfl⟩

theorem numeral
    {numeral : Numeral}
    (isNumeral : IsNumeral characters numeral)
    (isFinite : (numeral.toBinary64 false).isFinite = true) :
    IsScannedAs characters [.number (numeral.toBinary64 false)] := by
  obtain ⟨first, others, rfl, notBlank, -⟩ :=
    firstToken_of_isNumeral isNumeral isFinite stops_nil 0
  apply word notBlank
  intro position rest stops
  obtain ⟨_, _, same, -, found⟩ :=
    firstToken_of_isNumeral isNumeral isFinite stops position
  obtain ⟨rfl, rfl⟩ := List.cons.inj same
  exact found

theorem identifier (isIdentifier : IsIdentifier characters) :
    IsScannedAs characters [.identifier (String.ofList characters)] := by
  obtain ⟨first, others, rfl, notBlank, -⟩ :=
    firstToken_of_isIdentifier isIdentifier stops_nil 0
  apply word notBlank
  intro position rest stops
  obtain ⟨_, _, same, -, found⟩ :=
    firstToken_of_isIdentifier isIdentifier stops position
  obtain ⟨rfl, rfl⟩ := List.cons.inj same
  exact found

/-- A text that ends a word is scanned after another text. -/
theorem append
    {following : List Char}
    {next : Char}
    {otherTokens : List Token}
    (first : IsScannedAs characters tokens)
    (second : IsScannedAs (next :: following) otherTokens)
    (ends : extendsNumber next = false) :
    IsScannedAs (characters ++ next :: following) (tokens ++ otherTokens) := by
  intro position rest others stops scanned
  rw [List.length_append, ← Nat.add_assoc] at scanned
  obtain ⟨located, secondScanned, rfl⟩ := second stops scanned
  obtain ⟨firstLocated, firstScanned, rfl⟩ :=
    first (stops_cons ends) secondScanned
  refine ⟨firstLocated ++ located, ?_, List.map_append⟩
  rw [List.append_assoc, List.append_assoc]
  exact firstScanned

theorem blank (scanned : IsScannedAs characters tokens) :
    IsScannedAs (' ' :: characters) tokens := by
  intro position rest others stops restScanned
  rw [List.length_cons, Nat.add_comm characters.length, ← Nat.add_assoc]
    at restScanned
  obtain ⟨located, allScanned, spelled⟩ := scanned stops restScanned
  refine ⟨located, ?_, spelled⟩
  rw [List.cons_append, scanFrom_blank (by decide)]
  exact allScanned

/-- A mark before a text is scanned as one token more. -/
theorem cons_mark
    {first : Char}
    {mark : List Char}
    {token : Token}
    (scanned : IsScannedAs characters tokens)
    (notBlank : isBlank first = false)
    (found :
      ∀ position rest,
        firstToken position first (mark ++ (characters ++ rest)) =
          .ok (token, mark.length + 1)) :
    IsScannedAs (first :: (mark ++ characters)) (token :: tokens) := by
  intro position rest others stops restScanned
  rw [List.length_cons, List.length_append, Nat.add_right_comm,
    ← Nat.add_assoc] at restScanned
  obtain ⟨located, allScanned, rfl⟩ := scanned stops restScanned
  refine ⟨⟨token, position⟩ :: located, ?_, rfl⟩
  rw [List.cons_append, List.append_assoc]
  exact scanFrom_lexeme notBlank (found position rest) allScanned

theorem leftParen (scanned : IsScannedAs characters tokens) :
    IsScannedAs ('(' :: characters) (.leftParen :: tokens) :=
  @cons_mark _ _ '(' [] _ scanned (by decide) fun _ _ => rfl

theorem rightParen (scanned : IsScannedAs characters tokens) :
    IsScannedAs (')' :: characters) (.rightParen :: tokens) :=
  @cons_mark _ _ ')' [] _ scanned (by decide) fun _ _ => rfl

theorem comma (scanned : IsScannedAs characters tokens) :
    IsScannedAs (',' :: characters) (.comma :: tokens) :=
  @cons_mark _ _ ',' [] _ scanned (by decide) fun _ _ => rfl

theorem question (scanned : IsScannedAs characters tokens) :
    IsScannedAs ('?' :: characters) (.question :: tokens) :=
  @cons_mark _ _ '?' [] _ scanned (by decide) fun _ _ => rfl

theorem colon (scanned : IsScannedAs characters tokens) :
    IsScannedAs (':' :: characters) (.colon :: tokens) :=
  @cons_mark _ _ ':' [] _ scanned (by decide) fun _ _ => rfl

theorem minus (scanned : IsScannedAs characters tokens) :
    IsScannedAs ('-' :: characters) (.operator .subtract :: tokens) :=
  @cons_mark _ _ '-' [] _ scanned (by decide) fun _ _ => rfl

/-- An operator is scanned in front of a blank, which no mark takes. -/
theorem operator
    (operator : Operator)
    (scanned : IsScannedAs characters tokens) :
    IsScannedAs (operator.symbol.toList ++ ' ' :: characters)
      (.operator operator :: tokens) := by
  have blankScanned := scanned.blank
  cases operator with
  | add => exact @cons_mark _ _ '+' [] _ blankScanned (by decide) fun _ _ => rfl
  | subtract =>
      exact @cons_mark _ _ '-' [] _ blankScanned (by decide) fun _ _ => rfl
  | multiply =>
      exact @cons_mark _ _ '*' [] _ blankScanned (by decide) fun _ _ => rfl
  | divide =>
      exact @cons_mark _ _ '/' [] _ blankScanned (by decide) fun _ _ => rfl
  | remainder =>
      exact @cons_mark _ _ '%' [] _ blankScanned (by decide) fun _ _ => rfl
  | greater =>
      exact @cons_mark _ _ '>' [] _ blankScanned (by decide) fun _ _ => rfl
  | less =>
      exact @cons_mark _ _ '<' [] _ blankScanned (by decide) fun _ _ => rfl
  | greaterOrEqual =>
      exact @cons_mark _ _ '>' ['='] _ blankScanned (by decide) fun _ _ => rfl
  | lessOrEqual =>
      exact @cons_mark _ _ '<' ['='] _ blankScanned (by decide) fun _ _ => rfl
  | equal =>
      exact @cons_mark _ _ '=' ['='] _ blankScanned (by decide) fun _ _ => rfl
  | notEqual =>
      exact @cons_mark _ _ '!' ['='] _ blankScanned (by decide) fun _ _ => rfl

/-- Texts with an operator between them are scanned one after the other. -/
theorem operation
    {following : List Char}
    {otherTokens : List Token}
    (first : IsScannedAs characters tokens)
    (second : IsScannedAs following otherTokens)
    (operator : Operator) :
    IsScannedAs
      (characters ++ ' ' :: (operator.symbol.toList ++ ' ' :: following))
      (tokens ++ .operator operator :: otherTokens) :=
  first.append (second.operator operator).blank (by decide)

/-- A text that is scanned to tokens has these tokens. -/
theorem exists_tokenize
    {text : String}
    (scanned : IsScannedAs text.toList tokens) :
    ∃ located,
      tokenize text = .ok located ∧ located.map Located.token = tokens := by
  have nothing (position : Nat) : scanFrom position [] = .ok [] := by
    simp [scanFrom]
  obtain ⟨located, all, spelled⟩ := scanned stops_nil (nothing (0 + _))
  simp only [List.append_nil] at all
  exact ⟨located, all, spelled⟩

end IsScannedAs

end IncentivePay.Formula
