import IncentivePay.Proofs.Formula.HostileTexts
import IncentivePay.Proofs.Formula.LexemeScanning

/-!
# The scanner takes the longest lexeme

The first token of some characters is that of the longest lexeme at their
start, and the scanner finds it whenever what is left may follow it.  For a
numeral this comes from the way it is split off: a longer numeral would go on
with a character that extends numbers.  An identifier at the start of the
characters is a part of the one that is taken.  A mark is longer than another
one by an equals sign only, which is looked for.
-/

namespace IncentivePay.Formula

/-! ## Kinds of lexemes -/

/-- An identifier starts as the scanner expects, and is its own tail. -/
theorem IsIdentifier.exists_first
    {characters : List Char}
    (isIdentifier : IsIdentifier characters) :
    ∃ first others,
      characters = first :: others ∧
        isIdentifierStart first = true ∧
        identifierTail others = others := by
  have taken := identifierTail_of_isIdentifier isIdentifier stops_nil
  simpa only [List.append_nil] using taken

/-- A numeral starts as the scanner expects, whatever follows it. -/
theorem IsNumeral.exists_first
    {characters : List Char}
    {numeral : Numeral}
    (isNumeral : IsNumeral characters numeral) :
    ∃ first others,
      characters = first :: others ∧
        ∀ rest, startsNumber first (others ++ rest) = true := by
  obtain ⟨mantissa, exponent, rfl, isMantissa, -⟩ := isNumeral
  obtain ⟨first, others, rfl, starts⟩ := startsNumber_of_isMantissa isMantissa
  refine ⟨first, others ++ exponent, rfl, ?_⟩
  intro rest
  rw [List.append_assoc]
  exact starts _

/-- The start of the characters decides of which kind a lexeme there is. -/
theorem IsLexeme.kind_of_prefix
    {lexeme rest : List Char}
    {first : Char}
    {token : Token}
    (isLexeme : IsLexeme lexeme token)
    (atStart : lexeme <+: first :: rest) :
    (startsNumber first rest = true ∧
        ∃ numeral value,
          IsNumeral lexeme numeral ∧ token = .number value) ∨
      (startsNumber first rest = false ∧
        isIdentifierStart first = true ∧
        IsIdentifier lexeme) ∨
      (startsNumber first rest = false ∧
        isIdentifierStart first = false ∧
        (lexeme, token) ∈ marks) := by
  obtain ⟨after, spelled⟩ := atStart
  cases isLexeme with
  | number isNumeral _ =>
      obtain ⟨_, others, rfl, starts⟩ := isNumeral.exists_first
      obtain ⟨rfl, rfl⟩ := List.cons.inj spelled
      exact .inl ⟨starts after, _, _, isNumeral, rfl⟩
  | identifier isIdentifier =>
      obtain ⟨_, others, rfl, starts, -⟩ := isIdentifier.exists_first
      obtain ⟨rfl, rfl⟩ := List.cons.inj spelled
      exact
        .inr (.inl
          ⟨startsNumber_of_isIdentifierStart starts _, starts, isIdentifier⟩)
  | mark isMark =>
      have noWord := startsNoWord_of_mark _ isMark
      cases lexeme with
      | nil => contradiction
      | cons _ others =>
          obtain ⟨rfl, rfl⟩ := List.cons.inj spelled
          simp only [List.head?_cons, Option.any_some, startsNoWord,
            Bool.and_eq_true, Bool.not_eq_true', decide_eq_true_eq] at noWord
          obtain ⟨⟨notDigit, notPoint⟩, notStart⟩ := noWord
          refine .inr (.inr ⟨?_, notStart, isMark⟩)
          simp [startsNumber, notDigit, notPoint]

/-! ## The longest one is taken -/

theorem Stops.of_prefix
    {kind : Char → Bool}
    {front characters : List Char}
    (stops : Stops kind characters)
    (isFront : front <+: characters) :
    Stops kind front := by
  obtain ⟨after, rfl⟩ := isFront
  cases front with
  | nil => exact stops_nil
  | cons first others => exact stops_cons (stops first rfl)

/-- No numeral goes on after one that nothing extends. -/
theorem IsNumeral.length_le_of_prefix
    {characters other after : List Char}
    {numeral otherNumeral : Numeral}
    (isNumeral : IsNumeral characters numeral)
    (stops : Stops extendsNumber after)
    (isOther : IsNumeral other otherNumeral)
    (atStart : other <+: characters ++ after) :
    other.length ≤ characters.length := by
  apply Nat.le_of_not_lt
  intro longer
  obtain ⟨more, rfl⟩ : characters <+: other :=
    List.prefix_of_prefix_length_le (List.prefix_append _ _) atStart
      (Nat.le_of_lt longer)
  have moreStops : Stops extendsNumber more :=
    stops.of_prefix ((List.prefix_append_right_inj characters).1 atStart)
  -- The longer numeral is split off whole, the shorter one leaves the rest.
  have whole := split_of_isNumeral isOther stops_nil
  rw [List.append_nil, split_of_isNumeral isNumeral moreStops] at whole
  obtain rfl : more = [] := congrArg Prod.snd whole
  simp at longer

/-- The tail of a part of the characters is a part of their tail. -/
theorem identifierTail_prefix_of_prefix
    {front characters : List Char}
    (isFront : front <+: characters) :
    identifierTail front <+: identifierTail characters := by
  induction front generalizing characters with
  | nil => exact List.nil_prefix
  | cons first others ih =>
      obtain ⟨after, rfl⟩ := isFront
      have longer := ih (List.prefix_append others after)
      have sameHead :
          others.head?.any isIdentifierStart = true →
            (others ++ after).head?.any isIdentifierStart = true := by
        cases others with
        | nil => simp
        | cons => exact id
      simp only [List.cons_append, identifierTail]
      grind

/-- A mark of two characters is found wherever they stand. -/
theorem mark?_of_pair
    {lexeme : List Char}
    {token : Token}
    (isMark : (lexeme, token) ∈ marks) :
    lexeme.length = 1 ∨
      ∃ first second,
        lexeme = [first, second] ∧
          mark? first (some second) = some (token, 2) := by
  have ofMarks :
      ∀ mark ∈ marks,
        mark.1.length = 1 ∨
          mark.1.length = 2 ∧
            (mark.1.head?.bind fun first => mark? first mark.1[1]?) =
              some (mark.2, 2) := by
    decide
  rcases ofMarks _ isMark with single | ⟨pair, found⟩
  · exact .inl single
  · match lexeme, pair, found with
    | [first, second], _, found => exact .inr ⟨first, second, rfl, found⟩

/-- A mark of one character is found unless an equals sign makes it longer. -/
theorem mark?_of_single
    {first : Char}
    {token : Token}
    (isMark : ([first], token) ∈ marks)
    (next : Option Char) :
    mark? first next = some (token, 1) ∨
      next = some '=' ∧ ∃ longer, ([first, '='], longer) ∈ marks := by
  unfold mark?
  split <;> simp_all [marks, Operator.all, Operator.symbol]

/--
No mark at the start of the characters is longer than the one that is found.
-/
theorem length_le_of_mark?
    {first : Char}
    {rest other : List Char}
    {token otherToken : Token}
    {width : Nat}
    (found : mark? first rest.head? = some (token, width))
    (isMark : (other, otherToken) ∈ marks)
    (atStart : other <+: first :: rest) :
    other.length ≤ width := by
  obtain ⟨after, spelled⟩ := atStart
  rcases mark?_of_pair isMark with single | ⟨one, two, rfl, pairFound⟩
  · obtain ⟨mark, others, -, rfl, isFound⟩ := exists_mark found
    have positive := (IsLexeme.mark isFound).length_pos
    omega
  · obtain ⟨rfl, rfl⟩ := List.cons.inj spelled
    have same : some (token, width) = some (otherToken, 2) :=
      found.symm.trans pairFound
    obtain ⟨-, rfl⟩ := Prod.mk.inj (Option.some.inj same)
    exact Nat.le_refl _

/-- The first token is that of the longest lexeme. -/
theorem isLongest_of_firstToken
    {position width : Nat}
    {first : Char}
    {rest : List Char}
    {token : Token}
    (found : firstToken position first rest = .ok (token, width)) :
    IsLongest width (first :: rest) := by
  intro other otherToken atStart isOther
  rcases isOther.kind_of_prefix atStart with
    ⟨starts, otherNumeral, _, isOtherNumeral, -⟩ |
      ⟨notNumber, starts, isIdentifier⟩ | ⟨notNumber, notStart, isMark⟩
  · obtain ⟨lexeme, after, spelled, rfl, isLexeme, mayFollow⟩ :=
      exists_lexeme found
    rcases isLexeme.kind_of_prefix ⟨after, spelled.symm⟩ with
      ⟨-, numeral, _, isNumeral, rfl⟩ | ⟨notNumber, -⟩ | ⟨notNumber, -⟩
    · rw [spelled] at atStart
      exact isNumeral.length_le_of_prefix mayFollow isOtherNumeral atStart
    · simp [starts] at notNumber
    · simp [starts] at notNumber
  · rw [firstToken, if_neg (by simp [notNumber]), if_pos starts] at found
    obtain ⟨-, rfl⟩ := Prod.mk.inj (Except.ok.inj found)
    obtain ⟨_, others, rfl, -, ownTail⟩ := isIdentifier.exists_first
    obtain ⟨rfl, within⟩ := List.cons_prefix_cons.1 atStart
    have taken := identifierTail_prefix_of_prefix within
    rw [ownTail] at taken
    exact Nat.succ_le_succ taken.length_le
  · rw [firstToken, if_neg (by simp [notNumber]), if_neg (by simp [notStart]),
      markToken] at found
    split at found
    · rename_i mark markWidth markFound
      split at found
      · contradiction
      · obtain ⟨-, rfl⟩ := Prod.mk.inj (Except.ok.inj found)
        exact length_le_of_mark? markFound isMark atStart
    · split at found <;> contradiction

/-! ## The longest one is found -/

theorem IsLongest.of_prefix
    {length : Nat}
    {front characters : List Char}
    (longest : IsLongest length characters)
    (isFront : front <+: characters) :
    IsLongest length front :=
  fun other token atStart => longest other token (atStart.trans isFront)

theorem MayFollow.of_prefix
    {token : Token}
    {front characters : List Char}
    (mayFollow : MayFollow token characters)
    (isFront : front <+: characters) :
    MayFollow token front := by
  obtain ⟨after, rfl⟩ := isFront
  cases front with
  | nil => intro next first; contradiction
  | cons first others => exact mayFollow

theorem mark?_of_isLongest
    {first : Char}
    {others rest : List Char}
    {token : Token}
    (isMark : (first :: others, token) ∈ marks)
    (longest :
      IsLongest (first :: others).length (first :: others ++ rest)) :
    mark? first (others ++ rest).head? =
      some (token, (first :: others).length) := by
  rcases mark?_of_pair isMark with single | ⟨_, second, same, found⟩
  · obtain rfl : others = [] := List.eq_nil_of_length_eq_zero
      (Nat.succ.inj single)
    rcases mark?_of_single isMark rest.head? with
      found | ⟨equals, longer, isLonger⟩
    · exact found
    · obtain ⟨after, rfl⟩ := List.head?_eq_some_iff.1 equals
      have tooLong :=
        longest [first, '='] longer ⟨after, rfl⟩ (.mark isLonger)
      simp at tooLong
  · obtain ⟨rfl, rfl⟩ := List.cons.inj same
    exact found

/-- After a sign that may follow, the equality signs are not refused. -/
theorem markToken_of_isLongest
    {first : Char}
    {others rest : List Char}
    {token : Token}
    (isMark : (first :: others, token) ∈ marks)
    (longest :
      IsLongest (first :: others).length (first :: others ++ rest))
    (mayFollow : MayFollow token rest)
    (position : Nat) :
    markToken position first (others ++ rest) =
      .ok (token, (first :: others).length) := by
  have accepted :
      (token.isEqualitySign && (others ++ rest).tail.head? = some '=') =
        false := by
    rw [Bool.and_eq_false_iff, decide_eq_false_iff_not]
    refine (Bool.eq_false_or_eq_true token.isEqualitySign).symm.imp_right ?_
    intro isSign equals
    have pair := length_equalitySign _ isMark isSign
    match others, pair with
    | [second], _ =>
        simp only [Token.isEqualitySign, Bool.or_eq_true, decide_eq_true_eq]
          at isSign
        rcases isSign with rfl | rfl <;> exact mayFollow '=' equals rfl
  rw [markToken, mark?_of_isLongest isMark longest]
  simp only [accepted, Bool.false_eq_true, if_false]

/--
The longest lexeme is the first token where the characters after it may
follow.
-/
theorem firstToken_of_isLongest
    {lexeme rest : List Char}
    {token : Token}
    (isLexeme : IsLexeme lexeme token)
    (longest : IsLongest lexeme.length (lexeme ++ rest))
    (mayFollow : MayFollow token rest)
    (position : Nat) :
    ∃ first others,
      lexeme = first :: others ∧
        isBlank first = false ∧
        firstToken position first (others ++ rest) =
          .ok (token, lexeme.length) := by
  cases isLexeme with
  | number isNumeral isFinite =>
      exact firstToken_of_isNumeral isNumeral isFinite mayFollow position
  | identifier isIdentifier =>
      obtain ⟨first, others, rfl, starts, ownTail⟩ := isIdentifier.exists_first
      have notBlank : isBlank first = false :=
        isBlank_of_extendsNumber
          (extendsNumber_of_isIdentifierPart (isIdentifierPart_of_start starts))
      have notNumber := startsNumber_of_isIdentifierStart starts (others ++ rest)
      -- The tail that the scanner takes is no shorter than the lexeme, nor longer.
      have taken :=
        identifierTail_prefix_of_prefix (List.prefix_append others rest)
      rw [ownTail] at taken
      have single : IsName [first] := ⟨first, [], rfl, starts, by simp⟩
      have whole : IsIdentifier (first :: identifierTail (others ++ rest)) :=
        (isIdentifier_append_tail (others ++ rest)).1 single
      have bounded :=
        longest _ _
          (List.cons_prefix_cons.2 ⟨rfl, identifierTail_prefix _⟩)
          (.identifier whole)
      have same : identifierTail (others ++ rest) = others :=
        (taken.eq_of_length_le (Nat.le_of_succ_le_succ bounded)).symm
      refine ⟨first, others, rfl, notBlank, ?_⟩
      simp [firstToken, notNumber, starts, same]
  | mark isMark =>
      have notBlank :
          ∀ mark ∈ marks, mark.1.head?.any isBlank = false := by
        decide
      cases lexeme with
      | nil => exact absurd (startsNoWord_of_mark _ isMark) (by simp)
      | cons first others =>
          have spelled : first :: (others ++ rest) = first :: others ++ rest :=
            rfl
          refine ⟨first, others, rfl, by simpa using notBlank _ isMark, ?_⟩
          rw [firstToken_of_mark isMark spelled]
          exact markToken_of_isLongest isMark longest mayFollow position

end IncentivePay.Formula
