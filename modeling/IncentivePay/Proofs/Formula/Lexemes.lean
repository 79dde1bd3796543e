import IncentivePay.Formula.Reading

/-!
# What the tokens of a text stand for

Every token that the scanner delivers denotes the lexeme that was taken off
the characters, and what follows may follow it.  `Spells` puts the lexemes of a
text together: the characters are blanks and the lexemes of the tokens, in
their order.
-/

namespace IncentivePay.Formula

/-! ## Numerals -/

theorem isDigit_of_mem_takeWhile
    {characters : List Char}
    {character : Char}
    (member : character ∈ characters.takeWhile isDigit) :
    isDigit character = true :=
  List.all_eq_true.1 List.all_takeWhile character member

theorem areDigits_takeWhile
    {characters : List Char}
    (nonempty : characters.takeWhile isDigit ≠ []) :
    AreDigits (characters.takeWhile isDigit) :=
  ⟨nonempty, fun _ member => isDigit_of_mem_takeWhile member⟩

theorem exists_exponent (characters : List Char) :
    ∃ exponent,
      characters = exponent ++ (Numeral.splitExponent characters).2 ∧
        IsExponent exponent (Numeral.splitExponent characters).1 := by
  cases characters with
  | nil => exact ⟨[], rfl, .none⟩
  | cons letter afterLetter =>
    by_cases isLetter : letter = 'e' ∨ letter = 'E'
    · have divided (unsigned : List Char) :
          unsigned =
            unsigned.takeWhile isDigit ++ unsigned.dropWhile isDigit :=
        List.takeWhile_append_dropWhile.symm
      cases empty :
          ((Numeral.splitSign afterLetter).2.takeWhile isDigit).isEmpty with
      | true =>
          refine ⟨[], ?_, ?_⟩ <;>
            simp [Numeral.splitExponent, isLetter, empty, IsExponent.none]
      | false =>
          have digits :
              AreDigits ((Numeral.splitSign afterLetter).2.takeWhile isDigit) :=
            areDigits_takeWhile (by simpa using empty)
          simp only [Numeral.splitExponent, Bool.or_eq_true, decide_eq_true_eq,
            isLetter, if_true, empty, Bool.false_eq_true, if_false]
          revert empty digits
          unfold Numeral.splitSign
          split
          · intro empty digits
            exact ⟨_, congrArg (letter :: '-' :: ·) (divided _),
              .minus isLetter digits⟩
          · intro empty digits
            exact ⟨_, congrArg (letter :: '+' :: ·) (divided _),
              .plus isLetter digits⟩
          · intro empty digits
            exact ⟨_, congrArg (letter :: ·) (divided _),
              .unsigned isLetter digits⟩
    · refine ⟨[], ?_, ?_⟩ <;>
        simp [Numeral.splitExponent, isLetter, IsExponent.none]

theorem exists_mantissa
    {character : Char}
    {rest : List Char}
    (starts : startsNumber character rest = true) :
    ∃ mantissa,
      character :: rest =
          mantissa ++
            (Numeral.splitFraction ((character :: rest).dropWhile isDigit)).2 ∧
        IsMantissa mantissa ((character :: rest).takeWhile isDigit)
          (Numeral.splitFraction
            ((character :: rest).dropWhile isDigit)).1 := by
  have divided :
      character :: rest =
        (character :: rest).takeWhile isDigit ++
          (character :: rest).dropWhile isDigit :=
    List.takeWhile_append_dropWhile.symm
  -- Without a digit in front, the number starts with a point and a digit.
  cases leading : isDigit character with
  | false =>
      have noDigits : (character :: rest).takeWhile isDigit = [] := by
        simp [leading]
      have unchanged :
          (character :: rest).dropWhile isDigit = character :: rest := by
        simp [leading]
      simp only [startsNumber, leading, Bool.false_or, Bool.and_eq_true,
        decide_eq_true_eq] at starts
      obtain ⟨rfl, digitFollows⟩ := starts
      rw [noDigits, unchanged]
      refine ⟨'.' :: rest.takeWhile isDigit, ?_, ?_⟩
      · simp [Numeral.splitFraction]
      · apply IsMantissa.fraction
        apply areDigits_takeWhile
        cases rest with
        | nil => simp at digitFollows
        | cons digit others =>
            have isDigit : isDigit digit = true := by simpa using digitFollows
            simp [isDigit]
  | true =>
      have digits :
          AreDigits ((character :: rest).takeWhile isDigit) :=
        areDigits_takeWhile (by simp [leading])
      revert divided
      generalize (character :: rest).dropWhile isDigit = remaining
      intro divided
      unfold Numeral.splitFraction
      split
      · rename_i afterPoint
        refine ⟨(character :: rest).takeWhile isDigit ++
          '.' :: afterPoint.takeWhile isDigit, ?_,
          .pointed digits fun _ member => isDigit_of_mem_takeWhile member⟩
        rw [List.append_assoc, List.cons_append,
          List.takeWhile_append_dropWhile]
        exact divided
      · exact ⟨_, divided, .whole digits⟩

/-- What `split` takes off characters that start a number is a numeral. -/
theorem exists_numeral
    {character : Char}
    {rest : List Char}
    (starts : startsNumber character rest = true) :
    ∃ numeral,
      character :: rest =
          numeral ++ (Numeral.split (character :: rest)).2 ∧
        IsNumeral numeral (Numeral.split (character :: rest)).1 := by
  obtain ⟨mantissa, mantissaSpelled, isMantissa⟩ := exists_mantissa starts
  obtain ⟨exponent, exponentSpelled, isExponent⟩ :=
    exists_exponent
      (Numeral.splitFraction ((character :: rest).dropWhile isDigit)).2
  refine ⟨mantissa ++ exponent, ?_, mantissa, exponent, rfl, isMantissa,
    isExponent⟩
  rw [List.append_assoc]
  exact mantissaSpelled.trans (congrArg (mantissa ++ ·) exponentSpelled)

/-! ## Identifiers -/

theorem isIdentifierPart_of_start
    {character : Char}
    (starts : isIdentifierStart character = true) :
    isIdentifierPart character = true := by
  simp only [isIdentifierStart, isIdentifierPart, Char.isAlphanum,
    Bool.or_eq_true] at *
  grind

theorem identifierTail_prefix (characters : List Char) :
    identifierTail characters <+: characters := by
  fun_induction identifierTail characters with
  | case1 => exact List.prefix_rfl
  | case2 character rest part ih => exact List.cons_prefix_cons.2 ⟨rfl, ih⟩
  | case3 character rest noPart point ih =>
      exact List.cons_prefix_cons.2 ⟨rfl, ih⟩
  | case4 => exact List.nil_prefix

/--
A name goes on as an identifier, and so does one that starts after a point.
-/
theorem isIdentifier_append_tail
    (characters : List Char) :
    (∀ {name : List Char},
        IsName name → IsIdentifier (name ++ identifierTail characters)) ∧
      (characters.head?.any isIdentifierStart = true →
        IsIdentifier (identifierTail characters)) := by
  induction characters with
  | nil =>
      exact
        ⟨fun isName => by simpa [identifierTail] using .name isName, by simp⟩
  | cons character rest ih =>
    constructor
    · intro name isName
      by_cases part : isIdentifierPart character = true
      · obtain ⟨first, others, rfl, firstStarts, areParts⟩ := isName
        have longer : IsName (first :: (others ++ [character])) :=
          ⟨first, others ++ [character], rfl, firstStarts, by
            intro other member
            rcases List.mem_append.1 member with earlier | last
            · exact areParts other earlier
            · rw [List.mem_singleton.1 last]
              exact part⟩
        simpa [identifierTail, part] using ih.1 longer
      · by_cases dotted :
          (character = '.' && rest.head?.any isIdentifierStart) = true
        · simp only [Bool.and_eq_true, decide_eq_true_eq] at dotted
          obtain ⟨rfl, startFollows⟩ := dotted
          simpa [identifierTail, part, startFollows] using
            IsIdentifier.dotted isName (ih.2 startFollows)
        · simpa [identifierTail, part, dotted] using IsIdentifier.name isName
    · intro starts
      have firstStarts : isIdentifierStart character = true := by
        simpa using starts
      have single : IsName [character] :=
        ⟨character, [], rfl, firstStarts, by simp⟩
      simpa [identifierTail, isIdentifierPart_of_start firstStarts] using
        ih.1 single

/-! ## Marks -/

/-- A mark is written as the characters that were taken for it. -/
theorem exists_mark
    {character : Char}
    {rest : List Char}
    {token : Token}
    {width : Nat}
    (found : mark? character rest.head? = some (token, width)) :
    ∃ mark after,
      character :: rest = mark ++ after ∧
        mark.length = width ∧
        (mark, token) ∈ marks := by
  unfold mark? at found
  split at found
  all_goals simp only [Option.some.injEq, Prod.mk.injEq, reduceCtorEq] at found
  all_goals obtain ⟨rfl, rfl⟩ := found
  -- The first four marks take the equals sign that follows, the others do not.
  iterate 4
    · rename_i equalsFollows
      obtain ⟨others, rfl⟩ := List.head?_eq_some_iff.1 equalsFollows
      exact ⟨[_, '='], others, rfl, rfl, by decide⟩
  all_goals exact ⟨[_], rest, rfl, rfl, by decide⟩

/-! ## Tokens -/

/-- Nothing that would extend a number stands after its excess is empty. -/
theorem mayFollow_number
    {characters : List Char}
    (noExcess : (characters.takeWhile extendsNumber).isEmpty = true)
    (value : Binary64) :
    MayFollow (.number value) characters := by
  intro next first
  cases characters with
  | nil => simp at first
  | cons character rest =>
      simp only [List.head?_cons, Option.mem_def, Option.some.injEq] at first
      subst first
      cases extension : extendsNumber character with
      | false => rfl
      | true => simp [extension] at noExcess

theorem length_equalitySign :
    ∀ mark ∈ marks, mark.2.isEqualitySign = true → mark.1.length = 2 := by
  decide

/-- After the equality signs, the scanner refuses one more equals sign. -/
theorem mayFollow_mark
    {character : Char}
    {rest lexeme after : List Char}
    {token : Token}
    (isMark : (lexeme, token) ∈ marks)
    (spelled : character :: rest = lexeme ++ after)
    (accepted :
      token.isEqualitySign = true → rest.tail.head? ≠ some '=') :
    MayFollow token after := by
  have noEquals (isSign : token.isEqualitySign = true)
      (next : Char) (first : next ∈ after.head?) :
      next ≠ '=' := by
    obtain ⟨second, rfl⟩ : ∃ second, lexeme = [character, second] := by
      have width := length_equalitySign _ isMark isSign
      match lexeme, width with
      | [_, second], _ =>
          simp only [List.cons_append, List.cons.injEq] at spelled
          exact ⟨second, by rw [spelled.1]⟩
    simp only [List.cons_append, List.nil_append, List.cons.injEq, true_and]
      at spelled
    subst spelled
    rintro rfl
    exact accepted isSign first
  intro next first
  split
  · simp [marks, Operator.all] at isMark
  · exact noEquals rfl next first
  · exact noEquals rfl next first
  · trivial

/--
What the scanner takes for a token is its lexeme, and what is left may follow.
-/
theorem exists_lexeme
    {position : Nat}
    {character : Char}
    {rest : List Char}
    {token : Token}
    {width : Nat}
    (found : firstToken position character rest = .ok (token, width)) :
    ∃ lexeme after,
      character :: rest = lexeme ++ after ∧
        lexeme.length = width ∧
        IsLexeme lexeme token ∧
        MayFollow token after := by
  unfold firstToken at found
  split at found
  · rename_i starts
    obtain ⟨numeral, spelled, isNumeral⟩ := exists_numeral starts
    simp only [numberToken] at found
    split at found
    · rename_i accepted
      simp only [Except.ok.injEq, Prod.mk.injEq] at found
      obtain ⟨rfl, rfl⟩ := found
      simp only [Bool.and_eq_true] at accepted
      refine ⟨numeral, _, spelled, ?_, .number isNumeral accepted.2,
        mayFollow_number accepted.1 _⟩
      have lengths := congrArg List.length spelled
      rw [List.length_append] at lengths
      omega
    · simp at found
  · split at found
    · rename_i starts
      simp only [Except.ok.injEq, Prod.mk.injEq] at found
      obtain ⟨rfl, rfl⟩ := found
      obtain ⟨after, spelled⟩ := identifierTail_prefix rest
      have single : IsName [character] :=
        ⟨character, [], rfl, starts, by simp⟩
      refine ⟨character :: identifierTail rest, after, by simp [spelled], rfl,
        .identifier ((isIdentifier_append_tail rest).1 single), ?_⟩
      intro next first
      trivial
    · simp only [markToken] at found
      split at found
      · rename_i mark markWidth markFound
        split at found
        · simp at found
        · rename_i accepted
          simp only [Except.ok.injEq, Prod.mk.injEq] at found
          obtain ⟨rfl, rfl⟩ := found
          obtain ⟨lexeme, after, spelled, width, isMark⟩ := exists_mark markFound
          exact ⟨lexeme, after, spelled, width, .mark isMark,
            mayFollow_mark isMark spelled (by simpa using accepted)⟩
      · split at found <;> simp at found

/-! ## Words -/

/-- A character of a number or of an identifier. -/
def isWordCharacter (character : Char) : Bool :=
  isIdentifierPart character || character = '.' || character = '+' ||
    character = '-'

theorem isWordCharacter_of_isDigit
    {character : Char}
    (digit : isDigit character = true) :
    isWordCharacter character = true := by
  have part : isIdentifierPart character = true := by
    simp only [isIdentifierPart, Char.isAlphanum]
    rw [show character.isDigit = true from digit]
    simp
  simp [isWordCharacter, part]

theorem all_isWordCharacter_of_areDigits
    {characters : List Char}
    (areDigits : ∀ character ∈ characters, isDigit character = true) :
    characters.all isWordCharacter = true :=
  List.all_eq_true.2 fun character member =>
    isWordCharacter_of_isDigit (areDigits character member)

theorem IsMantissa.all_isWordCharacter
    {mantissa whole fraction : List Char}
    (isMantissa : IsMantissa mantissa whole fraction) :
    mantissa.all isWordCharacter = true := by
  have point : isWordCharacter '.' = true := by decide
  cases isMantissa with
  | whole digits => exact all_isWordCharacter_of_areDigits digits.2
  | pointed digits fractionDigits =>
      simp [all_isWordCharacter_of_areDigits digits.2,
        all_isWordCharacter_of_areDigits fractionDigits, point]
  | fraction digits =>
      simp [all_isWordCharacter_of_areDigits digits.2, point]

theorem IsExponent.all_isWordCharacter
    {characters : List Char}
    {exponent : Int}
    (isExponent : IsExponent characters exponent) :
    characters.all isWordCharacter = true := by
  have plus : isWordCharacter '+' = true := by decide
  have minus : isWordCharacter '-' = true := by decide
  have ofLetter {letter : Char} (isLetter : letter = 'e' ∨ letter = 'E') :
      isWordCharacter letter = true := by
    rcases isLetter with rfl | rfl <;> decide
  cases isExponent with
  | none => rfl
  | unsigned isLetter digits =>
      simp [ofLetter isLetter, all_isWordCharacter_of_areDigits digits.2]
  | plus isLetter digits =>
      simp [ofLetter isLetter, all_isWordCharacter_of_areDigits digits.2, plus]
  | minus isLetter digits =>
      simp [ofLetter isLetter, all_isWordCharacter_of_areDigits digits.2, minus]

theorem IsName.all_isWordCharacter
    {name : List Char}
    (isName : IsName name) :
    name.all isWordCharacter = true := by
  obtain ⟨first, others, rfl, starts, areParts⟩ := isName
  have othersAre : others.all isWordCharacter = true :=
    List.all_eq_true.2 fun character member => by
      simp [isWordCharacter, areParts character member]
  simp [isWordCharacter, isIdentifierPart_of_start starts, othersAre]

theorem IsIdentifier.all_isWordCharacter
    {characters : List Char}
    (isIdentifier : IsIdentifier characters) :
    characters.all isWordCharacter = true := by
  have point : isWordCharacter '.' = true := by decide
  induction isIdentifier with
  | name isName => exact isName.all_isWordCharacter
  | dotted isName others ih => simp [isName.all_isWordCharacter, ih, point]

/-- A lexeme is a mark or a word. -/
theorem IsLexeme.isMark_or_isWord
    {lexeme : List Char}
    {token : Token}
    (isLexeme : IsLexeme lexeme token) :
    (lexeme, token) ∈ marks ∨
      (lexeme.all isWordCharacter = true ∧
        token ≠ .leftParen ∧
        token ≠ .rightParen) := by
  cases isLexeme with
  | number isNumeral _ =>
      obtain ⟨mantissa, exponent, rfl, isMantissa, isExponent⟩ := isNumeral
      refine .inr ⟨?_, nofun, nofun⟩
      rw [List.all_append, isMantissa.all_isWordCharacter,
        isExponent.all_isWordCharacter]
      rfl
  | identifier isIdentifier =>
      exact .inr ⟨isIdentifier.all_isWordCharacter, nofun, nofun⟩
  | mark isMark => exact .inl isMark

/-! ## Texts -/

/-- The characters are blanks and the lexemes of the tokens, in their order. -/
inductive Spells : List Char → List Token → Prop
  | finished :
      Spells [] []
  | blank {character : Char} {rest : List Char} {tokens : List Token} :
      isBlank character = true →
      Spells rest tokens →
      Spells (character :: rest) tokens
  | lexeme
      {lexeme rest : List Char}
      {token : Token}
      {tokens : List Token} :
      IsLexeme lexeme token →
      Spells rest tokens →
      Spells (lexeme ++ rest) (token :: tokens)

theorem IsMantissa.ne_nil
    {mantissa whole fraction : List Char}
    (isMantissa : IsMantissa mantissa whole fraction) :
    mantissa ≠ [] := by
  cases isMantissa with
  | whole digits => exact digits.1
  | pointed => simp
  | fraction => simp

/-- A lexeme has at least one character. -/
theorem IsLexeme.length_pos
    {lexeme : List Char}
    {token : Token}
    (isLexeme : IsLexeme lexeme token) :
    0 < lexeme.length := by
  cases isLexeme with
  | number isNumeral _ =>
      obtain ⟨mantissa, exponent, rfl, isMantissa, -⟩ := isNumeral
      have positive := List.length_pos_iff.2 isMantissa.ne_nil
      rw [List.length_append]
      omega
  | identifier isIdentifier =>
      cases isIdentifier with
      | name isName =>
          obtain ⟨first, others, rfl, -⟩ := isName
          simp
      | dotted =>
          rw [List.length_append, List.length_cons]
          omega
  | mark isMark =>
      have nonempty : ∀ mark ∈ marks, 0 < mark.1.length := by decide
      exact nonempty _ isMark

/-- A blank character is skipped. -/
theorem scanFrom_blank
    {character : Char}
    (blank : isBlank character = true)
    (position : Nat)
    (rest : List Char) :
    scanFrom position (character :: rest) = scanFrom (position + 1) rest := by
  rw [scanFrom, if_pos blank]

/-- The scan goes on after the first token. -/
theorem scanFrom_cons
    {position width : Nat}
    {character : Char}
    {rest : List Char}
    {token : Token}
    {tokens : List Located}
    (notBlank : isBlank character = false)
    (found : firstToken position character rest = .ok (token, width))
    (scanned :
      scanFrom (position + width) (rest.drop (width - 1)) = .ok tokens) :
    scanFrom position (character :: rest) =
      .ok (⟨token, position⟩ :: tokens) := by
  rw [scanFrom, notBlank]
  simp [found, scanned]

/-- What the scan goes on with is what follows the lexeme. -/
theorem drop_length_pred_of_append
    {character : Char}
    {rest lexeme after : List Char}
    (spelled : character :: rest = lexeme ++ after)
    (nonempty : 0 < lexeme.length) :
    rest.drop (lexeme.length - 1) = after :=
  calc rest.drop (lexeme.length - 1)
      = (character :: rest).drop (lexeme.length - 1 + 1) := rfl
    _ = (lexeme ++ after).drop lexeme.length := by
      rw [spelled, Nat.sub_add_cancel nonempty]
    _ = after := List.drop_left

/--
The first token takes its lexeme off the characters, and leaves the others.
-/
theorem exists_lexeme_before
    {position width : Nat}
    {character : Char}
    {rest : List Char}
    {token : Token}
    (found : firstToken position character rest = .ok (token, width)) :
    ∃ lexeme,
      character :: rest = lexeme ++ rest.drop (width - 1) ∧
        IsLexeme lexeme token := by
  obtain ⟨lexeme, after, spelled, rfl, isLexeme, -⟩ := exists_lexeme found
  have remaining := drop_length_pred_of_append spelled isLexeme.length_pos
  exact ⟨lexeme, remaining.symm ▸ spelled, isLexeme⟩

theorem spells_of_scanFrom
    {position : Nat}
    {characters : List Char}
    {tokens : List Located}
    (scanned : scanFrom position characters = .ok tokens) :
    Spells characters (tokens.map Located.token) := by
  fun_induction scanFrom position characters generalizing tokens with
  | case1 position =>
      obtain rfl := Except.ok.inj scanned
      exact .finished
  | case2 position character rest blank ih => exact .blank blank (ih scanned)
  | case3 => simp at scanned
  | case4 => simp at scanned
  | case5 position character rest _ token width found others othersScanned ih =>
      obtain rfl := Except.ok.inj scanned
      obtain ⟨lexeme, spelled, isLexeme⟩ := exists_lexeme_before found
      rw [spelled]
      exact .lexeme isLexeme (ih othersScanned)

end IncentivePay.Formula
