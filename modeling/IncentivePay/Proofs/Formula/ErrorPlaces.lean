import IncentivePay.Proofs.Formula.GrammarFailures
import IncentivePay.Proofs.Formula.TokenizerExactness

/-!
# Where syntax errors point

The error for a text that is not a formula points at the first place where the
text goes wrong.  The scanner breaks off behind characters that it can read,
and the grammar behind tokens with which some formula starts: the token at the
error, or the end of the text, is what no formula has there.

The scanner and the grammar report faults of different kinds, so the kind of a
fault tells which of the two places the position stands for.
-/

namespace IncentivePay.Formula

/-- A fault that the characters of a text have before there are tokens. -/
def SyntaxFault.isLexical : SyntaxFault → Bool
  | .stringLiteral | .unexpectedCharacter _ | .invalidNumber _ => true
  | _ => false

/-! ## Characters -/

/-- An error stands behind characters that can be read, and before others. -/
def BreaksOff
    (position : Nat)
    (characters : List Char)
    (error : SyntaxError) :
    Prop :=
  error.fault.isLexical = true ∧
    ∃ front after tokens,
      characters = front ++ after ∧
        after ≠ [] ∧
        error.position = position + front.length ∧
        Reads position front tokens

namespace BreaksOff

variable
  {position : Nat}
  {characters : List Char}
  {error : SyntaxError}

theorem here
    {fault : SyntaxFault}
    (isLexical : fault.isLexical = true)
    (nonempty : characters ≠ []) :
    BreaksOff position characters ⟨fault, position⟩ :=
  ⟨isLexical, [], characters, [], rfl, nonempty, rfl, .finished⟩

theorem afterBlank
    {character : Char}
    (breaksOff : BreaksOff (position + 1) characters error)
    (blank : isBlank character = true) :
    BreaksOff position (character :: characters) error := by
  obtain ⟨isLexical, front, after, tokens, rfl, nonempty, stands, reads⟩ :=
    breaksOff
  refine
    ⟨isLexical, character :: front, after, tokens, rfl, nonempty, ?_,
      .blank blank reads⟩
  rw [stands, List.length_cons]
  omega

/--
What was the longest lexeme in the text is the longest one before the error.
-/
theorem afterLexeme
    {lexeme : List Char}
    {token : Token}
    (breaksOff : BreaksOff (position + lexeme.length) characters error)
    (isLexeme : IsLexeme lexeme token)
    (longest : IsLongest lexeme.length (lexeme ++ characters))
    (mayFollow : MayFollow token characters) :
    BreaksOff position (lexeme ++ characters) error := by
  obtain ⟨isLexical, front, after, tokens, rfl, nonempty, stands, reads⟩ :=
    breaksOff
  have isFront : front <+: front ++ after := List.prefix_append front after
  refine
    ⟨isLexical, lexeme ++ front, after, ⟨token, position⟩ :: tokens, by simp,
      nonempty, ?_, ?_⟩
  · rw [stands, List.length_append, Nat.add_assoc]
  · exact
      .lexeme isLexeme
        (longest.of_prefix ((List.prefix_append_right_inj lexeme).2 isFront))
        (mayFollow.of_prefix isFront) reads

end BreaksOff

/-- A lexeme alone is a reading. -/
theorem IsLexeme.reads
    {lexeme : List Char}
    {token : Token}
    (isLexeme : IsLexeme lexeme token)
    (position : Nat) :
    Reads position lexeme [⟨token, position⟩] := by
  have longest : IsLongest lexeme.length (lexeme ++ []) := by
    intro other _ atStart _
    rw [List.append_nil] at atStart
    exact atStart.length_le
  have nothingFollows : MayFollow token [] := by
    intro next first
    contradiction
  have alone : Reads position (lexeme ++ []) [⟨token, position⟩] :=
    .lexeme isLexeme longest nothingFollows .finished
  rwa [List.append_nil] at alone

/-- A third equals sign is refused behind the sign, which is a lexeme. -/
theorem breaksOff_of_markToken
    {position : Nat}
    {first : Char}
    {rest : List Char}
    {error : SyntaxError}
    (refused : markToken position first rest = .error error) :
    BreaksOff position (first :: rest) error := by
  unfold markToken at refused
  split at refused
  · rename_i token width found
    split at refused
    · rename_i thirdSign
      obtain rfl := Except.error.inj refused
      obtain ⟨isSign, equals⟩ : token.isEqualitySign = true ∧
          rest.tail.head? = some '=' := by
        simpa using thirdSign
      obtain ⟨mark, after, spelled, -, isMark⟩ := exists_mark found
      have pair := length_equalitySign _ isMark isSign
      match mark, pair with
      | [_, second], _ =>
        obtain ⟨rfl, rfl⟩ := List.cons.inj spelled
        refine
          ⟨rfl, [first, second], after, _, rfl, ?_, rfl,
            (IsLexeme.mark isMark).reads position⟩
        rintro rfl
        contradiction
    · contradiction
  · split at refused <;> obtain rfl := Except.error.inj refused
    · exact .here rfl (List.cons_ne_nil _ _)
    · exact .here rfl (List.cons_ne_nil _ _)

theorem breaksOff_of_firstToken
    {position : Nat}
    {first : Char}
    {rest : List Char}
    {error : SyntaxError}
    (refused : firstToken position first rest = .error error) :
    BreaksOff position (first :: rest) error := by
  unfold firstToken at refused
  split at refused
  · simp only [numberToken] at refused
    split at refused
    · contradiction
    · obtain rfl := Except.error.inj refused
      exact .here rfl (List.cons_ne_nil _ _)
  · split at refused
    · contradiction
    · exact breaksOff_of_markToken refused

/-- The scanner breaks off behind characters that it can read. -/
theorem breaksOff_of_scanFrom
    {position : Nat}
    {characters : List Char}
    {error : SyntaxError}
    (refused : scanFrom position characters = .error error) :
    BreaksOff position characters error := by
  fun_induction scanFrom position characters with
  | case1 => contradiction
  | case2 position character rest blank ih =>
      exact (ih refused).afterBlank blank
  | case3 position character rest _ firstError found =>
      obtain rfl := Except.error.inj refused
      exact breaksOff_of_firstToken found
  | case4 position character rest _ token width found laterError scanned ih =>
      obtain rfl := Except.error.inj refused
      obtain ⟨lexeme, after, spelled, rfl, isLexeme, mayFollow⟩ :=
        exists_lexeme found
      have longest := isLongest_of_firstToken found
      have later := ih scanned
      rw [drop_length_pred_of_append spelled isLexeme.length_pos] at later
      rw [spelled] at longest ⊢
      exact later.afterLexeme isLexeme longest mayFollow
  | case5 => contradiction

/-! ## Tokens -/

/-- The tokens of a text before one of them, that one, and those after it. -/
structure Splits
    (text : String)
    (before : List Located)
    (found : Located)
    (after : List Located) :
    Prop where
  scanned : tokenize text = .ok (before ++ found :: after)
  earlier : ∀ located ∈ before, located.position < found.position
  later : ∀ located ∈ after, found.position < located.position

section Splits

variable
  {text : String}
  {before after : List Located}
  {found : Located}

theorem splits_of_tokenize
    (scanned : tokenize text = .ok (before ++ found :: after)) :
    Splits text before found after := by
  obtain ⟨stretches, same, covers⟩ := (reads_of_scanFrom scanned).exists_covers
  have increasing := covers.increasing
  rw [same, List.pairwise_append, List.pairwise_cons] at increasing
  obtain ⟨-, ⟨later, -⟩, earlier⟩ := increasing
  exact
    ⟨scanned, fun located member => earlier located member found (by simp), later⟩

theorem Splits.position_lt (splits : Splits text before found after) :
    found.position < text.length := by
  obtain ⟨stretches, same, covers⟩ :=
    (reads_of_scanFrom splits.scanned).exists_covers
  have inside := covers.position_lt (same ▸ by simp : found ∈ _)
  rwa [Nat.zero_add, String.length_toList] at inside

end Splits

/-! ## Errors -/

/--
Up to the error the text is right, and at the error it is not.  The characters
before a lexical error have tokens.  The tokens before any other error are the
start of some formula, unless the text or its nesting is beyond the bounds.  A
wrong number of arguments is that of the call which the token at the error
closes.
-/
def SyntaxError.PointsIn
    (error : SyntaxError)
    (text : String) :
    Prop :=
  match error.fault with
  | .stringLiteral | .unexpectedCharacter _ | .invalidNumber _ =>
      ∃ tokens,
        tokenize (String.ofList (text.toList.take error.position)) = .ok tokens
  | .unexpectedToken found _ | .trailingInput found =>
      ∃ before after,
        Splits text before ⟨found, error.position⟩ after ∧
          IsViable (before.map Located.token) ∧
          ¬ IsViable (before.map Located.token ++ [found])
  | .unexpectedEnd _ =>
      error.position = text.length ∧
        ∃ tokens,
          tokenize text = .ok tokens ∧
            IsViable (tokens.map Located.token) ∧
            ¬ IsFormula (tokens.map Located.token)
  | .unknownIdentifier name =>
      ∃ before after,
        Splits text before ⟨.identifier name, error.position⟩ after ∧
          IsViable (before.map Located.token) ∧
          Variable.ofName? name = none ∧
          Function.ofName? name = none ∧
          comesNext .leftParen after = false
  | .unknownFunction name =>
      ∃ before after,
        Splits text before ⟨.identifier name, error.position⟩ after ∧
          IsViable (before.map Located.token) ∧
          Variable.ofName? name = none ∧
          Function.ofName? name = none ∧
          comesNext .leftParen after = true
  | .functionNotCalled function =>
      ∃ before after,
        Splits text before ⟨.identifier function.name, error.position⟩ after ∧
          IsViable (before.map Located.token) ∧
          comesNext .leftParen after = false
  | .wrongArgumentCount function count =>
      ∃ before after,
        Splits text before ⟨.rightParen, error.position⟩ after ∧
          IsViable (before.map Located.token) ∧
          EndsInMiscount function count (before.map Located.token)
  | .empty | .tooLong _ _ | .tooDeep _ => True

/-- An error of the scanner points behind characters that have tokens. -/
theorem points_of_breaksOff
    {text : String}
    {error : SyntaxError}
    (breaksOff : BreaksOff 0 text.toList error) :
    error.position ≤ text.length ∧ error.PointsIn text := by
  obtain ⟨isLexical, front, after, tokens, spelled, -, stands, reads⟩ :=
    breaksOff
  rw [Nat.zero_add] at stands
  have lengths := congrArg List.length spelled
  rw [String.length_toList, List.length_append] at lengths
  have isFront : text.toList.take error.position = front := by
    rw [spelled, stands, List.take_left]
  have scanned :
      tokenize (String.ofList (text.toList.take error.position)) =
        .ok tokens := by
    rw [isFront, tokenize, String.toList_ofList]
    exact scanFrom_of_reads reads
  refine ⟨by omega, ?_⟩
  obtain ⟨fault, position⟩ := error
  cases fault with
  | stringLiteral | unexpectedCharacter _ | invalidNumber _ =>
      exact ⟨tokens, scanned⟩
  | _ => contradiction

/-- An error of the grammar points behind tokens with which a formula starts. -/
theorem points_of_isCut
    {text : String}
    {tokens : List Located}
    {error : SyntaxError}
    (scanned : tokenize text = .ok tokens)
    (cut : IsCut text.length IsViable .start tokens error) :
    error.position ≤ text.length ∧ error.PointsIn text := by
  obtain ⟨before, rest, reached, rfl, viable, leads, halts⟩ := cut
  cases halts with
  | unexpectedEnd inside =>
      rw [List.append_nil] at scanned
      exact
        ⟨Nat.le_refl _, rfl, before, scanned, viable,
          not_isFormula_of_run leads inside⟩
  | unexpectedToken stops =>
      have splits := splits_of_tokenize scanned
      exact
        ⟨Nat.le_of_lt splits.position_lt, before, _, splits, viable,
          not_isViable_of_advance leads stops⟩
  | trailingInput stops =>
      have splits := splits_of_tokenize scanned
      exact
        ⟨Nat.le_of_lt splits.position_lt, before, _, splits, viable,
          not_isViable_of_advance leads stops⟩
  | unknownIdentifier notVariable notFunction uncalled =>
      have splits := splits_of_tokenize scanned
      exact
        ⟨Nat.le_of_lt splits.position_lt, before, _, splits, viable,
          notVariable, notFunction, uncalled⟩
  | unknownFunction notVariable notFunction called =>
      have splits := splits_of_tokenize scanned
      exact
        ⟨Nat.le_of_lt splits.position_lt, before, _, splits, viable,
          notVariable, notFunction, called⟩
  | functionNotCalled uncalled =>
      have splits := splits_of_tokenize scanned
      exact
        ⟨Nat.le_of_lt splits.position_lt, before, _, splits, viable, uncalled⟩
  | wrongArgumentCount miscounted =>
      have splits := splits_of_tokenize scanned
      exact
        ⟨Nat.le_of_lt splits.position_lt, before, _, splits, viable, miscounted⟩
  | tooDeep =>
      have splits := splits_of_tokenize scanned
      exact ⟨Nat.le_of_lt splits.position_lt, trivial⟩

/-- A parenthesis that is too deep stands inside of the text. -/
theorem lt_of_overNested?
    {depth position found : Nat}
    {characters : List Char}
    (tooDeep : overNested? depth position characters = some found) :
    found < position + characters.length := by
  fun_induction overNested? depth position characters with
  | case1 => contradiction
  | case2 depth position rest fits ih =>
      have inside := ih tooDeep
      rw [List.length_cons]
      omega
  | case3 depth position rest full =>
      obtain rfl := Option.some.inj tooDeep
      simp
  | case4 depth position rest _ ih =>
      have inside := ih tooDeep
      rw [List.length_cons]
      omega
  | case5 depth position character rest _ _ ih =>
      have inside := ih tooDeep
      rw [List.length_cons]
      omega

theorem points_of_checkBounds
    {text : String}
    {error : SyntaxError}
    (refused : checkBounds text = .error error) :
    error.position ≤ text.length ∧ error.PointsIn text := by
  unfold checkBounds at refused
  split at refused
  · rename_i long
    obtain rfl := Except.error.inj refused
    exact ⟨Nat.le_of_lt long, trivial⟩
  · split at refused
    · obtain rfl := Except.error.inj refused
      exact ⟨Nat.zero_le _, trivial⟩
    · split at refused
      · rename_i position tooDeep
        obtain rfl := Except.error.inj refused
        have inside := lt_of_overNested? tooDeep
        rw [Nat.zero_add, String.length_toList] at inside
        exact ⟨Nat.le_of_lt inside, trivial⟩
      · contradiction

/--
The error for a text that is no formula points at the first place that is
wrong.
-/
theorem parse_error_points
    {text : String}
    {error : SyntaxError}
    (refused : parse text = .error error) :
    error.position ≤ text.length ∧ error.PointsIn text := by
  rcases error_of_bind refused with beyond | ⟨-, -, unread⟩
  · exact points_of_checkBounds beyond
  rcases error_of_bind unread with unscanned | ⟨tokens, scanned, unparsed⟩
  · exact points_of_breaksOff (breaksOff_of_scanFrom unscanned)
  · exact points_of_isCut scanned (isCut_of_parseTokens unparsed)

/-- A formula may start with a parenthesis, which may not be closed at once. -/
theorem parse_error_points_emptyGroup :
    parse "()" = .error ⟨.unexpectedToken .rightParen .operand, 1⟩ ∧
      1 ≤ "()".length ∧
      ∃ before after,
        Splits "()" before ⟨.rightParen, 1⟩ after ∧
          IsViable (before.map Located.token) ∧
          ¬ IsViable (before.map Located.token ++ [.rightParen]) := by
  have nothing : scanFrom 2 [] = .ok [] := by simp [scanFrom]
  have closing : scanFrom 1 [')'] = .ok [⟨.rightParen, 1⟩] :=
    scanFrom_cons (by decide) rfl nothing
  have tokens :
      tokenize "()" = .ok [⟨.leftParen, 0⟩, ⟨.rightParen, 1⟩] :=
    scanFrom_cons (by decide) rfl closing
  have group :
      read 2 0 .primary [⟨.leftParen, 0⟩, ⟨.rightParen, 1⟩] =
        .error ⟨.unexpectedToken .rightParen .operand, 1⟩ := by
    rw [read_primary_group, enter_of_lt (by decide)]
    simp [read_rightParen, bind, Except.bind]
  have unparsed :
      parseTokens 2 [⟨.leftParen, 0⟩, ⟨.rightParen, 1⟩] =
        .error ⟨.unexpectedToken .rightParen .operand, 1⟩ := by
    rw [parseTokens_eq_read, read_of_primary_error rfl group]
    rfl
  have refused :
      parse "()" = .error ⟨.unexpectedToken .rightParen .operand, 1⟩ := by
    rw [parse, tokens]
    exact unparsed
  exact ⟨refused, parse_error_points refused⟩

end IncentivePay.Formula
