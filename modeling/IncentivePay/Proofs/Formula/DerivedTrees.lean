import IncentivePay.Formula.Rendering
import IncentivePay.Proofs.Formula.GrammarSoundness
import IncentivePay.Proofs.Formula.Lexemes

/-!
# The trees that a text can have

A derived tree is no higher than its list of tokens is long, and its literals
are numbers among the tokens.  A text has no more tokens than characters, and
its numbers are finite and written without a sign, so both bounds pass from
the text to the tree that is parsed from it.
-/

namespace IncentivePay.Formula

/-- A literal as a text can have it: finite, and written without a sign. -/
def IsUnsignedFinite (value : Binary64) : Prop :=
  value.isFinite = true ∧ isSigned value = false

/-! ## From the tokens to the tree -/

mutual

/-- Every level of a derived tree takes a token of its own. -/
theorem Derives.levels_le
    {phrase : Phrase}
    {room : Nat}
    {tokens : List Token}
    {tree : Expr}
    (derivation : Derives phrase room tokens tree) :
    tree.levels ≤ tokens.length := by
  match derivation with
  | .plain tier => exact tier.levels_le
  | .choice condition whenTrue whenFalse =>
      have first := condition.levels_le
      have second := whenTrue.levels_le
      have third := whenFalse.levels_le
      simp only [Expr.levels, List.length_append, List.length_cons]
      omega
  | .operand operand => exact operand.levels_le
  | .binary left right =>
      have first := left.levels_le
      have second := right.levels_le
      simp only [Expr.levels, List.length_append, List.length_cons]
      omega
  | .unsigned primary => exact primary.levels_le
  | .negated primary => exact Nat.succ_le_succ primary.levels_le
  | .literal => exact Nat.le_refl _
  | .reference => exact Nat.le_refl _
  | .group body =>
      have inner := body.levels_le
      simp only [List.length_append, List.length_cons]
      omega
  | .call arguments =>
      have inner := arguments.levelsOfAll_le
      simp only [Expr.levels, List.length_append, List.length_cons]
      omega

/-- Every level of derived arguments takes a token of its own. -/
theorem DerivesArguments.levelsOfAll_le
    {room : Nat}
    {tokens : List Token}
    {arguments : List Expr}
    (derivation : DerivesArguments room tokens arguments) :
    Expr.levelsOfAll arguments ≤ tokens.length := by
  match derivation with
  | .none => exact Nat.le_refl _
  | .one tree =>
      have first := tree.levels_le
      simp only [Expr.levelsOfAll]
      omega
  | .more tree others =>
      have first := tree.levels_le
      have second := others.levelsOfAll_le
      simp only [Expr.levelsOfAll, List.length_append, List.length_cons] at *
      omega

end

/-- No phrase is without a token. -/
theorem Derives.ne_nil
    {phrase : Phrase}
    {room : Nat}
    {tokens : List Token}
    {tree : Expr}
    (derivation : Derives phrase room tokens tree) :
    tokens ≠ [] := by
  rintro rfl
  exact Nat.not_lt_zero _ (Nat.lt_of_lt_of_le tree.levels_pos derivation.levels_le)

mutual

/-- What holds of every number among the tokens holds of every literal. -/
theorem Derives.literalsSatisfy
    {property : Binary64 → Prop}
    {phrase : Phrase}
    {room : Nat}
    {tokens : List Token}
    {tree : Expr}
    (derivation : Derives phrase room tokens tree)
    (holds : ∀ value, .number value ∈ tokens → property value) :
    tree.LiteralsSatisfy property := by
  match derivation with
  | .plain tier => exact tier.literalsSatisfy holds
  | .choice condition whenTrue whenFalse =>
      refine ⟨condition.literalsSatisfy ?_, whenTrue.literalsSatisfy ?_,
        whenFalse.literalsSatisfy ?_⟩
      all_goals
        intro value member
        apply holds
        simp [member]
  | .operand operand => exact operand.literalsSatisfy holds
  | .binary left right =>
      constructor
      · exact left.literalsSatisfy fun value member =>
          holds value (List.mem_append_left _ member)
      · exact right.literalsSatisfy fun value member =>
          holds value (List.mem_append_right _ (List.mem_cons_of_mem _ member))
  | .unsigned primary => exact primary.literalsSatisfy holds
  | .negated primary =>
      exact primary.literalsSatisfy fun value member =>
        holds value (List.mem_cons_of_mem _ member)
  | .literal => exact holds _ (List.mem_singleton_self _)
  | .reference => trivial
  | .group body =>
      apply body.literalsSatisfy
      intro value member
      apply holds
      simp [member]
  | .call arguments =>
      apply arguments.allLiteralsSatisfy
      intro value member
      apply holds
      simp [member]

/-- What holds of every number among the tokens holds in every argument. -/
theorem DerivesArguments.allLiteralsSatisfy
    {property : Binary64 → Prop}
    {room : Nat}
    {tokens : List Token}
    {arguments : List Expr}
    (derivation : DerivesArguments room tokens arguments)
    (holds : ∀ value, .number value ∈ tokens → property value) :
    Expr.AllLiteralsSatisfy property arguments := by
  match derivation with
  | .none => trivial
  | .one tree => exact ⟨tree.literalsSatisfy holds, trivial⟩
  | .more tree others =>
      constructor
      · exact tree.literalsSatisfy fun value member =>
          holds value (List.mem_append_left _ member)
      · exact others.allLiteralsSatisfy fun value member =>
          holds value (List.mem_append_right _ (List.mem_cons_of_mem _ member))

end

/-! ## From the text to the tokens -/

theorem isSigned_toBinary64
    (negative : Bool)
    (decimal : Decimal) :
    isSigned (decimal.toBinary64 negative) = negative := by
  have ofRatio (numerator denominator : Nat) :
      isSigned (Binary64.ofRatio negative numerator denominator) = negative := by
    unfold Binary64.ofRatio
    split <;> rfl
  unfold Decimal.toBinary64
  split
  · rfl
  · split
    · rfl
    · split
      · rfl
      · split <;> apply ofRatio

theorem IsLexeme.isUnsignedFinite
    {lexeme : List Char}
    {value : Binary64}
    (isLexeme : IsLexeme lexeme (.number value)) :
    IsUnsignedFinite value := by
  cases isLexeme with
  | number _ isFinite => exact ⟨isFinite, isSigned_toBinary64 false _⟩
  | mark isMark => simp [marks, Operator.all] at isMark

theorem Spells.isUnsignedFinite
    {characters : List Char}
    {tokens : List Token}
    (spells : Spells characters tokens)
    {value : Binary64}
    (member : .number value ∈ tokens) :
    IsUnsignedFinite value := by
  induction spells with
  | finished => simp at member
  | blank _ _ ih => exact ih member
  | lexeme isLexeme _ ih =>
      rcases List.mem_cons.1 member with rfl | later
      · exact isLexeme.isUnsignedFinite
      · exact ih later

theorem Spells.length_le
    {characters : List Char}
    {tokens : List Token}
    (spells : Spells characters tokens) :
    tokens.length ≤ characters.length := by
  induction spells with
  | finished => exact Nat.le_refl _
  | blank _ _ ih => exact Nat.le_succ_of_le ih
  | lexeme isLexeme _ ih =>
      have positive := isLexeme.length_pos
      simp only [List.length_append, List.length_cons]
      omega

/-- Blank characters are scanned to no token at all. -/
theorem scanFrom_of_all_isBlank
    {characters : List Char}
    (blank : characters.all isBlank = true)
    (position : Nat) :
    scanFrom position characters = .ok [] := by
  induction characters generalizing position with
  | nil => simp [scanFrom]
  | cons character rest ih =>
      simp only [List.all_cons, Bool.and_eq_true] at blank
      rw [scanFrom_blank blank.1]
      exact ih blank.2 (position + 1)

/-! ## Parsed trees -/

/--
What the parser accepts has passed the bounds, the scanner and the grammar.
-/
theorem exists_derivation_of_parse
    {text : String}
    {tree : Expr}
    (parsed : parse text = .ok tree) :
    checkBounds text = .ok () ∧
      ∃ tokens,
        tokenize text = .ok tokens ∧
          Derives .choice maxNesting (tokens.map Located.token) tree ∧
          tree.IsWellFormed := by
  unfold parse at parsed
  obtain ⟨_, bounded, afterBounds⟩ := exists_of_bind parsed
  obtain ⟨tokens, scanned, read⟩ := exists_of_bind afterBounds
  exact ⟨bounded, tokens, scanned, derives_of_parseTokens read⟩

theorem length_le_of_checkBounds
    {text : String}
    (bounded : checkBounds text = .ok ()) :
    text.length ≤ maxLength := by
  unfold checkBounds at bounded
  split at bounded
  · simp at bounded
  · omega

/--
A tree that is parsed from a text has at most as many levels as characters.
-/
theorem levels_le_of_parse
    {text : String}
    {tree : Expr}
    (parsed : parse text = .ok tree) :
    tree.levels ≤ maxLength := by
  obtain ⟨bounded, tokens, scanned, derivation, -⟩ :=
    exists_derivation_of_parse parsed
  calc tree.levels
      ≤ (tokens.map Located.token).length := derivation.levels_le
    _ ≤ text.toList.length := (spells_of_scanFrom scanned).length_le
    _ = text.length := String.length_toList
    _ ≤ maxLength := length_le_of_checkBounds bounded

/-- The literals of a parsed tree are finite and have no sign. -/
theorem literalsSatisfy_of_parse
    {text : String}
    {tree : Expr}
    (parsed : parse text = .ok tree) :
    tree.LiteralsSatisfy IsUnsignedFinite := by
  obtain ⟨-, tokens, scanned, derivation, -⟩ :=
    exists_derivation_of_parse parsed
  exact derivation.literalsSatisfy fun _ member =>
    (spells_of_scanFrom scanned).isUnsignedFinite member

end IncentivePay.Formula
