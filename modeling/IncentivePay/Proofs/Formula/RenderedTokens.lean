import IncentivePay.Formula.Rendering
import IncentivePay.Proofs.Formula.DerivedTrees
import IncentivePay.Proofs.Formula.GrammarCompleteness
import IncentivePay.Proofs.Formula.NumberTexts

/-!
# The tokens of a rendering

`Expr.tokens` lists the tokens that a rendering is made of.  The text of a
well-formed tree with finite literals is scanned as these tokens, and they are
read as the tree with its signs out, which needs as many levels as the tree
nests.  A rendering is always a primary with at most one sign before it, so it
can stand wherever an operand can.
-/

namespace IncentivePay.Formula

namespace Expr

mutual

/-- The tokens of the rendering of a tree. -/
def tokens : Expr → List Token
  | .literal value =>
      if isSigned value then
        [.operator .subtract, .number value.negate]
      else
        [.number value]
  | .reference name => [.identifier name]
  | .binary operator left right =>
      .leftParen ::
        (left.tokens ++ .operator operator :: right.tokens ++ [.rightParen])
  | .negate operand =>
      .operator .subtract :: .leftParen :: (operand.tokens ++ [.rightParen])
  | .choice condition whenTrue whenFalse =>
      .leftParen ::
        (condition.tokens ++
          .question :: (whenTrue.tokens ++ .colon :: whenFalse.tokens) ++
          [.rightParen])
  | .call name arguments =>
      .identifier name ::
        .leftParen :: (tokensOfArguments arguments ++ [.rightParen])

/-- The tokens of the renderings of arguments, with commas between them. -/
def tokensOfArguments : List Expr → List Token
  | [] => []
  | [argument] => argument.tokens
  | argument :: next :: arguments =>
      argument.tokens ++ .comma :: tokensOfArguments (next :: arguments)

end

theorem tokens_ne_nil (tree : Expr) : tree.tokens ≠ [] := by
  cases tree with
  | literal value =>
      rw [tokens]
      split <;> simp
  | _ => simp [tokens]

end Expr

/-- A finite number, with a sign or without. -/
def IsFiniteLiteral (value : Binary64) : Prop :=
  value.isFinite = true

/-! ## Names -/

theorem isIdentifier_of_parts
    {first : Char}
    {others : List Char}
    (starts : isIdentifierStart first = true)
    (areParts : others.all isIdentifierPart = true) :
    IsIdentifier (first :: others) :=
  .name ⟨first, others, rfl, starts, List.all_eq_true.1 areParts⟩

theorem isIdentifier_variable (quantity : Variable) :
    IsIdentifier quantity.name.toList := by
  cases quantity <;> exact isIdentifier_of_parts (by decide) (by decide)

theorem isIdentifier_function (function : Function) :
    IsIdentifier function.name.toList := by
  have library : IsName ['M', 'a', 't', 'h'] :=
    ⟨'M', ['a', 't', 'h'], rfl, by decide, List.all_eq_true.1 (by decide)⟩
  cases function with
  | max => exact .dotted library (isIdentifier_of_parts (by decide) (by decide))
  | min => exact .dotted library (isIdentifier_of_parts (by decide) (by decide))
  | round =>
      exact .dotted library (isIdentifier_of_parts (by decide) (by decide))

theorem isScannedAs_name
    {name : String}
    (isIdentifier : IsIdentifier name.toList) :
    IsScannedAs name.toList [.identifier name] := by
  have scanned := IsScannedAs.identifier isIdentifier
  rwa [String.ofList_toList] at scanned

/-! ## The rendering is scanned as its tokens -/

mutual

theorem isScannedAs_render
    {tree : Expr}
    (wellFormed : tree.IsWellFormed)
    (finite : tree.LiteralsSatisfy IsFiniteLiteral) :
    IsScannedAs tree.render.toList tree.tokens := by
  match tree with
  | .literal value =>
      rw [Expr.render, Expr.tokens]
      split
      · rename_i hasSign
        exact isScannedAs_text_of_isSigned finite hasSign
      · rename_i noSign
        exact isScannedAs_text ⟨finite, by simpa using noSign⟩
  | .reference name =>
      obtain ⟨quantity, known⟩ := wellFormed
      rw [← Variable.name_of_ofName? known]
      exact isScannedAs_name (isIdentifier_variable quantity)
  | .binary operator left right =>
      have leftScanned := isScannedAs_render wellFormed.1 finite.1
      have rightScanned := isScannedAs_render wellFormed.2 finite.2
      have closed := rightScanned.append IsScannedAs.nil.rightParen (by decide)
      have whole := (leftScanned.operation closed operator).leftParen
      simpa [Expr.render, Expr.tokens] using whole
  | .negate operand =>
      have operandWellFormed : operand.IsWellFormed := wellFormed
      have scanned := isScannedAs_render operandWellFormed finite
      have whole :=
        (scanned.append IsScannedAs.nil.rightParen (by decide)).leftParen.minus
      simpa [Expr.render, Expr.tokens] using whole
  | .choice condition whenTrue whenFalse =>
      have conditionScanned := isScannedAs_render wellFormed.1 finite.1
      have trueScanned := isScannedAs_render wellFormed.2.1 finite.2.1
      have falseScanned := isScannedAs_render wellFormed.2.2 finite.2.2
      have closed :=
        falseScanned.append IsScannedAs.nil.rightParen (by decide)
      have branches :=
        trueScanned.append closed.blank.colon.blank (by decide)
      have whole :=
        (conditionScanned.append branches.blank.question.blank
          (by decide)).leftParen
      simpa [Expr.render, Expr.tokens] using whole
  | .call name arguments =>
      obtain ⟨⟨function, known, -⟩, areWellFormed⟩ := wellFormed
      rw [← Function.name_of_ofName? known]
      have nameScanned := isScannedAs_name (isIdentifier_function function)
      have argumentsScanned :=
        isScannedAs_renderArguments areWellFormed finite
      have closed :=
        (argumentsScanned.append IsScannedAs.nil.rightParen (by decide)).leftParen
      have whole := nameScanned.append closed (by decide)
      simpa [Expr.render, Expr.tokens] using whole

theorem isScannedAs_renderArguments
    {arguments : List Expr}
    (wellFormed : Expr.AreWellFormed arguments)
    (finite : Expr.AllLiteralsSatisfy IsFiniteLiteral arguments) :
    IsScannedAs (Expr.renderArguments arguments).toList
      (Expr.tokensOfArguments arguments) := by
  match arguments with
  | [] => exact .nil
  | [argument] => exact isScannedAs_render wellFormed.1 finite.1
  | argument :: next :: others =>
      have firstScanned := isScannedAs_render wellFormed.1 finite.1
      have othersScanned := isScannedAs_renderArguments wellFormed.2 finite.2
      have whole := firstScanned.append othersScanned.blank.comma (by decide)
      simpa [Expr.renderArguments, Expr.tokensOfArguments] using whole

end

/-! ## The tokens are read as the tree with its signs out -/

namespace IsReadAs

variable
  {levels : Nat}
  {phraseTokens : List Token}
  {tree : Expr}

/-- What is read as a tier is read as a choice. -/
theorem choice_of_tier
    {tier : Tier}
    (isRead : IsReadAs (.tier tier) levels phraseTokens tree) :
    IsReadAs .choice levels phraseTokens tree := by
  cases tier with
  | comparison => exact isRead.plain
  | sum => exact (@operand .comparison _ _ _ isRead).plain
  | product =>
      exact
        (@operand .comparison _ _ _ (@operand .sum _ _ _ isRead)).plain

/-- What is read as an operand of the tightest tier is one of every tier. -/
theorem tier
    (isRead : IsReadAs .unary levels phraseTokens tree)
    (tier : Tier) :
    IsReadAs (.tier tier) levels phraseTokens tree := by
  have product := @operand .product _ _ _ isRead
  have sum := @operand .sum _ _ _ product
  cases tier with
  | comparison => exact @operand .comparison _ _ _ sum
  | sum => exact sum
  | product => exact product

theorem tierOperand
    (isRead : IsReadAs .unary levels phraseTokens tree)
    (tier : Tier) :
    IsReadAs tier.operand levels phraseTokens tree := by
  cases tier with
  | comparison => exact isRead.tier .sum
  | sum => exact isRead.tier .product
  | product => exact isRead

theorem choice_of_unary
    (isRead : IsReadAs .unary levels phraseTokens tree) :
    IsReadAs .choice levels phraseTokens tree :=
  (isRead.tier .comparison).choice_of_tier

/-- Operands with an operator between them are read as a choice. -/
theorem binary_of_unary
    {otherLevels : Nat}
    {otherTokens : List Token}
    {other : Expr}
    (leftRead : IsReadAs .unary levels phraseTokens tree)
    (rightRead : IsReadAs .unary otherLevels otherTokens other)
    (operator : Operator) :
    IsReadAs .choice (max levels otherLevels)
      (phraseTokens ++ .operator operator :: otherTokens)
      (.binary operator tree other) :=
  (IsReadAs.binary (leftRead.tier (Tier.ofOperator operator))
    (rightRead.tierOperand (Tier.ofOperator operator))).choice_of_tier

end IsReadAs

theorem Expr.length_allWithSignsOut (arguments : List Expr) :
    (allWithSignsOut arguments).length = arguments.length := by
  induction arguments with
  | nil => rfl
  | cons argument others ih => simp [allWithSignsOut, ih]

mutual

/--
The tokens of a rendering are read as an operand, the tree with its signs out.
-/
theorem isReadAs_tokens
    {tree : Expr}
    (wellFormed : tree.IsWellFormed) :
    IsReadAs .unary tree.nesting tree.tokens tree.withSignsOut := by
  match tree with
  | .literal value =>
      rw [Expr.tokens, Expr.withSignsOut, Expr.nesting]
      split
      · exact (IsReadAs.literal value.negate).negated
      · exact (IsReadAs.literal value).unsigned
  | .reference name =>
      obtain ⟨quantity, known⟩ := wellFormed
      rw [← Variable.name_of_ofName? known]
      exact (IsReadAs.reference quantity).unsigned
  | .binary operator left right =>
      have leftRead := isReadAs_tokens wellFormed.1
      have rightRead := isReadAs_tokens wellFormed.2
      have whole :=
        (leftRead.binary_of_unary rightRead operator).group.unsigned
      simpa [Expr.tokens, Expr.nesting, Expr.withSignsOut] using whole
  | .negate operand =>
      have operandWellFormed : operand.IsWellFormed := wellFormed
      exact (isReadAs_tokens operandWellFormed).choice_of_unary.group.negated
  | .choice condition whenTrue whenFalse =>
      have conditionRead := isReadAs_tokens wellFormed.1
      have trueRead := isReadAs_tokens wellFormed.2.1
      have falseRead := isReadAs_tokens wellFormed.2.2
      have whole :=
        (IsReadAs.choice (conditionRead.tier .comparison)
          trueRead.choice_of_unary falseRead.choice_of_unary).group.unsigned
      have sameLevels :
          max condition.nesting (max whenTrue.nesting whenFalse.nesting + 1) +
              1 =
            (Expr.choice condition whenTrue whenFalse).nesting := by
        simp only [Expr.nesting]
        omega
      rw [sameLevels] at whole
      simpa [Expr.tokens, Expr.withSignsOut] using whole
  | .call name arguments =>
      obtain ⟨⟨function, known, complete⟩, areWellFormed⟩ := wellFormed
      rw [← Function.name_of_ofName? known]
      have argumentsRead := areReadAs_tokensOfArguments areWellFormed
      rw [← Expr.length_allWithSignsOut] at complete
      exact (IsReadAs.call argumentsRead complete).unsigned

/-- The tokens of rendered arguments are read as the arguments, signs out. -/
theorem areReadAs_tokensOfArguments
    {arguments : List Expr}
    (wellFormed : Expr.AreWellFormed arguments) :
    AreReadAs (Expr.nestingOfAll arguments)
      (Expr.tokensOfArguments arguments)
      (Expr.allWithSignsOut arguments) := by
  match arguments with
  | [] => exact .none
  | [argument] =>
      have argumentRead := (isReadAs_tokens wellFormed.1).choice_of_unary
      simpa [Expr.nestingOfAll, Expr.tokensOfArguments, Expr.allWithSignsOut]
        using AreReadAs.one argumentRead
  | argument :: next :: others =>
      have argumentRead := (isReadAs_tokens wellFormed.1).choice_of_unary
      have othersRead := areReadAs_tokensOfArguments wellFormed.2
      exact .more argumentRead othersRead

end

end IncentivePay.Formula
