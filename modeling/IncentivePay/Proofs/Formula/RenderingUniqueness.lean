import IncentivePay.Proofs.Formula.RenderedTokens

/-!
# A rendering belongs to one tree

The tokens of a rendering can be split off the front of any longer list of
tokens in one way only.  What a rendering starts with tells its node, except
that a binary node and a choice both start with a parenthesis and their first
subtree; the token after it tells them apart.  A sign is followed by the
number of a literal or by the parenthesis of a negation.  Two well-formed
trees with one text are therefore the same.
-/

namespace IncentivePay.Formula

/-- The tokens of a literal are split off the front of others in one way. -/
theorem eq_of_tokens_literal_append
    {value other : Binary64}
    {firstRest secondRest : List Token}
    (same :
      (Expr.literal value).tokens ++ firstRest =
        (Expr.literal other).tokens ++ secondRest) :
    value = other ∧ firstRest = secondRest := by
  simp only [Expr.tokens] at same
  split at same
  · split at same
    · simp only [List.cons_append, List.nil_append, List.cons.injEq,
        Token.number.injEq, true_and] at same
      rw [← value.negate_negate, ← other.negate_negate, same.1]
      exact ⟨rfl, same.2⟩
    · simp at same
  · split at same
    · simp at same
    · simpa using same

/--
What starts with the tokens of a literal starts with those of no other node.
-/
theorem tokens_literal_append_ne
    {value : Binary64}
    {tree : Expr}
    (isOther : ∀ other, tree ≠ .literal other)
    (firstRest secondRest : List Token) :
    (Expr.literal value).tokens ++ firstRest ≠ tree.tokens ++ secondRest := by
  intro same
  simp only [Expr.tokens] at same
  cases tree with
  | literal other => exact isOther other rfl
  | _ => split at same <;> simp [Expr.tokens] at same

/-- No variable has the name of a function. -/
theorem name_ne_name_of_known
    {variableName functionName : String}
    {quantity : Variable}
    {function : Function}
    (isVariable : Variable.ofName? variableName = some quantity)
    (isFunction : Function.ofName? functionName = some function) :
    variableName ≠ functionName := by
  rw [← Variable.name_of_ofName? isVariable,
    ← Function.name_of_ofName? isFunction]
  cases quantity <;> cases function <;> decide

/-- Functions with one name take as many arguments. -/
theorem TakesArguments.unique
    {name : String}
    {count other : Nat}
    (takes : TakesArguments name count)
    (takesOther : TakesArguments name other) :
    count = other := by
  obtain ⟨function, known, rfl⟩ := takes
  obtain ⟨otherFunction, otherKnown, rfl⟩ := takesOther
  rw [known, Option.some.injEq] at otherKnown
  rw [otherKnown]

namespace Expr

/--
No other well-formed tree has tokens that start as those of the tree do,
whatever follows either of them.
-/
def StandsAlone (tree : Expr) : Prop :=
  ∀ ⦃other : Expr⦄,
    other.IsWellFormed →
    ∀ ⦃rest otherRest : List Token⦄,
      tree.tokens ++ rest = other.tokens ++ otherRest →
      tree = other ∧ rest = otherRest

/--
No other list of as many well-formed trees has tokens that start the same.
-/
def StandAlone (trees : List Expr) : Prop :=
  ∀ ⦃others : List Expr⦄,
    trees.length = others.length →
    AreWellFormed others →
    ∀ ⦃rest otherRest : List Token⦄,
      tokensOfArguments trees ++ rest =
        tokensOfArguments others ++ otherRest →
      trees = others ∧ rest = otherRest

/-! ## Single nodes -/

theorem standsAlone_literal (value : Binary64) :
    (literal value).StandsAlone := by
  intro other _ _ _ same
  cases other with
  | literal otherValue => simpa using eq_of_tokens_literal_append same
  | _ => exact absurd same (tokens_literal_append_ne (by simp) _ _)

theorem standsAlone_reference
    {name : String}
    {quantity : Variable}
    (isVariable : Variable.ofName? name = some quantity) :
    (reference name).StandsAlone := by
  intro other otherWellFormed _ _ same
  cases other with
  | reference otherName => simpa [tokens] using same
  | call otherName arguments =>
      obtain ⟨⟨function, isFunction, -⟩, -⟩ := otherWellFormed
      simp only [tokens, List.cons_append, List.cons.injEq,
        Token.identifier.injEq] at same
      exact absurd same.1 (name_ne_name_of_known isVariable isFunction)
  | literal otherValue =>
      exact absurd same.symm (tokens_literal_append_ne (by simp) _ _)
  | _ => simp [tokens] at same

namespace StandsAlone

/-- A choice starts as a binary node does, until its first subtree ends. -/
theorem binary
    {left right : Expr}
    (leftAlone : left.StandsAlone)
    (rightAlone : right.StandsAlone)
    (operator : Operator) :
    (Expr.binary operator left right).StandsAlone := by
  intro other otherWellFormed _ _ same
  cases other with
  | binary otherOperator otherLeft otherRight =>
      simp only [tokens, List.cons_append, List.append_assoc,
        List.cons.injEq, true_and] at same
      obtain ⟨sameLeft, afterLeft⟩ := leftAlone otherWellFormed.1 same
      simp only [List.cons.injEq, Token.operator.injEq] at afterLeft
      obtain ⟨sameRight, afterRight⟩ :=
        rightAlone otherWellFormed.2 afterLeft.2
      rw [sameLeft, sameRight, afterLeft.1]
      simpa using afterRight
  | choice condition whenTrue whenFalse =>
      simp only [tokens, List.cons_append, List.append_assoc,
        List.cons.injEq, true_and] at same
      have afterLeft := (leftAlone otherWellFormed.1 same).2
      simp at afterLeft
  | literal otherValue =>
      exact absurd same.symm (tokens_literal_append_ne (by simp) _ _)
  | _ => simp [tokens] at same

theorem negate
    {operand : Expr}
    (operandAlone : operand.StandsAlone) :
    (Expr.negate operand).StandsAlone := by
  intro other otherWellFormed _ _ same
  cases other with
  | negate otherOperand =>
      simp only [tokens, List.cons_append, List.append_assoc,
        List.cons.injEq, true_and] at same
      have innerWellFormed : otherOperand.IsWellFormed := otherWellFormed
      obtain ⟨sameOperand, afterOperand⟩ := operandAlone innerWellFormed same
      rw [sameOperand]
      simpa using afterOperand
  | literal otherValue =>
      exact absurd same.symm (tokens_literal_append_ne (by simp) _ _)
  | _ => simp [tokens] at same

theorem choice
    {condition whenTrue whenFalse : Expr}
    (conditionAlone : condition.StandsAlone)
    (trueAlone : whenTrue.StandsAlone)
    (falseAlone : whenFalse.StandsAlone) :
    (Expr.choice condition whenTrue whenFalse).StandsAlone := by
  intro other otherWellFormed _ _ same
  cases other with
  | choice otherCondition otherTrue otherFalse =>
      simp only [tokens, List.cons_append, List.append_assoc,
        List.cons.injEq, true_and] at same
      obtain ⟨sameCondition, afterCondition⟩ :=
        conditionAlone otherWellFormed.1 same
      simp only [List.cons.injEq, true_and] at afterCondition
      obtain ⟨sameTrue, afterTrue⟩ :=
        trueAlone otherWellFormed.2.1 afterCondition
      simp only [List.cons.injEq, true_and] at afterTrue
      obtain ⟨sameFalse, afterFalse⟩ :=
        falseAlone otherWellFormed.2.2 afterTrue
      rw [sameCondition, sameTrue, sameFalse]
      simpa using afterFalse
  | binary operator left right =>
      simp only [tokens, List.cons_append, List.append_assoc,
        List.cons.injEq, true_and] at same
      have afterCondition := (conditionAlone otherWellFormed.1 same).2
      simp at afterCondition
  | literal otherValue =>
      exact absurd same.symm (tokens_literal_append_ne (by simp) _ _)
  | _ => simp [tokens] at same

end StandsAlone

/-- The name of a call tells how many arguments there are. -/
theorem StandAlone.call
    {name : String}
    {arguments : List Expr}
    (argumentsAlone : StandAlone arguments)
    (takes : TakesArguments name arguments.length) :
    (Expr.call name arguments).StandsAlone := by
  intro other otherWellFormed _ _ same
  cases other with
  | call otherName others =>
      simp only [tokens, List.cons_append, List.append_assoc,
        List.cons.injEq, Token.identifier.injEq, true_and] at same
      obtain ⟨rfl, sameAfterName⟩ := same
      have sameLength := takes.unique otherWellFormed.1
      obtain ⟨sameArguments, afterArguments⟩ :=
        argumentsAlone sameLength otherWellFormed.2 sameAfterName
      rw [sameArguments]
      simpa using afterArguments
  | reference otherName =>
      obtain ⟨function, isFunction, -⟩ := takes
      obtain ⟨quantity, isVariable⟩ := otherWellFormed
      simp only [tokens, List.cons_append, List.cons.injEq,
        Token.identifier.injEq] at same
      exact absurd same.1.symm (name_ne_name_of_known isVariable isFunction)
  | literal otherValue =>
      exact absurd same.symm (tokens_literal_append_ne (by simp) _ _)
  | _ => simp [tokens] at same

/-! ## Arguments -/

theorem standAlone_nil : StandAlone [] := by
  intro others sameLength _ _ _ same
  obtain rfl := List.eq_nil_of_length_eq_zero sameLength.symm
  exact ⟨rfl, same⟩

/-- The comma after an argument is there or not in both lists. -/
theorem StandAlone.cons
    {tree : Expr}
    {trees : List Expr}
    (treeAlone : tree.StandsAlone)
    (treesAlone : StandAlone trees) :
    StandAlone (tree :: trees) := by
  intro others sameLength othersWellFormed _ _ same
  match trees, others with
  | [], [other] =>
      obtain ⟨sameTree, sameRest⟩ := treeAlone othersWellFormed.1 same
      exact ⟨by rw [sameTree], sameRest⟩
  | next :: later, other :: otherNext :: otherLater =>
      simp only [tokensOfArguments, List.append_assoc, List.cons_append]
        at same
      obtain ⟨sameTree, afterTree⟩ := treeAlone othersWellFormed.1 same
      simp only [List.cons.injEq, true_and] at afterTree
      obtain ⟨sameOthers, sameRest⟩ :=
        treesAlone (by simpa using sameLength) othersWellFormed.2 afterTree
      exact ⟨by rw [sameTree, sameOthers], sameRest⟩

/-! ## All well-formed trees -/

mutual

theorem IsWellFormed.standsAlone
    {tree : Expr}
    (wellFormed : tree.IsWellFormed) :
    tree.StandsAlone := by
  match tree, wellFormed with
  | .literal value, _ => exact standsAlone_literal value
  | .reference _, ⟨_, isVariable⟩ => exact standsAlone_reference isVariable
  | .binary operator _ _, ⟨left, right⟩ =>
      exact left.standsAlone.binary right.standsAlone operator
  | .negate operand, wellFormed =>
      have operandWellFormed : operand.IsWellFormed := wellFormed
      exact operandWellFormed.standsAlone.negate
  | .choice _ _ _, ⟨condition, whenTrue, whenFalse⟩ =>
      exact
        condition.standsAlone.choice whenTrue.standsAlone
          whenFalse.standsAlone
  | .call _ _, ⟨takes, areWellFormed⟩ =>
      exact areWellFormed.standAlone.call takes

theorem AreWellFormed.standAlone
    {trees : List Expr}
    (wellFormed : AreWellFormed trees) :
    StandAlone trees := by
  match trees, wellFormed with
  | [], _ => exact standAlone_nil
  | _ :: _, ⟨first, others⟩ => exact .cons first.standsAlone others.standAlone

end

end Expr

end IncentivePay.Formula
