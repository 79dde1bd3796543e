import IncentivePay.Payout.Template
import IncentivePay.Proofs.Formula.RoundTrip

/-!
# Template rules as formulas

`Template.formula` spells a rule out as the text of a custom formula, with its
numbers as they are written.  The parser reads the text as the tree of the
rule with its signs out, since a negative zero is written with a sign, and
even the longest numbers leave the text short enough.  The value of the tree
is the amount of the rule with the stricter reading of the larger number.
-/

namespace IncentivePay

open Formula

/-- The variable that a formula reads in the place of a sales figure. -/
def Basis.variable : Basis → Variable
  | .personal => .personalSales
  | .total => .totalSales

namespace Template

/-- The rate of a rule. -/
def rate : Template → Binary64
  | .percent _ rate => rate
  | .excess _ _ rate => rate

/-- The threshold of a rule, if it has one. -/
def threshold? : Template → Option Binary64
  | .percent .. => none
  | .excess _ threshold _ => some threshold

/--
The text of the sales figure, or of its excess, which the rate multiplies.
-/
def portion : Template → String
  | .percent basis _ => basis.variable.name
  | .excess basis threshold _ =>
      "Math.max(0, " ++ basis.variable.name ++ " - " ++ threshold.text ++ ")"

theorem portion_excess (basis : Basis) (threshold rate : Binary64) :
    portion (.excess basis threshold rate) =
      "Math.max(0, " ++ basis.variable.name ++ " - " ++ threshold.text ++
        ")" :=
  rfl

/-- The text of a rule as a custom formula. -/
def formula (rule : Template) : String :=
  rule.portion ++ " * " ++ rule.rate.text

/-- The numbers of a rule are finite. -/
structure IsFinite (rule : Template) : Prop where
  rate : rule.rate.isFinite = true
  threshold : ∀ threshold ∈ rule.threshold?, threshold.isFinite = true

/-! ## The text is short -/

theorem length_portion_le (rule : Template) :
    rule.portion.length ≤ 740 := by
  have marks :
      "Math.max(0, ".length = 12 ∧ " - ".length = 3 ∧ ")".length = 1 :=
    ⟨rfl, rfl, rfl⟩
  have name (basis : Basis) : basis.variable.name.length ≤ 13 := by
    cases basis <;> decide
  cases rule with
  | percent basis rate => exact Nat.le_trans (name basis) (by decide)
  | excess basis threshold rate =>
      have figure := name basis
      have number := threshold.length_text_le
      simp only [portion_excess, String.length_append]
      omega

theorem length_formula_le (rule : Template) :
    rule.formula.length ≤ maxLength := by
  have times : " * ".length = 3 := rfl
  have portion := rule.length_portion_le
  have number := rule.rate.length_text_le
  simp only [formula, maxLength, String.length_append]
  omega

/-! ## The text is scanned -/

/-- The tokens of the text of the portion. -/
def portionTokens : Template → List Token
  | .percent basis _ => [.identifier basis.variable.name]
  | .excess basis threshold _ =>
      .identifier Function.max.name :: .leftParen ::
        ((Expr.literal .zero).tokens ++ .comma ::
          ([.identifier basis.variable.name] ++ .operator .subtract ::
            (Expr.literal threshold).tokens) ++
          [.rightParen])

/-- The tokens of the text of a rule. -/
def tokens (rule : Template) : List Token :=
  rule.portionTokens ++ .operator .multiply :: (Expr.literal rule.rate).tokens

end Template

namespace Formula

theorem isScannedAs_literal
    {value : Binary64}
    (isFinite : value.isFinite = true) :
    IsScannedAs value.text.toList (Expr.literal value).tokens :=
  @isScannedAs_render (.literal value) trivial isFinite

theorem isScannedAs_zero : IsScannedAs ['0'] (Expr.literal .zero).tokens := by
  have text : Binary64.zero.text = "0" := by decide +kernel
  have scanned := @isScannedAs_literal .zero rfl
  rwa [text] at scanned

end Formula

namespace Template

variable {rule : Template}

theorem isScannedAs_portion (finite : rule.IsFinite) :
    IsScannedAs rule.portion.toList rule.portionTokens := by
  cases rule with
  | percent basis rate => exact isScannedAs_name (isIdentifier_variable _)
  | excess basis threshold rate =>
      have figureScanned :=
        isScannedAs_name (isIdentifier_variable basis.variable)
      have thresholdScanned := isScannedAs_literal (finite.threshold _ rfl)
      have differenceScanned :=
        figureScanned.operation thresholdScanned .subtract
      have closed :=
        differenceScanned.append IsScannedAs.nil.rightParen (by decide)
      have argumentsScanned :=
        isScannedAs_zero.append closed.blank.comma (by decide)
      have nameScanned := isScannedAs_name (isIdentifier_function .max)
      have whole := nameScanned.append argumentsScanned.leftParen (by decide)
      rw [portion_excess]
      simpa [portionTokens, Operator.symbol, Function.name] using whole

theorem isScannedAs_formula (finite : rule.IsFinite) :
    IsScannedAs rule.formula.toList rule.tokens := by
  have whole :=
    (isScannedAs_portion finite).operation (isScannedAs_literal finite.rate)
      .multiply
  simpa [formula, tokens, Operator.symbol] using whole

/-! ## The tokens are read -/

/-- The tree of the portion; its literals may have signs. -/
def portionTree : Template → Expr
  | .percent basis _ => .reference basis.variable.name
  | .excess basis threshold _ =>
      .call Function.max.name
        [.literal .zero,
          .binary .subtract (.reference basis.variable.name)
            (.literal threshold)]

/-- The tree of a rule. -/
def tree (rule : Template) : Expr :=
  .binary .multiply rule.portionTree (.literal rule.rate)

theorem exists_isReadAs_portion (rule : Template) :
    ∃ levels,
      levels ≤ 1 ∧
        IsReadAs .unary levels rule.portionTokens
          rule.portionTree.withSignsOut := by
  cases rule with
  | percent basis rate =>
      exact ⟨0, Nat.zero_le _, (IsReadAs.reference basis.variable).unsigned⟩
  | excess basis threshold rate =>
      have zeroRead := @isReadAs_tokens (.literal .zero) trivial
      have figureRead := (IsReadAs.reference basis.variable).unsigned
      have thresholdRead := @isReadAs_tokens (.literal threshold) trivial
      have differenceRead :=
        figureRead.binary_of_unary thresholdRead .subtract
      have argumentsRead :=
        AreReadAs.more zeroRead.choice_of_unary (.one differenceRead)
      have callRead := @IsReadAs.call .max _ _ _ argumentsRead rfl
      exact ⟨1, Nat.le_refl _, callRead.unsigned⟩

/-- The text of a rule with finite numbers is parsed as its tree, signs out. -/
theorem exists_hasReading (finite : rule.IsFinite) :
    ∃ located, HasReading rule.formula located rule.tree.withSignsOut := by
  obtain ⟨located, scanned, spelled⟩ :=
    (isScannedAs_formula finite).exists_tokenize
  obtain ⟨levels, bound, portionRead⟩ := rule.exists_isReadAs_portion
  have rateRead := @isReadAs_tokens (.literal rule.rate) trivial
  have isRead := portionRead.binary_of_unary rateRead .multiply
  have whole :
      IsReadAs .choice (max levels 0) (located.map Located.token)
        rule.tree.withSignsOut := by
    rw [spelled]
    exact isRead
  exact
    ⟨located,
      .of_isReadAs rule.length_formula_le scanned whole
        (by simp only [maxNesting]; omega)⟩

/-! ## The value of the tree -/

/-- The portion, with a NaN in the place of the larger of zero and a NaN. -/
def strictPortion
    (rule : Template)
    (sales : Sales) :
    Binary64 :=
  match rule with
  | .percent basis _ => basis.figure sales
  | .excess basis threshold _ =>
      Binary64.zero.maxStrict ((basis.figure sales).subtract threshold)

theorem lookUp_variable
    (basis : Basis)
    (sales : Sales)
    (profile : Profile) :
    lookUp (.ofRecords sales profile) basis.variable.name =
      .ok (basis.figure sales) := by
  cases basis <;> rfl

theorem value_tree
    (rule : Template)
    (sales : Sales)
    (profile : Profile) :
    rule.tree.value (.ofRecords sales profile) =
      .ok ((rule.strictPortion sales).multiply rule.rate) := by
  cases rule with
  | percent basis rate =>
      simp [tree, portionTree, Expr.value, lookUp_variable, strictPortion,
        Template.rate, Operator.apply, bind, Except.bind]
  | excess basis threshold rate =>
      simp [tree, portionTree, Expr.value, Expr.valuesOfAll, lookUp_variable,
        strictPortion, Template.rate, Operator.apply, Function.apply,
        Function.arity, bind, Except.bind]

/-- The text of a rule is parsed, and what is parsed has this value. -/
theorem parse_and_evaluate_formula
    (finite : rule.IsFinite)
    (sales : Sales)
    (profile : Profile) :
    parse rule.formula = .ok rule.tree.withSignsOut ∧
      evaluate rule.tree.withSignsOut (.ofRecords sales profile) =
        .ok ((rule.strictPortion sales).multiply rule.rate) := by
  obtain ⟨located, reading⟩ := exists_hasReading finite
  have parsed := reading.parse_eq_ok
  refine ⟨parsed, ?_⟩
  rw [evaluate_eq_value_of_parse parsed, Expr.value_withSignsOut, value_tree]

theorem isBlankText_formula (finite : rule.IsFinite) :
    isBlankText rule.formula = false := by
  obtain ⟨located, reading⟩ := exists_hasReading finite
  exact isBlankText_eq_false_of_derives reading.scanned reading.derives

end Template

end IncentivePay
