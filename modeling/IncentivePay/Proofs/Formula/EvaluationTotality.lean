import IncentivePay.Proofs.Formula.DepthBound
import IncentivePay.Proofs.Formula.DerivedTrees

/-!
# Parsed formulas have values

A well-formed tree has a value as soon as every variable is bound.  A parsed
tree is well formed, and it has no more levels than its text has characters,
so the bound on the depth does not matter to it and it always has a value.
-/

namespace IncentivePay.Formula

/-- Every variable has a value. -/
def Bindings.BindsAll (bindings : Bindings) : Prop :=
  ∀ quantity, (bindings.value? quantity).isSome = true

theorem Bindings.bindsAll_ofRecords
    (sales : Sales)
    (profile : Profile) :
    (ofRecords sales profile).BindsAll :=
  isSome_ofRecords sales profile

/-! ## Well-formed trees -/

/-- A variable of the vocabulary is found. -/
theorem exists_lookUp
    {bindings : Bindings}
    (bindsAll : bindings.BindsAll)
    {name : String}
    {quantity : Variable}
    (known : Variable.ofName? name = some quantity) :
    ∃ value, lookUp bindings name = .ok value := by
  obtain ⟨value, bound⟩ := Option.isSome_iff_exists.1 (bindsAll quantity)
  exact ⟨value, by simp [lookUp, known, bound]⟩

mutual

/-- A well-formed tree has a value when every variable has one. -/
theorem Expr.IsWellFormed.hasValue
    {bindings : Bindings}
    {tree : Expr}
    (wellFormed : tree.IsWellFormed)
    (bindsAll : bindings.BindsAll) :
    HasValue bindings tree := by
  match tree, wellFormed with
  | .literal value, _ => exact ⟨value, rfl⟩
  | .reference name, ⟨quantity, known⟩ => exact exists_lookUp bindsAll known
  | .binary operator left right, ⟨leftWellFormed, rightWellFormed⟩ =>
      obtain ⟨leftValue, leftHas⟩ := leftWellFormed.hasValue bindsAll
      obtain ⟨rightValue, rightHas⟩ := rightWellFormed.hasValue bindsAll
      refine ⟨operator.apply leftValue rightValue, ?_⟩
      rw [Expr.value, leftHas, rightHas]
      rfl
  | .negate operand, wellFormed =>
      have operandWellFormed : operand.IsWellFormed := wellFormed
      obtain ⟨value, has⟩ := operandWellFormed.hasValue bindsAll
      refine ⟨value.negate, ?_⟩
      rw [Expr.value, has]
      rfl
  | .choice condition whenTrue whenFalse,
      ⟨conditionWellFormed, trueWellFormed, falseWellFormed⟩ =>
      obtain ⟨selector, conditionHas⟩ := conditionWellFormed.hasValue bindsAll
      obtain ⟨trueValue, trueHas⟩ := trueWellFormed.hasValue bindsAll
      obtain ⟨falseValue, falseHas⟩ := falseWellFormed.hasValue bindsAll
      refine ⟨if isTruthy selector then trueValue else falseValue, ?_⟩
      rw [Expr.value, conditionHas, trueHas, falseHas]
      exact (apply_ite Except.ok _ _ _).symm
  | .call name arguments, ⟨⟨function, known, complete⟩, areWellFormed⟩ =>
      obtain ⟨values, haveValues⟩ := areWellFormed.haveValues bindsAll
      refine ⟨function.apply values, ?_⟩
      simp only [Expr.value, known, complete, if_true, haveValues]
      rfl

/-- Well-formed trees have values when every variable has one. -/
theorem Expr.AreWellFormed.haveValues
    {bindings : Bindings}
    {trees : List Expr}
    (wellFormed : Expr.AreWellFormed trees)
    (bindsAll : bindings.BindsAll) :
    ∃ values, Expr.valuesOfAll bindings trees = .ok values := by
  match trees, wellFormed with
  | [], _ => exact ⟨[], rfl⟩
  | tree :: others, ⟨treeWellFormed, othersWellFormed⟩ =>
      obtain ⟨value, has⟩ := treeWellFormed.hasValue bindsAll
      obtain ⟨values, haveOthers⟩ := othersWellFormed.haveValues bindsAll
      refine ⟨value :: values, ?_⟩
      rw [Expr.valuesOfAll, has, haveOthers]
      rfl

end

/-! ## Parsed trees -/

/-- What the parser delivers is evaluated without the bound on the depth. -/
theorem evaluate_eq_value_of_parse
    {text : String}
    {tree : Expr}
    (parsed : parse text = .ok tree)
    (bindings : Bindings) :
    evaluate tree bindings = tree.value bindings :=
  evaluate_eq_value (levels_le_of_parse parsed) bindings

theorem isWellFormed_of_parse
    {text : String}
    {tree : Expr}
    (parsed : parse text = .ok tree) :
    tree.IsWellFormed := by
  obtain ⟨-, tokens, -, -, wellFormed⟩ := exists_derivation_of_parse parsed
  exact wellFormed

/-- What the parser delivers has a value when every variable has one. -/
theorem exists_evaluate_of_parse
    {text : String}
    {tree : Expr}
    (parsed : parse text = .ok tree)
    {bindings : Bindings}
    (bindsAll : bindings.BindsAll) :
    ∃ value, evaluate tree bindings = .ok value := by
  rw [evaluate_eq_value_of_parse parsed]
  exact (isWellFormed_of_parse parsed).hasValue bindsAll

end IncentivePay.Formula
