import IncentivePay.Formula.Expr

/-!
# Well-formed trees

A tree is well formed when each of its names is in the vocabulary and each of
its calls has as many arguments as the function takes.  Its variables are
those that its references name; a subtree that is never selected counts like
any other.
-/

namespace IncentivePay.Formula

/-- So many arguments are what the function with a name takes. -/
def TakesArguments
    (name : String)
    (count : Nat) :
    Prop :=
  ∃ function, Function.ofName? name = some function ∧ count = function.arity

namespace Expr

mutual

/-- Every name is in the vocabulary, and every call is complete. -/
def IsWellFormed : Expr → Prop
  | .literal _ => True
  | .reference name => ∃ quantity, Variable.ofName? name = some quantity
  | .binary _ left right => left.IsWellFormed ∧ right.IsWellFormed
  | .negate operand => operand.IsWellFormed
  | .choice condition whenTrue whenFalse =>
      condition.IsWellFormed ∧ whenTrue.IsWellFormed ∧ whenFalse.IsWellFormed
  | .call name arguments =>
      TakesArguments name arguments.length ∧ AreWellFormed arguments

/-- Every tree of a list is well formed. -/
def AreWellFormed : List Expr → Prop
  | [] => True
  | tree :: trees => tree.IsWellFormed ∧ AreWellFormed trees

end

mutual

/-- A property of numbers holds of every literal. -/
def LiteralsSatisfy (property : Binary64 → Prop) : Expr → Prop
  | .literal value => property value
  | .reference _ => True
  | .binary _ left right =>
      left.LiteralsSatisfy property ∧ right.LiteralsSatisfy property
  | .negate operand => operand.LiteralsSatisfy property
  | .choice condition whenTrue whenFalse =>
      condition.LiteralsSatisfy property ∧
        whenTrue.LiteralsSatisfy property ∧
        whenFalse.LiteralsSatisfy property
  | .call _ arguments => AllLiteralsSatisfy property arguments

/-- A property of numbers holds of every literal of every tree of a list. -/
def AllLiteralsSatisfy (property : Binary64 → Prop) : List Expr → Prop
  | [] => True
  | tree :: trees =>
      tree.LiteralsSatisfy property ∧ AllLiteralsSatisfy property trees

end

mutual

theorem LiteralsSatisfy.mono
    {property weaker : Binary64 → Prop}
    {tree : Expr}
    (satisfies : tree.LiteralsSatisfy property)
    (weakens : ∀ value, property value → weaker value) :
    tree.LiteralsSatisfy weaker := by
  match tree, satisfies with
  | .literal value, holds => exact weakens value holds
  | .reference _, _ => trivial
  | .binary _ _ _, ⟨left, right⟩ =>
      exact ⟨left.mono weakens, right.mono weakens⟩
  | .negate operand, holds =>
      have inner : operand.LiteralsSatisfy property := holds
      exact inner.mono weakens
  | .choice _ _ _, ⟨condition, whenTrue, whenFalse⟩ =>
      exact
        ⟨condition.mono weakens, whenTrue.mono weakens,
          whenFalse.mono weakens⟩
  | .call _ arguments, holds =>
      have inner : AllLiteralsSatisfy property arguments := holds
      exact inner.mono weakens

theorem AllLiteralsSatisfy.mono
    {property weaker : Binary64 → Prop}
    {trees : List Expr}
    (satisfy : AllLiteralsSatisfy property trees)
    (weakens : ∀ value, property value → weaker value) :
    AllLiteralsSatisfy weaker trees := by
  match trees, satisfy with
  | [], _ => trivial
  | _ :: _, ⟨first, others⟩ =>
      exact ⟨first.mono weakens, others.mono weakens⟩

end

mutual

/-- The variables that the references of a tree name. -/
def reads : Expr → List Variable
  | .literal _ => []
  | .reference name => (Variable.ofName? name).toList
  | .binary _ left right => left.reads ++ right.reads
  | .negate operand => operand.reads
  | .choice condition whenTrue whenFalse =>
      condition.reads ++ whenTrue.reads ++ whenFalse.reads
  | .call _ arguments => readsOfAll arguments

/-- The variables that the references of a list of trees name. -/
def readsOfAll : List Expr → List Variable
  | [] => []
  | tree :: trees => tree.reads ++ readsOfAll trees

end

mutual

/-- The number of nodes on the longest way from the root of a tree to a leaf. -/
def levels : Expr → Nat
  | .literal _ => 1
  | .reference _ => 1
  | .binary _ left right => max left.levels right.levels + 1
  | .negate operand => operand.levels + 1
  | .choice condition whenTrue whenFalse =>
      max condition.levels (max whenTrue.levels whenFalse.levels) + 1
  | .call _ arguments => levelsOfAll arguments + 1

/-- The largest number of levels in a list of trees. -/
def levelsOfAll : List Expr → Nat
  | [] => 0
  | tree :: trees => max tree.levels (levelsOfAll trees)

end

theorem levels_pos (tree : Expr) : 0 < tree.levels := by
  cases tree <;> simp [levels]

end Expr

end IncentivePay.Formula
