import IncentivePay.Decimal.Shortest
import IncentivePay.Formula.Vocabulary

/-!
# Formula trees

A formula is a tree over numbers.  References and calls hold the written
name, so that a tree built by hand may hold any name and any number of
arguments; the parser builds only names and argument counts of the
vocabulary.

`Expr.render` writes a tree with every binary node and every choice in
parentheses of its own, and the operand of every negation in parentheses.
-/

namespace IncentivePay.Formula

/--
A formula tree; comparisons answer one or zero, so every node is a number.
-/
inductive Expr
  | literal (value : Binary64)
  | reference (name : String)
  | binary (operator : Operator) (left right : Expr)
  | negate (operand : Expr)
  | choice (condition whenTrue whenFalse : Expr)
  | call (name : String) (arguments : List Expr)

instance : Inhabited Expr :=
  ⟨.literal .zero⟩

namespace Expr

mutual

/-- Two trees are the same, node by node. -/
def same : Expr → Expr → Bool
  | .literal left, .literal right => left = right
  | .reference left, .reference right => left = right
  | .binary leftOperator left₁ left₂, .binary rightOperator right₁ right₂ =>
      leftOperator = rightOperator && same left₁ right₁ && same left₂ right₂
  | .negate left, .negate right => same left right
  | .choice left₁ left₂ left₃, .choice right₁ right₂ right₃ =>
      same left₁ right₁ && same left₂ right₂ && same left₃ right₃
  | .call leftName lefts, .call rightName rights =>
      leftName = rightName && sameAll lefts rights
  | _, _ => false

/-- Two lists of trees are the same, member by member. -/
def sameAll : List Expr → List Expr → Bool
  | [], [] => true
  | left :: lefts, right :: rights => same left right && sameAll lefts rights
  | _, _ => false

end

mutual

theorem same_refl : (tree : Expr) → same tree tree = true
  | .literal _ => by simp [same]
  | .reference _ => by simp [same]
  | .binary _ left right => by simp [same, same_refl left, same_refl right]
  | .negate operand => by simp [same, same_refl operand]
  | .choice condition whenTrue whenFalse => by
      simp [same, same_refl condition, same_refl whenTrue,
        same_refl whenFalse]
  | .call _ arguments => by simp [same, sameAll_refl arguments]

theorem sameAll_refl : (trees : List Expr) → sameAll trees trees = true
  | [] => by simp [sameAll]
  | tree :: trees => by simp [sameAll, same_refl tree, sameAll_refl trees]

end

mutual

theorem eq_of_same :
    (left right : Expr) →
    same left right = true →
    left = right
  | .literal _, right, agree => by
      cases right <;> simp_all [same]
  | .reference _, right, agree => by
      cases right <;> simp_all [same]
  | .binary _ left₁ left₂, right, agree => by
      cases right with
      | binary _ right₁ right₂ =>
          simp only [same, Bool.and_eq_true, decide_eq_true_eq] at agree
          rw [agree.1.1, eq_of_same left₁ right₁ agree.1.2,
            eq_of_same left₂ right₂ agree.2]
      | _ => simp [same] at agree
  | .negate left, right, agree => by
      cases right with
      | negate right =>
          simp only [same] at agree
          rw [eq_of_same left right agree]
      | _ => simp [same] at agree
  | .choice left₁ left₂ left₃, right, agree => by
      cases right with
      | choice right₁ right₂ right₃ =>
          simp only [same, Bool.and_eq_true] at agree
          rw [eq_of_same left₁ right₁ agree.1.1,
            eq_of_same left₂ right₂ agree.1.2,
            eq_of_same left₃ right₃ agree.2]
      | _ => simp [same] at agree
  | .call _ lefts, right, agree => by
      cases right with
      | call _ rights =>
          simp only [same, Bool.and_eq_true, decide_eq_true_eq] at agree
          rw [agree.1, eq_of_sameAll lefts rights agree.2]
      | _ => simp [same] at agree

theorem eq_of_sameAll :
    (lefts rights : List Expr) →
    sameAll lefts rights = true →
    lefts = rights
  | [], rights, agree => by
      cases rights <;> simp_all [sameAll]
  | left :: lefts, rights, agree => by
      cases rights with
      | nil => simp [sameAll] at agree
      | cons right rights =>
          simp only [sameAll, Bool.and_eq_true] at agree
          rw [eq_of_same left right agree.1,
            eq_of_sameAll lefts rights agree.2]

end

instance : DecidableEq Expr := fun left right =>
  decidable_of_iff (same left right = true)
    ⟨eq_of_same left right,
      fun equality => equality ▸ same_refl left⟩

mutual

/-- The text of a tree, fully parenthesized. -/
def render : Expr → String
  | .literal value => value.text
  | .reference name => name
  | .binary operator left right =>
      "(" ++ left.render ++ " " ++ operator.symbol ++ " " ++ right.render ++ ")"
  | .negate operand => "-(" ++ operand.render ++ ")"
  | .choice condition whenTrue whenFalse =>
      "(" ++ condition.render ++ " ? " ++ whenTrue.render ++ " : " ++
        whenFalse.render ++ ")"
  | .call name arguments => name ++ "(" ++ renderArguments arguments ++ ")"

/-- The texts of the arguments, with a comma and a space between two. -/
def renderArguments : List Expr → String
  | [] => ""
  | [argument] => argument.render
  | argument :: next :: arguments =>
      argument.render ++ ", " ++ renderArguments (next :: arguments)

end

end Expr

end IncentivePay.Formula
