import IncentivePay.Formula.Evaluation

/-!
# Evaluation without a bound

`Expr.value` evaluates a tree of any height: from left to right, only the
selected branch of a choice, and a call only after its name and the number of
its arguments were found to be right.  It ends because a tree is finite.

`Visits bindings depth tree` says that this evaluation visits a node that
stands so many levels below the root: every node before it on its level was
evaluated without an error, and every choice above it selects its branch.
-/

namespace IncentivePay.Formula

namespace Expr

mutual

/-- The value of a tree, or the first error on the way. -/
def value
    (bindings : Bindings) :
    Expr →
    Except EvaluationError Binary64
  | .literal value => .ok value
  | .reference name => lookUp bindings name
  | .binary operator left right => do
      let leftValue ← left.value bindings
      let rightValue ← right.value bindings
      .ok (operator.apply leftValue rightValue)
  | .negate operand => do
      let value ← operand.value bindings
      .ok value.negate
  | .choice condition whenTrue whenFalse => do
      let selector ← condition.value bindings
      if isTruthy selector then
        whenTrue.value bindings
      else
        whenFalse.value bindings
  | .call name arguments =>
      match Function.ofName? name with
      | none => .error (.callNotAllowed name)
      | some function =>
          if arguments.length = function.arity then do
            let values ← valuesOfAll bindings arguments
            .ok (function.apply values)
          else
            .error (.wrongArgumentCount function arguments.length)

/-- The values of a list of trees, or the first error on the way. -/
def valuesOfAll
    (bindings : Bindings) :
    List Expr →
    Except EvaluationError (List Binary64)
  | [] => .ok []
  | tree :: trees => do
      let value ← tree.value bindings
      let values ← valuesOfAll bindings trees
      .ok (value :: values)

end

end Expr

/-- A tree has a value. -/
def HasValue
    (bindings : Bindings)
    (tree : Expr) :
    Prop :=
  ∃ value, tree.value bindings = .ok value

/-- The evaluation of a tree visits a node so many levels below its root. -/
inductive Visits (bindings : Bindings) : Nat → Expr → Prop
  | root {tree : Expr} :
      Visits bindings 0 tree
  | left {depth : Nat} {operator : Operator} {left right : Expr} :
      Visits bindings depth left →
      Visits bindings (depth + 1) (.binary operator left right)
  | right {depth : Nat} {operator : Operator} {left right : Expr} :
      HasValue bindings left →
      Visits bindings depth right →
      Visits bindings (depth + 1) (.binary operator left right)
  | operand {depth : Nat} {operand : Expr} :
      Visits bindings depth operand →
      Visits bindings (depth + 1) (.negate operand)
  | condition {depth : Nat} {condition whenTrue whenFalse : Expr} :
      Visits bindings depth condition →
      Visits bindings (depth + 1) (.choice condition whenTrue whenFalse)
  | whenTrue
      {depth : Nat} {condition whenTrue whenFalse : Expr}
      {selector : Binary64} :
      condition.value bindings = .ok selector →
      isTruthy selector = true →
      Visits bindings depth whenTrue →
      Visits bindings (depth + 1) (.choice condition whenTrue whenFalse)
  | whenFalse
      {depth : Nat} {condition whenTrue whenFalse : Expr}
      {selector : Binary64} :
      condition.value bindings = .ok selector →
      isTruthy selector = false →
      Visits bindings depth whenFalse →
      Visits bindings (depth + 1) (.choice condition whenTrue whenFalse)
  | argument
      {depth : Nat} {name : String} {function : Function}
      {earlier later : List Expr} {argument : Expr} :
      Function.ofName? name = some function →
      (earlier ++ argument :: later).length = function.arity →
      (∀ tree ∈ earlier, HasValue bindings tree) →
      Visits bindings depth argument →
      Visits bindings (depth + 1)
        (.call name (earlier ++ argument :: later))

end IncentivePay.Formula
