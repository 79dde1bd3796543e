import IncentivePay.Binary64.Integral
import IncentivePay.Formula.Bindings
import IncentivePay.Formula.Expr

/-!
# Evaluating a formula tree

Operands and arguments are evaluated from left to right, and of a choice only
the selected branch: a condition selects the first branch when it is neither
zero nor a NaN.  The name of a call and the number of its arguments are
checked before any argument is evaluated.  Division by zero follows the
arithmetic of binary64 numbers and is no error.

A tree built by hand may be of any height, so no node deeper than
`maxDepth` levels below the root is evaluated.
-/

namespace IncentivePay.Formula

/-- Why a tree has no value. -/
inductive EvaluationError
  | variableNotAllowed (name : String)
  | unbound (name : String)
  | callNotAllowed (name : String)
  | wrongArgumentCount (function : Function) (found : Nat)
  | tooDeep (limit : Nat)
deriving DecidableEq

/-- The wording of an evaluation error. -/
def EvaluationError.message : EvaluationError → String
  | .variableNotAllowed name =>
      "Variable '" ++ name ++ "' is not allowed in formulas"
  | .unbound name => "Variable '" ++ name ++ "' has no value"
  | .callNotAllowed name => "Call to '" ++ name ++ "' is not allowed"
  | .wrongArgumentCount function found =>
      "Function '" ++ function.name ++ "' expects " ++
        toString function.arity ++ " argument(s), found " ++ toString found
  | .tooDeep limit =>
      "Formula evaluation exceeded maximum depth (" ++ toString limit ++ ")"

/-- The number of levels of a tree that are evaluated. -/
def maxDepth : Nat :=
  2000

/-- A condition holds when it is neither zero nor a NaN. -/
def isTruthy (value : Binary64) : Bool :=
  !value.isEqual .zero && !value.isNaN

/-- The result of an operator. -/
def Operator.apply
    (operator : Operator)
    (left right : Binary64) :
    Binary64 :=
  match operator with
  | .add => left.add right
  | .subtract => left.subtract right
  | .multiply => left.multiply right
  | .divide => left.divide right
  | .remainder => left.remainder right
  | .greater => .ofBool (right.isLess left)
  | .less => .ofBool (left.isLess right)
  | .greaterOrEqual => .ofBool (right.isAtMost left)
  | .lessOrEqual => .ofBool (left.isAtMost right)
  | .equal => .ofBool (left.isEqual right)
  | .notEqual => .ofBool (!left.isEqual right)

/-- The result of a function on as many arguments as it takes. -/
def Function.apply
    (function : Function)
    (arguments : List Binary64) :
    Binary64 :=
  match function, arguments with
  | .max, [left, right] => left.maxStrict right
  | .min, [left, right] => left.minStrict right
  | .round, [value] => value.roundHalfUp
  | _, _ => .nan

/-- The value of a variable by its written name. -/
def lookUp
    (bindings : Bindings)
    (name : String) :
    Except EvaluationError Binary64 :=
  match Variable.ofName? name with
  | none => .error (.variableNotAllowed name)
  | some quantity =>
      match bindings.value? quantity with
      | none => .error (.unbound name)
      | some value => .ok value

mutual

/-- The value of a node that stands so many levels below the root. -/
def evaluateAt
    (bindings : Bindings)
    (depth : Nat)
    (tree : Expr) :
    Except EvaluationError Binary64 :=
  if maxDepth ≤ depth then
    .error (.tooDeep maxDepth)
  else
    match tree with
    | .literal value => .ok value
    | .reference name => lookUp bindings name
    | .binary operator left right => do
        let leftValue ← evaluateAt bindings (depth + 1) left
        let rightValue ← evaluateAt bindings (depth + 1) right
        .ok (operator.apply leftValue rightValue)
    | .negate operand => do
        let value ← evaluateAt bindings (depth + 1) operand
        .ok value.negate
    | .choice condition whenTrue whenFalse => do
        let value ← evaluateAt bindings (depth + 1) condition
        if isTruthy value then
          evaluateAt bindings (depth + 1) whenTrue
        else
          evaluateAt bindings (depth + 1) whenFalse
    | .call name arguments =>
        match Function.ofName? name with
        | none => .error (.callNotAllowed name)
        | some function =>
            if arguments.length = function.arity then do
              let values ← evaluateAllAt bindings (depth + 1) arguments
              .ok (function.apply values)
            else
              .error (.wrongArgumentCount function arguments.length)

/-- The values of the arguments of a call, in their order. -/
def evaluateAllAt
    (bindings : Bindings)
    (depth : Nat)
    (arguments : List Expr) :
    Except EvaluationError (List Binary64) :=
  match arguments with
  | [] => .ok []
  | argument :: others => do
      let value ← evaluateAt bindings depth argument
      let values ← evaluateAllAt bindings depth others
      .ok (value :: values)

end

/-- The value of a tree. -/
def evaluate
    (tree : Expr)
    (bindings : Bindings) :
    Except EvaluationError Binary64 :=
  evaluateAt bindings 0 tree

end IncentivePay.Formula
