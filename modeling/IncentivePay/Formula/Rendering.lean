import IncentivePay.Formula.WellFormed

/-!
# What a rendering reads back as

A rendering puts parentheses around every binary node and every choice, and
around the operand of every negation.  `nesting` counts the levels that these
parentheses, the calls and the branches of the choices need.

A negative literal is written with its sign, and a sign before a numeral is
read as a negation; `withSignsOut` puts a negation of the positive literal in
the place of each such literal.
-/

namespace IncentivePay.Formula

/-- A number whose text starts with a sign. -/
def isSigned : Binary64 → Bool
  | .finite negative .. => negative
  | .infinite negative => negative
  | .nan => false

namespace Expr

mutual

/-- The levels that the rendering of a tree needs. -/
def nesting : Expr → Nat
  | .literal _ => 0
  | .reference _ => 0
  | .binary _ left right => max left.nesting right.nesting + 1
  | .negate operand => operand.nesting + 1
  | .choice condition whenTrue whenFalse =>
      max (condition.nesting + 1)
        (max whenTrue.nesting whenFalse.nesting + 2)
  | .call _ arguments => nestingOfAll arguments + 1

/-- The most levels that the rendering of a tree of a list needs. -/
def nestingOfAll : List Expr → Nat
  | [] => 0
  | tree :: trees => max tree.nesting (nestingOfAll trees)

end

mutual

/-- The tree with a negation in the place of the sign of every literal. -/
def withSignsOut : Expr → Expr
  | .literal value =>
      if isSigned value then .negate (.literal value.negate) else .literal value
  | .reference name => .reference name
  | .binary operator left right =>
      .binary operator left.withSignsOut right.withSignsOut
  | .negate operand => .negate operand.withSignsOut
  | .choice condition whenTrue whenFalse =>
      .choice condition.withSignsOut whenTrue.withSignsOut
        whenFalse.withSignsOut
  | .call name arguments => .call name (allWithSignsOut arguments)

/-- The trees of a list, each with its signs out. -/
def allWithSignsOut : List Expr → List Expr
  | [] => []
  | tree :: trees => tree.withSignsOut :: allWithSignsOut trees

end

end Expr

end IncentivePay.Formula
