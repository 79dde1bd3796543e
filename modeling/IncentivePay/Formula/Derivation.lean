import IncentivePay.Formula.Grammar

/-!
# Derivations

`Derives phrase room tokens tree` says that a whole list of tokens is a phrase
of the grammar with a tree, and that it nests at most `room` levels deep.
A parenthesized group, the arguments of a call and the pair of branches of a
choice each need one level; the condition of a choice needs none.

The tiers of binary operators associate to the left because the left operand
of an operator is of the same tier and the right one is tighter.  A call may
have any number of arguments here; whether it has the right number is a
property of its tree.
-/

namespace IncentivePay.Formula

/-- The kinds of phrases that stand for one tree. -/
inductive Phrase
  | choice
  | tier (tier : Tier)
  | unary
  | primary
deriving DecidableEq, Repr

/-- The phrases between which the operators of a tier stand. -/
def Tier.operand : Tier → Phrase
  | .comparison => .tier .sum
  | .sum => .tier .product
  | .product => .unary

mutual

/-- A list of tokens is a phrase with a tree, nested within some room. -/
inductive Derives : Phrase → Nat → List Token → Expr → Prop
  | plain
      {room : Nat} {tokens : List Token} {tree : Expr} :
      Derives (.tier .comparison) room tokens tree →
      Derives .choice room tokens tree
  | choice
      {room : Nat}
      {conditionTokens trueTokens falseTokens : List Token}
      {condition whenTrue whenFalse : Expr} :
      Derives (.tier .comparison) (room + 1) conditionTokens condition →
      Derives .choice room trueTokens whenTrue →
      Derives .choice room falseTokens whenFalse →
      Derives .choice (room + 1)
        (conditionTokens ++ .question :: trueTokens ++ .colon :: falseTokens)
        (.choice condition whenTrue whenFalse)
  | operand
      {tier : Tier} {room : Nat} {tokens : List Token} {tree : Expr} :
      Derives tier.operand room tokens tree →
      Derives (.tier tier) room tokens tree
  | binary
      {operator : Operator} {room : Nat}
      {leftTokens rightTokens : List Token}
      {left right : Expr} :
      Derives (.tier (Tier.ofOperator operator)) room leftTokens left →
      Derives (Tier.ofOperator operator).operand room rightTokens right →
      Derives (.tier (Tier.ofOperator operator)) room
        (leftTokens ++ .operator operator :: rightTokens)
        (.binary operator left right)
  | unsigned
      {room : Nat} {tokens : List Token} {tree : Expr} :
      Derives .primary room tokens tree →
      Derives .unary room tokens tree
  | negated
      {room : Nat} {tokens : List Token} {tree : Expr} :
      Derives .primary room tokens tree →
      Derives .unary room (.operator .subtract :: tokens) (.negate tree)
  | literal
      {room : Nat} {value : Binary64} :
      Derives .primary room [.number value] (.literal value)
  | reference
      {room : Nat} {quantity : Variable} :
      Derives .primary room [.identifier quantity.name]
        (.reference quantity.name)
  | group
      {room : Nat} {tokens : List Token} {tree : Expr} :
      Derives .choice room tokens tree →
      Derives .primary (room + 1) (.leftParen :: tokens ++ [.rightParen]) tree
  | call
      {room : Nat} {function : Function}
      {tokens : List Token} {arguments : List Expr} :
      DerivesArguments room tokens arguments →
      Derives .primary (room + 1)
        (.identifier function.name :: .leftParen :: tokens ++ [.rightParen])
        (.call function.name arguments)

/-- A list of tokens holds the arguments of a call, commas between them. -/
inductive DerivesArguments : Nat → List Token → List Expr → Prop
  | none
      {room : Nat} :
      DerivesArguments room [] []
  | one
      {room : Nat} {tokens : List Token} {tree : Expr} :
      Derives .choice room tokens tree →
      DerivesArguments room tokens [tree]
  | more
      {room : Nat} {tokens otherTokens : List Token}
      {tree next : Expr} {others : List Expr} :
      Derives .choice room tokens tree →
      DerivesArguments room otherTokens (next :: others) →
      DerivesArguments room (tokens ++ .comma :: otherTokens)
        (tree :: next :: others)

end

/-- A list of tokens is a formula, when neither nesting nor arguments count. -/
def IsFormula (tokens : List Token) : Prop :=
  ∃ room tree, Derives .choice room tokens tree

/-- Some formula starts with a list of tokens. -/
def IsViable (tokens : List Token) : Prop :=
  ∃ others, IsFormula (tokens ++ others)

end IncentivePay.Formula
