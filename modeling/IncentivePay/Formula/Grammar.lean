import IncentivePay.Formula.Expr
import IncentivePay.Formula.Lexeme

/-!
# The grammar of formulas

```text
choice      := comparison ('?' choice ':' choice)?
comparison  := sum (('>' | '<' | '>=' | '<=' | '==' | '!=') sum)*
sum         := product (('+' | '-') product)*
product     := unary (('*' | '/' | '%') unary)*
unary       := '-'? primary
primary     := number | variable | call | '(' choice ')'
call        := function '(' (choice (',' choice)*)? ')'
```

The three tiers of binary operators associate to the left and a choice to the
right.  A function takes exactly its number of arguments.

A parenthesized group, the arguments of a call and the pair of branches of a
choice each stand one level deeper than what surrounds them, and no place may
be deeper than `maxNesting`.  Every function below takes the level it works at
and hands back what it read with the tokens after it, of which there are
fewer; that is why the recursion ends.
-/

namespace IncentivePay.Formula

/-- The most characters that a formula may have. -/
def maxLength : Nat :=
  2000

/-- The deepest level that a formula may reach. -/
def maxNesting : Nat :=
  50

/-- What a grammar function read, and the tokens after it. -/
structure Parsed (Value : Type) (bound : Nat) where
  value : Value
  rest : List Located
  shorter : rest.length < bound

/-- The level below another, unless it is too deep. -/
def enter
    (depth position : Nat) :
    Except SyntaxError Nat :=
  if depth < maxNesting then
    .ok (depth + 1)
  else
    .error ⟨.tooDeep maxNesting, position⟩

/-- Takes one token off the tokens, which has to be the wanted one. -/
def expect
    (finish : Nat)
    (wanted : Token)
    (tokens : List Located) :
    Except SyntaxError (Parsed Unit tokens.length) :=
  match tokens with
  | [] => .error ⟨.unexpectedEnd (.token wanted), finish⟩
  | found :: rest =>
      if found.token = wanted then
        .ok ⟨(), rest, by simp⟩
      else
        .error ⟨.unexpectedToken found.token (.token wanted), found.position⟩

/-- The next token is a given one. -/
def comesNext
    (token : Token)
    (tokens : List Located) :
    Bool :=
  tokens.head?.any fun next => next.token = token

/-- The position of the next token, or of the end. -/
def nextPosition
    (finish : Nat)
    (tokens : List Located) :
    Nat :=
  match tokens with
  | [] => finish
  | next :: _ => next.position

/-- A tier of binary operators that bind equally. -/
inductive Tier
  | comparison
  | sum
  | product
deriving DecidableEq, Repr

namespace Tier

/-- The tier to which an operator belongs. -/
def ofOperator : Operator → Tier
  | .add | .subtract => .sum
  | .multiply | .divide | .remainder => .product
  | .greater | .less | .greaterOrEqual | .lessOrEqual | .equal
  | .notEqual => .comparison

/-- The operator of this tier that a token denotes. -/
def operator?
    (tier : Tier) :
    Token →
    Option Operator
  | .operator mark => if ofOperator mark = tier then some mark else none
  | _ => none

/-- The looser a tier, the larger its rank. -/
@[simp]
def rank : Tier → Nat
  | .comparison => 3
  | .sum => 2
  | .product => 1

end Tier

mutual

/-- Reads a choice, or the comparison that stands in its place. -/
def parseChoice
    (finish depth : Nat)
    (tokens : List Located) :
    Except SyntaxError (Parsed Expr tokens.length) := do
  let condition ← parseTier finish depth .comparison tokens
  match shape : condition.rest with
  | ⟨.question, position⟩ :: afterQuestion =>
      have fewer : afterQuestion.length < tokens.length := by
        have shorter := condition.shorter
        simp only [shape, List.length_cons] at shorter
        omega
      let inner ← enter depth position
      let whenTrue ← parseChoice finish inner afterQuestion
      let colon ← expect finish .colon whenTrue.rest
      have stillFewer : colon.rest.length < tokens.length := by
        have first := whenTrue.shorter
        have second := colon.shorter
        omega
      let whenFalse ← parseChoice finish inner colon.rest
      .ok
        ⟨.choice condition.value whenTrue.value whenFalse.value,
          whenFalse.rest,
          Nat.lt_trans whenFalse.shorter stillFewer⟩
  | _ => .ok condition
termination_by (tokens.length, 8)

/-- Reads the operands of a tier with the operators between them. -/
def parseTier
    (finish depth : Nat)
    (tier : Tier)
    (tokens : List Located) :
    Except SyntaxError (Parsed Expr tokens.length) := do
  let first ← parseOperand finish depth tier tokens
  have fewer := first.shorter
  let whole ← parseChain finish depth tier first.value first.rest
  .ok
    ⟨whole.value, whole.rest,
      Nat.lt_of_lt_of_le whole.shorter fewer⟩
termination_by (tokens.length, 2 * tier.rank + 1)

/-- Reads one operand of a tier. -/
def parseOperand
    (finish depth : Nat)
    (tier : Tier)
    (tokens : List Located) :
    Except SyntaxError (Parsed Expr tokens.length) :=
  match tier with
  | .comparison => parseTier finish depth .sum tokens
  | .sum => parseTier finish depth .product tokens
  | .product => parseUnary finish depth tokens
termination_by (tokens.length, 2 * tier.rank)

/-- Continues a tier after its first operands, which are already one tree. -/
def parseChain
    (finish depth : Nat)
    (tier : Tier)
    (left : Expr)
    (tokens : List Located) :
    Except SyntaxError (Parsed Expr (tokens.length + 1)) :=
  match tokens with
  | [] => .ok ⟨left, [], by simp⟩
  | mark :: afterMark =>
      match tier.operator? mark.token with
      | none => .ok ⟨left, mark :: afterMark, by simp⟩
      | some operator => do
          let right ← parseOperand finish depth tier afterMark
          have fewer := right.shorter
          let whole ←
            parseChain finish depth tier
              (.binary operator left right.value) right.rest
          .ok
            ⟨whole.value, whole.rest, by
              have bound := whole.shorter
              simp only [List.length_cons]
              omega⟩
termination_by (tokens.length, 0)

/-- Reads a primary with at most one minus sign before it. -/
def parseUnary
    (finish depth : Nat)
    (tokens : List Located) :
    Except SyntaxError (Parsed Expr tokens.length) :=
  match tokens with
  | ⟨.operator .subtract, _⟩ :: afterSign => do
      let operand ← parsePrimary finish depth afterSign
      .ok
        ⟨.negate operand.value, operand.rest,
          Nat.lt_succ_of_lt operand.shorter⟩
  | other => parsePrimary finish depth other
termination_by (tokens.length, 1)

/-- Reads a number, a variable, a call or a parenthesized group. -/
def parsePrimary
    (finish depth : Nat)
    (tokens : List Located) :
    Except SyntaxError (Parsed Expr tokens.length) :=
  match tokens with
  | [] => .error ⟨.unexpectedEnd .operand, finish⟩
  | ⟨.number value, _⟩ :: rest => .ok ⟨.literal value, rest, by simp⟩
  | ⟨.leftParen, position⟩ :: rest => do
      let inner ← enter depth position
      let body ← parseChoice finish inner rest
      let closing ← expect finish .rightParen body.rest
      .ok
        ⟨body.value, closing.rest,
          Nat.lt_succ_of_lt (Nat.lt_trans closing.shorter body.shorter)⟩
  | ⟨.identifier name, position⟩ :: rest =>
      match Variable.ofName? name, Function.ofName? name with
      | some _, _ => .ok ⟨.reference name, rest, by simp⟩
      | none, some function => do
          let call ← parseCall finish depth function position rest
          .ok ⟨call.value, call.rest, Nat.lt_succ_of_lt call.shorter⟩
      | none, none =>
          if comesNext .leftParen rest then
            .error ⟨.unknownFunction name, position⟩
          else
            .error ⟨.unknownIdentifier name, position⟩
  | ⟨found, position⟩ :: _ =>
      .error ⟨.unexpectedToken found .operand, position⟩
termination_by (tokens.length, 0)

/-- Reads the arguments of a call whose name stands at a position. -/
def parseCall
    (finish depth : Nat)
    (function : Function)
    (position : Nat)
    (tokens : List Located) :
    Except SyntaxError (Parsed Expr tokens.length) :=
  match tokens with
  | ⟨.leftParen, _⟩ :: rest => do
      let inner ← enter depth position
      let arguments ← parseArguments finish inner rest
      let closing ← expect finish .rightParen arguments.rest
      if arguments.value.length = function.arity then
        .ok
          ⟨.call function.name arguments.value, closing.rest, by
            have first := arguments.shorter
            have second := closing.shorter
            simp only [List.length_cons]
            omega⟩
      else
        .error
          ⟨.wrongArgumentCount function arguments.value.length,
            nextPosition finish arguments.rest⟩
  | _ => .error ⟨.functionNotCalled function, position⟩
termination_by (tokens.length, 0)

/-- Reads arguments up to, and without, the closing parenthesis. -/
def parseArguments
    (finish depth : Nat)
    (tokens : List Located) :
    Except SyntaxError (Parsed (List Expr) (tokens.length + 1)) :=
  if comesNext .rightParen tokens then
    .ok ⟨[], tokens, by simp⟩
  else do
    let first ← parseChoice finish depth tokens
    have fewer := first.shorter
    let others ← parseOtherArguments finish depth first.rest
    .ok
      ⟨first.value :: others.value, others.rest, by
        have bound := others.shorter
        omega⟩
termination_by (tokens.length, 9)

/-- Reads the arguments after the first one, each behind its comma. -/
def parseOtherArguments
    (finish depth : Nat)
    (tokens : List Located) :
    Except SyntaxError (Parsed (List Expr) (tokens.length + 1)) :=
  match tokens with
  | ⟨.comma, _⟩ :: rest => do
      let next ← parseChoice finish depth rest
      have fewer := next.shorter
      let others ← parseOtherArguments finish depth next.rest
      .ok
        ⟨next.value :: others.value, others.rest, by
          have bound := others.shorter
          simp only [List.length_cons]
          omega⟩
  | other => .ok ⟨[], other, by simp⟩
termination_by (tokens.length, 0)

end

/-- Reads a formula from all the tokens of a text that ends at a position. -/
def parseTokens
    (finish : Nat)
    (tokens : List Located) :
    Except SyntaxError Expr := do
  let whole ← parseChoice finish 0 tokens
  match whole.rest with
  | [] => .ok whole.value
  | ⟨found, position⟩ :: _ => .error ⟨.trailingInput found, position⟩

/--
The position of the first parenthesis that opens a level too deep, counting
parentheses alone; a closing one without an opening one is passed over.
-/
def overNested?
    (depth position : Nat) :
    List Char →
    Option Nat
  | [] => none
  | character :: rest =>
      if character = '(' then
        if depth < maxNesting then
          overNested? (depth + 1) (position + 1) rest
        else
          some position
      else if character = ')' then
        overNested? (depth - 1) (position + 1) rest
      else
        overNested? depth (position + 1) rest

/-- The bounds on a text that are checked before it is read. -/
def checkBounds (text : String) : Except SyntaxError Unit :=
  if maxLength < text.length then
    .error ⟨.tooLong text.length maxLength, maxLength⟩
  else if isBlankText text then
    .error ⟨.empty, 0⟩
  else
    match overNested? 0 0 text.toList with
    | some position => .error ⟨.tooDeep maxNesting, position⟩
    | none => .ok ()

/-- The tree of a formula text. -/
def parse (text : String) : Except SyntaxError Expr := do
  checkBounds text
  let tokens ← tokenize text
  parseTokens text.length tokens

end IncentivePay.Formula
