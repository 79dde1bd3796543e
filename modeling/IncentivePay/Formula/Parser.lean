import IncentivePay.Formula.Grammar

/-!
# The parser as a machine

The grammar functions take tokens and a level as arguments.  A machine that
does the same keeps the tokens in one place, with a cursor that it moves and a
counter for the level that it raises and lowers.  Nothing forces it to lower
the counter as often as it was raised, to leave the tokens alone, or to end.

Each rule below is one action of that machine.  An action gives a value or a
syntax error together with the state it stops in.  Rules call each other with
no regard to the tokens that are left, and at most `limit` of them may be open
at a time: beyond that there is no answer at all, and a rule that never ends
has no answer under any limit.  The state also keeps a record of what the
machine looked at and of how it moved its counter.
-/

namespace IncentivePay.Formula

/--
What the machine did: a look at a place among the tokens, or a change of
level.
-/
inductive ParserEvent
  | looked (index : Nat)
  /-- The counter was raised to a level. -/
  | entered (depth : Nat)
  /-- The counter was lowered from a level. -/
  | left (depth : Nat)
deriving DecidableEq, Repr

/-- The state of the machine, with its latest event first. -/
structure Parser where
  tokens : List Located
  finish : Nat
  cursor : Nat
  depth : Nat
  events : List ParserEvent

/-- A step of the machine, which may fail, and may never end. -/
abbrev Parsing (Value : Type) :=
  ExceptT SyntaxError (StateT Parser Option) Value

namespace Parser

/-- The token at the cursor. -/
def peek : Parsing (Option Located) := do
  let parser ← get
  set { parser with events := .looked parser.cursor :: parser.events }
  return parser.tokens[parser.cursor]?

/-- The token at the cursor, which is moved behind it. -/
def advance : Parsing (Option Located) := do
  let next? ← peek
  if next?.isSome then
    modify fun parser => { parser with cursor := parser.cursor + 1 }
  return next?

/-- The token at the cursor is a given one. -/
def check (token : Token) : Parsing Bool := do
  let next? ← peek
  return next?.any fun next => next.token = token

/-- The position of the end. -/
def endPosition : Parsing Nat := do
  return (← get).finish

/-- The position of the token at the cursor, or of the end. -/
def currentPosition : Parsing Nat := do
  match ← peek with
  | some next => return next.position
  | none => endPosition

/-- Moves the cursor behind the next token, which has to be the wanted one. -/
def consume (wanted : Token) : Parsing Unit := do
  match ← advance with
  | some found =>
      if found.token = wanted then
        return ()
      else
        throw ⟨.unexpectedToken found.token (.token wanted), found.position⟩
  | none => throw ⟨.unexpectedEnd (.token wanted), ← endPosition⟩

/-- Raises the counter, and fails when it is too high then. -/
def enterLevel (position : Nat) : Parsing Unit := do
  let parser ← get
  let depth := parser.depth + 1
  set { parser with depth := depth, events := .entered depth :: parser.events }
  if maxNesting < depth then
    throw ⟨.tooDeep maxNesting, position⟩

/-- Lowers the counter. -/
def leaveLevel : Parsing Unit :=
  modify fun parser =>
    { parser with
      depth := parser.depth - 1
      events := .left parser.depth :: parser.events }

/-- No answer. -/
def stuck {Value : Type} : Parsing Value :=
  ExceptT.mk fun _ => none

mutual

/-- Reads a choice, or the comparison that stands in its place. -/
def choice : (limit : Nat) → Parsing Expr
  | 0 => stuck
  | limit + 1 => do
      let condition ← tier limit .comparison
      if ← check .question then
        let question? ← advance
        let finish ← endPosition
        enterLevel ((question?.map Located.position).getD finish)
        let whenTrue ← choice limit
        consume .colon
        let whenFalse ← choice limit
        leaveLevel
        return .choice condition whenTrue whenFalse
      else
        return condition

/-- Reads the operands of a tier with the operators between them. -/
def tier : (limit : Nat) → (level : Tier) → Parsing Expr
  | 0, _ => stuck
  | limit + 1, level => do
      let first ← operand limit level
      chain limit level first

/-- Reads one operand of a tier. -/
def operand : (limit : Nat) → (level : Tier) → Parsing Expr
  | 0, _ => stuck
  | limit + 1, .comparison => tier limit .sum
  | limit + 1, .sum => tier limit .product
  | limit + 1, .product => unary limit

/-- Continues a tier as long as one of its operators comes next. -/
def chain : (limit : Nat) → (level : Tier) → (left : Expr) → Parsing Expr
  | 0, _, _ => stuck
  | limit + 1, level, left => do
      let next? ← peek
      match next?.bind fun next => level.operator? next.token with
      | none => return left
      | some operator =>
          let _ ← advance
          let right ← operand limit level
          chain limit level (.binary operator left right)

/-- Reads a primary with at most one minus sign before it. -/
def unary : (limit : Nat) → Parsing Expr
  | 0 => stuck
  | limit + 1 => do
      if ← check (.operator .subtract) then
        let _ ← advance
        let positive ← primary limit
        return .negate positive
      else
        primary limit

/-- Reads a number, a variable, a call or a parenthesized group. -/
def primary : (limit : Nat) → Parsing Expr
  | 0 => stuck
  | limit + 1 => do
      match ← advance with
      | none => throw ⟨.unexpectedEnd .operand, ← endPosition⟩
      | some ⟨.number value, _⟩ => return .literal value
      | some ⟨.leftParen, position⟩ =>
          enterLevel position
          let inner ← choice limit
          consume .rightParen
          leaveLevel
          return inner
      | some ⟨.identifier name, position⟩ =>
          match Variable.ofName? name, Function.ofName? name with
          | some _, _ => return .reference name
          | none, some function => call limit function position
          | none, none =>
              if ← check .leftParen then
                throw ⟨.unknownFunction name, position⟩
              else
                throw ⟨.unknownIdentifier name, position⟩
      | some ⟨found, position⟩ =>
          throw ⟨.unexpectedToken found .operand, position⟩

/--
Reads the arguments of a call whose name, already read, stands at a position.
-/
def call :
    (limit : Nat) →
    (function : Function) →
    (position : Nat) →
    Parsing Expr
  | 0, _, _ => stuck
  | limit + 1, function, position => do
      if ← check .leftParen then
        let _ ← advance
        enterLevel position
        let given ← arguments limit
        let closing ← currentPosition
        consume .rightParen
        leaveLevel
        if given.length = function.arity then
          return .call function.name given
        else
          throw ⟨.wrongArgumentCount function given.length, closing⟩
      else
        throw ⟨.functionNotCalled function, position⟩

/-- Reads arguments up to, and without, the closing parenthesis. -/
def arguments : (limit : Nat) → Parsing (List Expr)
  | 0 => stuck
  | limit + 1 => do
      if ← check .rightParen then
        return []
      else
        let first ← choice limit
        let others ← otherArguments limit
        return first :: others

/-- Reads the arguments after the first one as long as a comma comes next. -/
def otherArguments : (limit : Nat) → Parsing (List Expr)
  | 0 => stuck
  | limit + 1 => do
      if ← check .comma then
        let _ ← advance
        let next ← choice limit
        let others ← otherArguments limit
        return next :: others
      else
        return []

end

/--
How an action goes from a state: its value or its error, and where it stops.
-/
def run
    {Value : Type}
    (parser : Parser)
    (action : Parsing Value) :
    Option (Except SyntaxError Value × Parser) :=
  StateT.run (ExceptT.run action) parser

end Parser

end IncentivePay.Formula
