import IncentivePay.Formula.Derivation

/-!
# The steps of the grammar functions

The grammar functions hand back a proof that tokens were consumed, which their
recursion needs and their meaning does not.  `read` forgets it, and is one
function for all the phrases that stand for one tree.  The equations below say
what each grammar function does in terms of the others; nothing after this
module opens a grammar function again.
-/

namespace IncentivePay.Formula

/--
What was read and the tokens after it, without the proof that they are fewer.
-/
def outcome
    {Value : Type}
    {bound : Nat}
    (result : Except SyntaxError (Parsed Value bound)) :
    Except SyntaxError (Value × List Located) :=
  result.map fun parsed => (parsed.value, parsed.rest)

@[simp]
theorem outcome_ok
    {Value : Type}
    {bound : Nat}
    (parsed : Parsed Value bound) :
    outcome (.ok parsed) = .ok (parsed.value, parsed.rest) :=
  rfl

@[simp]
theorem outcome_error
    {Value : Type}
    {bound : Nat}
    (error : SyntaxError) :
    outcome (.error error : Except SyntaxError (Parsed Value bound)) =
      .error error :=
  rfl

/-- Whatever was read, fewer tokens are left. -/
theorem length_lt_of_outcome
    {Value : Type}
    {bound : Nat}
    {result : Except SyntaxError (Parsed Value bound)}
    {value : Value}
    {rest : List Located}
    (succeeds : outcome result = .ok (value, rest)) :
    rest.length < bound := by
  cases result with
  | error error => simp at succeeds
  | ok parsed =>
      simp only [outcome_ok, Except.ok.injEq, Prod.mk.injEq] at succeeds
      exact succeeds.2 ▸ parsed.shorter

/-- Reads a phrase from the start of the tokens. -/
def read
    (finish depth : Nat)
    (phrase : Phrase)
    (tokens : List Located) :
    Except SyntaxError (Expr × List Located) :=
  match phrase with
  | .choice => outcome (parseChoice finish depth tokens)
  | .tier tier => outcome (parseTier finish depth tier tokens)
  | .unary => outcome (parseUnary finish depth tokens)
  | .primary => outcome (parsePrimary finish depth tokens)

/-- Continues a tier whose first operands are already one tree. -/
def readChain
    (finish depth : Nat)
    (tier : Tier)
    (left : Expr)
    (tokens : List Located) :
    Except SyntaxError (Expr × List Located) :=
  outcome (parseChain finish depth tier left tokens)

/-- Reads a call after its name. -/
def readCall
    (finish depth : Nat)
    (function : Function)
    (position : Nat)
    (tokens : List Located) :
    Except SyntaxError (Expr × List Located) :=
  outcome (parseCall finish depth function position tokens)

/-- Reads the arguments of a call. -/
def readArguments
    (finish depth : Nat)
    (tokens : List Located) :
    Except SyntaxError (List Expr × List Located) :=
  outcome (parseArguments finish depth tokens)

/-- Reads the arguments after the first one. -/
def readOtherArguments
    (finish depth : Nat)
    (tokens : List Located) :
    Except SyntaxError (List Expr × List Located) :=
  outcome (parseOtherArguments finish depth tokens)

/-- The tokens after one that has to come first. -/
def skip
    (finish : Nat)
    (wanted : Token)
    (tokens : List Located) :
    Except SyntaxError (List Located) :=
  (expect finish wanted tokens).map Parsed.rest

theorem length_lt_of_read
    {finish depth : Nat}
    {phrase : Phrase}
    {tokens rest : List Located}
    {tree : Expr}
    (succeeds : read finish depth phrase tokens = .ok (tree, rest)) :
    rest.length < tokens.length := by
  cases phrase <;> exact length_lt_of_outcome succeeds

/-! ## Single tokens -/

/-- A token that comes next is the first one. -/
theorem exists_of_comesNext
    {token : Token}
    {tokens : List Located}
    (next : comesNext token tokens = true) :
    ∃ position rest, tokens = ⟨token, position⟩ :: rest := by
  cases tokens with
  | nil => simp [comesNext] at next
  | cons found rest =>
      obtain ⟨_, position⟩ := found
      obtain rfl : _ = token := by simpa [comesNext] using next
      exact ⟨position, rest, rfl⟩

@[simp]
theorem skip_cons_same
    (finish position : Nat)
    (wanted : Token)
    (rest : List Located) :
    skip finish wanted (⟨wanted, position⟩ :: rest) = .ok rest := by
  simp [skip, expect, Except.map]

/-- A token was skipped only if it was there. -/
theorem eq_cons_of_skip
    {finish : Nat}
    {wanted : Token}
    {tokens rest : List Located}
    (succeeds : skip finish wanted tokens = .ok rest) :
    ∃ position, tokens = ⟨wanted, position⟩ :: rest := by
  cases tokens with
  | nil => simp [skip, expect, Except.map] at succeeds
  | cons found others =>
      obtain ⟨token, position⟩ := found
      by_cases wantedOne : token = wanted
      · subst wantedOne
        simp only [skip_cons_same, Except.ok.injEq] at succeeds
        exact ⟨position, by rw [succeeds]⟩
      · simp [skip, expect, Except.map, wantedOne] at succeeds

/-- A token was not skipped because there was none or another one. -/
theorem skip_eq_error
    {finish : Nat}
    {wanted : Token}
    {tokens : List Located}
    {error : SyntaxError}
    (fails : skip finish wanted tokens = .error error) :
    (tokens = [] ∧ error = ⟨.unexpectedEnd (.token wanted), finish⟩) ∨
      ∃ found others,
        tokens = found :: others ∧
          found.token ≠ wanted ∧
          error =
            ⟨.unexpectedToken found.token (.token wanted), found.position⟩ := by
  cases tokens with
  | nil =>
      simp only [skip, expect, Except.map, Except.error.injEq] at fails
      exact .inl ⟨rfl, fails.symm⟩
  | cons found others =>
      by_cases wantedOne : found.token = wanted
      · simp [skip, expect, Except.map, wantedOne] at fails
      · simp only [skip, expect, wantedOne, if_false, Except.map,
          Except.error.injEq] at fails
        exact .inr ⟨found, others, rfl, wantedOne, fails.symm⟩

theorem enter_of_lt
    {depth : Nat}
    (room : depth < maxNesting)
    (position : Nat) :
    enter depth position = .ok (depth + 1) := by
  simp [enter, room]

theorem enter_of_le
    {depth : Nat}
    (full : maxNesting ≤ depth)
    (position : Nat) :
    enter depth position = .error ⟨.tooDeep maxNesting, position⟩ := by
  simp [enter, Nat.not_lt.2 full]

theorem of_enter
    {depth position inner : Nat}
    (succeeds : enter depth position = .ok inner) :
    inner = depth + 1 ∧ inner ≤ maxNesting := by
  unfold enter at succeeds
  split at succeeds
  · simp only [Except.ok.injEq] at succeeds
    omega
  · simp at succeeds

theorem enter_eq_error
    {depth position : Nat}
    {error : SyntaxError}
    (fails : enter depth position = .error error) :
    error = ⟨.tooDeep maxNesting, position⟩ := by
  unfold enter at fails
  split at fails
  · simp at fails
  · exact (Except.error.inj fails).symm

/-- A sequence succeeds when its parts do. -/
theorem exists_of_bind
    {Value Result : Type}
    {first : Except SyntaxError Value}
    {next : Value → Except SyntaxError Result}
    {result : Result}
    (succeeds : first >>= next = .ok result) :
    ∃ value, first = .ok value ∧ next value = .ok result := by
  cases first with
  | error error => simp [bind, Except.bind] at succeeds
  | ok value => exact ⟨value, rfl, succeeds⟩

/-- A sequence fails in its first part, or in what follows the value of that. -/
theorem error_of_bind
    {Value Result : Type}
    {first : Except SyntaxError Value}
    {next : Value → Except SyntaxError Result}
    {error : SyntaxError}
    (fails : first >>= next = .error error) :
    first = .error error ∨
      ∃ value, first = .ok value ∧ next value = .error error := by
  cases first with
  | error other =>
      exact .inl (congrArg _ (Except.error.inj fails))
  | ok value => exact .inr ⟨value, rfl, fails⟩

/-- A sequence that ends by handing something back fails in its first part. -/
theorem error_of_bind_ok
    {Value Result : Type}
    {first : Except SyntaxError Value}
    {next : Value → Result}
    {error : SyntaxError}
    (fails : (first >>= fun value => .ok (next value)) = .error error) :
    first = .error error := by
  rcases error_of_bind fails with firstFails | ⟨value, -, impossible⟩
  · exact firstFails
  · contradiction

/-! ## One equation for each grammar function -/

theorem read_choice
    (finish depth : Nat)
    (tokens : List Located) :
    read finish depth .choice tokens = (do
      let condition ← read finish depth (.tier .comparison) tokens
      match condition.2 with
      | ⟨.question, position⟩ :: afterQuestion => do
          let inner ← enter depth position
          let whenTrue ← read finish inner .choice afterQuestion
          let afterColon ← skip finish .colon whenTrue.2
          let whenFalse ← read finish inner .choice afterColon
          .ok (.choice condition.1 whenTrue.1 whenFalse.1, whenFalse.2)
      | rest => .ok (condition.1, rest)) := by
  simp only [read]
  rw [parseChoice]
  cases parseTier finish depth .comparison tokens with
  | error error => rfl
  | ok condition =>
    obtain ⟨tree, rest, shorter⟩ := condition
    simp only [outcome_ok, bind, Except.bind]
    split
    · rename_i position afterQuestion
      dsimp only
      cases enter depth position with
      | error error => rfl
      | ok inner =>
        dsimp only
        cases parseChoice finish inner afterQuestion with
        | error error => rfl
        | ok whenTrue =>
          simp only [outcome_ok, skip]
          cases expect finish .colon whenTrue.rest with
          | error error => rfl
          | ok colon =>
            simp only [Except.map]
            cases parseChoice finish inner colon.rest <;> rfl
    · rename_i other
      split
      · rename_i position afterQuestion
        exact (other position afterQuestion rfl).elim
      · rfl

theorem outcome_parseOperand
    (finish depth : Nat)
    (tier : Tier)
    (tokens : List Located) :
    outcome (parseOperand finish depth tier tokens) =
      read finish depth tier.operand tokens := by
  cases tier <;> rw [parseOperand] <;> rfl

/-- A tier is its first operand and what continues it. -/
theorem read_tier
    (finish depth : Nat)
    (tier : Tier)
    (tokens : List Located) :
    read finish depth (.tier tier) tokens = (do
      let first ← read finish depth tier.operand tokens
      readChain finish depth tier first.1 first.2) := by
  rw [← outcome_parseOperand]
  simp only [read, readChain]
  rw [parseTier]
  cases parseOperand finish depth tier tokens with
  | error error => rfl
  | ok first =>
    simp only [outcome_ok, bind, Except.bind]
    cases parseChain finish depth tier first.value first.rest <;> rfl

theorem ofOperator_of_operator?
    {tier : Tier}
    {token : Token}
    {operator : Operator}
    (own : tier.operator? token = some operator) :
    token = .operator operator ∧ Tier.ofOperator operator = tier := by
  cases token with
  | operator mark =>
      simp only [Tier.operator?] at own
      split at own
      · rename_i same
        simp only [Option.some.injEq] at own
        subst own
        exact ⟨rfl, same⟩
      · simp at own
  | _ => simp [Tier.operator?] at own

@[simp]
theorem readChain_nil
    (finish depth : Nat)
    (tier : Tier)
    (left : Expr) :
    readChain finish depth tier left [] = .ok (left, []) := by
  rw [readChain, parseChain]
  rfl

/-- A tier ends before a token that is none of its operators. -/
theorem readChain_of_none
    {tier : Tier}
    {mark : Located}
    (foreign : tier.operator? mark.token = none)
    (finish depth : Nat)
    (left : Expr)
    (afterMark : List Located) :
    readChain finish depth tier left (mark :: afterMark) =
      .ok (left, mark :: afterMark) := by
  rw [readChain, parseChain]
  simp only [foreign]
  rfl

/-- After one of its operators, a tier goes on with a further operand. -/
theorem readChain_of_some
    {tier : Tier}
    {mark : Located}
    {operator : Operator}
    (own : tier.operator? mark.token = some operator)
    (finish depth : Nat)
    (left : Expr)
    (afterMark : List Located) :
    readChain finish depth tier left (mark :: afterMark) = (do
      let right ← read finish depth tier.operand afterMark
      readChain finish depth tier (.binary operator left right.1) right.2) := by
  rw [← outcome_parseOperand]
  simp only [readChain]
  rw [parseChain]
  simp only [own]
  cases parseOperand finish depth tier afterMark with
  | error error => rfl
  | ok right =>
    simp only [outcome_ok, bind, Except.bind]
    cases parseChain finish depth tier
      (.binary operator left right.value) right.rest <;> rfl

theorem read_unary_minus
    (finish depth position : Nat)
    (afterSign : List Located) :
    read finish depth .unary (⟨.operator .subtract, position⟩ :: afterSign) =
      (do
        let operand ← read finish depth .primary afterSign
        .ok (.negate operand.1, operand.2)) := by
  simp only [read]
  rw [parseUnary]
  cases parsePrimary finish depth afterSign <;> rfl

theorem read_unary_other
    {tokens : List Located}
    (unsigned : comesNext (.operator .subtract) tokens = false)
    (finish depth : Nat) :
    read finish depth .unary tokens = read finish depth .primary tokens := by
  simp only [read]
  rw [parseUnary.eq_def]
  split
  · simp [comesNext] at unsigned
  · rfl

theorem read_primary_number
    (finish depth position : Nat)
    (value : Binary64)
    (rest : List Located) :
    read finish depth .primary (⟨.number value, position⟩ :: rest) =
      .ok (.literal value, rest) := by
  simp only [read]
  rw [parsePrimary]
  rfl

theorem read_primary_group
    (finish depth position : Nat)
    (tokens : List Located) :
    read finish depth .primary (⟨.leftParen, position⟩ :: tokens) = (do
      let inner ← enter depth position
      let body ← read finish inner .choice tokens
      let afterBody ← skip finish .rightParen body.2
      .ok (body.1, afterBody)) := by
  simp only [read]
  rw [parsePrimary]
  cases enter depth position with
  | error error => rfl
  | ok inner =>
    simp only [bind, Except.bind]
    cases parseChoice finish inner tokens with
    | error error => rfl
    | ok body =>
      simp only [outcome_ok, skip]
      cases expect finish .rightParen body.rest <;> rfl

theorem read_primary_variable
    {name : String}
    {quantity : Variable}
    (known : Variable.ofName? name = some quantity)
    (finish depth position : Nat)
    (rest : List Located) :
    read finish depth .primary (⟨.identifier name, position⟩ :: rest) =
      .ok (.reference name, rest) := by
  simp only [read]
  rw [parsePrimary]
  simp only [known]
  rfl

theorem read_primary_function
    {name : String}
    {function : Function}
    (notVariable : Variable.ofName? name = none)
    (known : Function.ofName? name = some function)
    (finish depth position : Nat)
    (tokens : List Located) :
    read finish depth .primary (⟨.identifier name, position⟩ :: tokens) =
      readCall finish depth function position tokens := by
  simp only [read, readCall]
  rw [parsePrimary]
  simp only [notVariable, known]
  cases parseCall finish depth function position tokens <;> rfl

theorem readCall_of_leftParen
    (finish depth : Nat)
    (function : Function)
    (position parenPosition : Nat)
    (tokens : List Located) :
    readCall finish depth function position
        (⟨.leftParen, parenPosition⟩ :: tokens) = (do
      let inner ← enter depth position
      let arguments ← readArguments finish inner tokens
      let afterCall ← skip finish .rightParen arguments.2
      if arguments.1.length = function.arity then
        .ok (.call function.name arguments.1, afterCall)
      else
        .error
          ⟨.wrongArgumentCount function arguments.1.length,
            nextPosition finish arguments.2⟩) := by
  simp only [readCall, readArguments]
  rw [parseCall]
  cases enter depth position with
  | error error => rfl
  | ok inner =>
    simp only [bind, Except.bind]
    cases parseArguments finish inner tokens with
    | error error => rfl
    | ok arguments =>
      simp only [outcome_ok, skip]
      cases expect finish .rightParen arguments.rest with
      | error error => rfl
      | ok closing =>
        simp only [Except.map]
        by_cases complete : arguments.value.length = function.arity
        · simp only [complete, if_true]
          rfl
        · simp only [complete, if_false]
          rfl

theorem readCall_of_other
    {tokens : List Located}
    (uncalled : comesNext .leftParen tokens = false)
    (finish depth : Nat)
    (function : Function)
    (position : Nat) :
    readCall finish depth function position tokens =
      .error ⟨.functionNotCalled function, position⟩ := by
  rw [readCall, parseCall.eq_def]
  split
  · simp [comesNext] at uncalled
  · rfl

/--
A function name, its parenthesis, the arguments and the closing parenthesis.
-/
theorem read_primary_call
    {name : String}
    {function : Function}
    (notVariable : Variable.ofName? name = none)
    (known : Function.ofName? name = some function)
    (finish depth position parenPosition : Nat)
    (tokens : List Located) :
    read finish depth .primary
        (⟨.identifier name, position⟩ :: ⟨.leftParen, parenPosition⟩ ::
          tokens) = (do
      let inner ← enter depth position
      let arguments ← readArguments finish inner tokens
      let afterCall ← skip finish .rightParen arguments.2
      if arguments.1.length = function.arity then
        .ok (.call function.name arguments.1, afterCall)
      else
        .error
          ⟨.wrongArgumentCount function arguments.1.length,
            nextPosition finish arguments.2⟩) := by
  rw [read_primary_function notVariable known, readCall_of_leftParen]

/-! ## What no primary starts with -/

/-- A token with which a primary may start, if its name is known. -/
def Token.startsPrimary : Token → Bool
  | .number _ => true
  | .identifier _ => true
  | .leftParen => true
  | _ => false

theorem read_primary_nil (finish depth : Nat) :
    read finish depth .primary [] =
      .error ⟨.unexpectedEnd .operand, finish⟩ := by
  simp [read, parsePrimary]

theorem read_primary_other
    {token : Token}
    (startsNone : token.startsPrimary = false)
    (finish depth position : Nat)
    (rest : List Located) :
    read finish depth .primary (⟨token, position⟩ :: rest) =
      .error ⟨.unexpectedToken token .operand, position⟩ := by
  cases token <;> simp_all [Token.startsPrimary, read, parsePrimary]

theorem read_primary_unknown
    {name : String}
    (notVariable : Variable.ofName? name = none)
    (notFunction : Function.ofName? name = none)
    (finish depth position : Nat)
    (rest : List Located) :
    read finish depth .primary (⟨.identifier name, position⟩ :: rest) =
      .error
        ⟨if comesNext .leftParen rest then .unknownFunction name
          else .unknownIdentifier name, position⟩ := by
  simp only [read]
  rw [parsePrimary]
  simp only [notVariable, notFunction]
  split <;> rfl

theorem read_primary_uncalled
    {name : String}
    {function : Function}
    (notVariable : Variable.ofName? name = none)
    (known : Function.ofName? name = some function)
    {rest : List Located}
    (uncalled : comesNext .leftParen rest = false)
    (finish depth position : Nat) :
    read finish depth .primary (⟨.identifier name, position⟩ :: rest) =
      .error ⟨.functionNotCalled function, position⟩ := by
  rw [read_primary_function notVariable known, readCall_of_other uncalled]

/-! ## Primaries -/

/-- What a primary can be. -/
inductive PrimaryStep
    (finish depth : Nat) :
    List Located → Expr → List Located → Prop
  | number {position : Nat} {value : Binary64} {rest : List Located} :
      PrimaryStep finish depth (⟨.number value, position⟩ :: rest)
        (.literal value) rest
  | reference {position : Nat} {quantity : Variable} {rest : List Located} :
      PrimaryStep finish depth (⟨.identifier quantity.name, position⟩ :: rest)
        (.reference quantity.name) rest
  | group
      {position inner : Nat}
      {tokens afterBody rest : List Located}
      {tree : Expr} :
      enter depth position = .ok inner →
      read finish inner .choice tokens = .ok (tree, afterBody) →
      skip finish .rightParen afterBody = .ok rest →
      PrimaryStep finish depth (⟨.leftParen, position⟩ :: tokens) tree rest
  | call
      {position parenPosition inner : Nat}
      {function : Function}
      {tokens afterArguments rest : List Located}
      {arguments : List Expr} :
      enter depth position = .ok inner →
      readArguments finish inner tokens = .ok (arguments, afterArguments) →
      skip finish .rightParen afterArguments = .ok rest →
      arguments.length = function.arity →
      PrimaryStep finish depth
        (⟨.identifier function.name, position⟩ ::
          ⟨.leftParen, parenPosition⟩ :: tokens)
        (.call function.name arguments) rest

theorem primaryStep_of_call
    {finish depth position : Nat}
    {name : String}
    {function : Function}
    {others rest : List Located}
    {tree : Expr}
    (notVariable : Variable.ofName? name = none)
    (known : Function.ofName? name = some function)
    (succeeds :
      read finish depth .primary (⟨.identifier name, position⟩ :: others) =
        .ok (tree, rest)) :
    PrimaryStep finish depth (⟨.identifier name, position⟩ :: others)
      tree rest := by
  by_cases opens : comesNext .leftParen others = true
  · obtain ⟨parenPosition, tokens, rfl⟩ := exists_of_comesNext opens
    rw [read_primary_call notVariable known] at succeeds
    obtain ⟨inner, entered, succeeds⟩ := exists_of_bind succeeds
    obtain ⟨⟨arguments, afterArguments⟩, argumentsRead, succeeds⟩ :=
      exists_of_bind succeeds
    obtain ⟨afterCall, closed, succeeds⟩ := exists_of_bind succeeds
    split at succeeds
    · rename_i complete
      simp only [Except.ok.injEq, Prod.mk.injEq] at succeeds
      obtain ⟨rfl, rfl⟩ := succeeds
      rw [← Function.name_of_ofName? known]
      exact .call entered argumentsRead closed complete
    · simp at succeeds
  · rw [read_primary_uncalled notVariable known (by simpa using opens)]
      at succeeds
    contradiction

theorem primaryStep_of_read
    {finish depth : Nat}
    {tokens rest : List Located}
    {tree : Expr}
    (succeeds : read finish depth .primary tokens = .ok (tree, rest)) :
    PrimaryStep finish depth tokens tree rest := by
  cases tokens with
  | nil => simp [read_primary_nil] at succeeds
  | cons found others =>
    obtain ⟨token, position⟩ := found
    cases token with
    | number value =>
        simp only [read_primary_number, Except.ok.injEq, Prod.mk.injEq]
          at succeeds
        obtain ⟨rfl, rfl⟩ := succeeds
        exact .number
    | identifier name =>
        cases variableName : Variable.ofName? name with
        | some quantity =>
            simp only [read_primary_variable variableName, Except.ok.injEq,
              Prod.mk.injEq] at succeeds
            obtain ⟨rfl, rfl⟩ := succeeds
            rw [← Variable.name_of_ofName? variableName]
            exact .reference
        | none =>
          cases functionName : Function.ofName? name with
          | none =>
              rw [read_primary_unknown variableName functionName] at succeeds
              contradiction
          | some function =>
              exact primaryStep_of_call variableName functionName succeeds
    | leftParen =>
        rw [read_primary_group] at succeeds
        obtain ⟨inner, entered, succeeds⟩ := exists_of_bind succeeds
        obtain ⟨⟨body, afterBody⟩, bodyRead, succeeds⟩ :=
          exists_of_bind succeeds
        obtain ⟨afterGroup, closed, succeeds⟩ := exists_of_bind succeeds
        simp only [Except.ok.injEq, Prod.mk.injEq] at succeeds
        obtain ⟨rfl, rfl⟩ := succeeds
        exact .group entered bodyRead closed
    | operator _ | question | colon | rightParen | comma =>
        rw [read_primary_other rfl] at succeeds
        contradiction

/-- Without a sign before it, a primary that fails makes every phrase fail. -/
theorem read_of_primary_error
    {finish depth : Nat}
    {tokens : List Located}
    {error : SyntaxError}
    (unsigned : comesNext (.operator .subtract) tokens = false)
    (fails : read finish depth .primary tokens = .error error)
    (phrase : Phrase) :
    read finish depth phrase tokens = .error error := by
  have unary : read finish depth .unary tokens = .error error := by
    rw [read_unary_other unsigned, fails]
  have tier (tier : Tier)
      (operand : read finish depth tier.operand tokens = .error error) :
      read finish depth (.tier tier) tokens = .error error := by
    rw [read_tier, operand]
    rfl
  have product := tier .product unary
  have sum := tier .sum product
  have comparison := tier .comparison sum
  cases phrase with
  | choice =>
      rw [read_choice, comparison]
      rfl
  | tier tier => cases tier <;> assumption
  | unary => exact unary
  | primary => exact fails

/-- No phrase starts with a closing parenthesis. -/
theorem read_rightParen
    (finish depth position : Nat)
    (phrase : Phrase)
    (rest : List Located) :
    read finish depth phrase (⟨.rightParen, position⟩ :: rest) =
      .error ⟨.unexpectedToken .rightParen .operand, position⟩ := by
  apply read_of_primary_error rfl
  exact read_primary_other rfl finish depth position rest

/-! ## Arguments -/

theorem readArguments_of_rightParen
    {tokens : List Located}
    (closes : comesNext .rightParen tokens = true)
    (finish depth : Nat) :
    readArguments finish depth tokens = .ok ([], tokens) := by
  rw [readArguments, parseArguments]
  simp [closes]

theorem readArguments_of_other
    {tokens : List Located}
    (opens : comesNext .rightParen tokens = false)
    (finish depth : Nat) :
    readArguments finish depth tokens = (do
      let first ← read finish depth .choice tokens
      let others ← readOtherArguments finish depth first.2
      .ok (first.1 :: others.1, others.2)) := by
  simp only [readArguments, readOtherArguments, read]
  rw [parseArguments]
  simp only [opens, Bool.false_eq_true, if_false]
  cases parseChoice finish depth tokens with
  | error error => rfl
  | ok first =>
    simp only [outcome_ok, bind, Except.bind]
    cases parseOtherArguments finish depth first.rest <;> rfl

theorem readOtherArguments_of_comma
    (finish depth position : Nat)
    (tokens : List Located) :
    readOtherArguments finish depth (⟨.comma, position⟩ :: tokens) = (do
      let next ← read finish depth .choice tokens
      let others ← readOtherArguments finish depth next.2
      .ok (next.1 :: others.1, others.2)) := by
  simp only [readOtherArguments, read]
  rw [parseOtherArguments]
  cases parseChoice finish depth tokens with
  | error error => rfl
  | ok next =>
    simp only [outcome_ok, bind, Except.bind]
    cases parseOtherArguments finish depth next.rest <;> rfl

theorem readOtherArguments_of_other
    {tokens : List Located}
    (ends : comesNext .comma tokens = false)
    (finish depth : Nat) :
    readOtherArguments finish depth tokens = .ok ([], tokens) := by
  rw [readOtherArguments, parseOtherArguments.eq_def]
  split
  · simp [comesNext] at ends
  · rfl

/-! ## Whole formulas -/

theorem parseTokens_eq_read
    (finish : Nat)
    (tokens : List Located) :
    parseTokens finish tokens = (do
      let whole ← read finish 0 .choice tokens
      match whole.2 with
      | [] => .ok whole.1
      | ⟨found, position⟩ :: _ => .error ⟨.trailingInput found, position⟩) := by
  simp only [parseTokens, read]
  cases parseChoice finish 0 tokens <;> rfl

end IncentivePay.Formula
