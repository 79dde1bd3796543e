import IncentivePay.Formula.WellFormed
import IncentivePay.Proofs.Formula.GrammarSteps

/-!
# Every phrase is read

`IsReadAs phrase levels tokens tree` says what `read` makes of a phrase in
front of any tokens that do not continue it: where so many levels are left it
hands back the tree, and where they are not it fails because the nesting is
too deep, and for no other reason.  Each rule of the grammar preserves this, so
every derivation of a well-formed tree has it.

A tier reads as far as it can.  Its first operands are therefore not handed
back but continued, and what a tier is read as is stated with `continueWith`.
-/

namespace IncentivePay.Formula

/-! ## Results that depend on the levels that are left -/

/-- A failure because a level was too deep. -/
def IsTooDeep
    {Value : Type}
    (result : Except SyntaxError Value) :
    Prop :=
  ∃ position, result = .error ⟨.tooDeep maxNesting, position⟩

/-- The wanted result where so many levels are left, and too deep elsewhere. -/
structure Answers
    {Value : Type}
    (depth levels : Nat)
    (result wanted : Except SyntaxError Value) :
    Prop where
  fits : depth + levels ≤ maxNesting → result = wanted
  overflows : maxNesting < depth + levels → IsTooDeep result

namespace Answers

variable {Value Result : Type}
variable {depth levels nextLevels : Nat}

/-- What needs no level is answered at every depth. -/
theorem of_eq
    {result wanted : Except SyntaxError Value}
    (inRange : depth ≤ maxNesting)
    (equality : result = wanted) :
    Answers depth 0 result wanted where
  fits _ := equality
  overflows full := by omega

theorem trans
    {result between wanted : Except SyntaxError Value}
    (first : Answers depth levels result between)
    (second : Answers depth nextLevels between wanted) :
    Answers depth (max levels nextLevels) result wanted where
  fits room := by
    rw [first.fits (by omega), second.fits (by omega)]
  overflows full := by
    by_cases firstFits : depth + levels ≤ maxNesting
    · rw [first.fits firstFits]
      exact second.overflows (by omega)
    · exact first.overflows (by omega)

/-- Of a sequence of two parts, the one that needs more levels decides. -/
theorem bind
    {first : Except SyntaxError Value}
    {value : Value}
    {next : Value → Except SyntaxError Result}
    {wanted : Except SyntaxError Result}
    (firstAnswers : Answers depth levels first (.ok value))
    (nextAnswers : Answers depth nextLevels (next value) wanted) :
    Answers depth (max levels nextLevels) (first >>= next) wanted where
  fits room := by
    rw [firstAnswers.fits (by omega)]
    exact nextAnswers.fits (by omega)
  overflows full := by
    by_cases firstFits : depth + levels ≤ maxNesting
    · rw [firstAnswers.fits firstFits]
      exact nextAnswers.overflows (by omega)
    · obtain ⟨position, failure⟩ := firstAnswers.overflows (by omega)
      exact ⟨position, by rw [failure]; rfl⟩

/-- A last part that needs no level changes nothing. -/
theorem bind_eq
    {first : Except SyntaxError Value}
    {value : Value}
    {next : Value → Except SyntaxError Result}
    {wanted : Except SyntaxError Result}
    (firstAnswers : Answers depth levels first (.ok value))
    (equality : next value = wanted) :
    Answers depth levels (first >>= next) wanted where
  fits room := by
    rw [firstAnswers.fits room]
    exact equality
  overflows full := by
    obtain ⟨position, failure⟩ := firstAnswers.overflows full
    exact ⟨position, by rw [failure]; rfl⟩

/-- Entering a level needs one level more than what happens inside. -/
theorem enter
    {position : Nat}
    {next : Nat → Except SyntaxError Result}
    {wanted : Except SyntaxError Result}
    (inRange : depth ≤ maxNesting)
    (inside :
      depth + 1 ≤ maxNesting →
        Answers (depth + 1) levels (next (depth + 1)) wanted) :
    Answers depth (levels + 1) (Formula.enter depth position >>= next)
      wanted := by
  by_cases room : depth < maxNesting
  · rw [enter_of_lt room]
    exact
      ⟨fun fitting => (inside room).fits (by omega),
        fun full => (inside room).overflows (by omega)⟩
  · rw [enter_of_le (by omega)]
    exact ⟨fun fitting => by omega, fun full => ⟨position, rfl⟩⟩

/-- An unexpected token is never the answer where a value is wanted. -/
theorem ne_unexpected
    {result : Except SyntaxError Value}
    {value : Value}
    (answers : Answers depth levels result (.ok value))
    (found : Token)
    (expected : Expectation)
    (position : Nat) :
    result ≠ .error ⟨.unexpectedToken found expected, position⟩ := by
  intro unexpected
  by_cases room : depth + levels ≤ maxNesting
  · simp [answers.fits room] at unexpected
  · obtain ⟨place, failure⟩ := answers.overflows (by omega)
    simp [failure] at unexpected

end Answers

/-! ## The end of a phrase -/

/-- The tokens do not start with an operator of a tier of at most some rank. -/
def EndsTiers
    (rank : Nat)
    (tokens : List Located) :
    Prop :=
  ∀ mark ∈ tokens.head?, ∀ operator,
    mark.token = .operator operator → rank < (Tier.ofOperator operator).rank

/-- The tokens do not continue a phrase that is being read. -/
def Phrase.MayEnd : Phrase → List Located → Prop
  | .choice, tokens => EndsTiers 3 tokens ∧ comesNext .question tokens = false
  | .tier operators, tokens => EndsTiers (operators.rank - 1) tokens
  | .unary, _ => True
  | .primary, _ => True

theorem EndsTiers.mono
    {rank larger : Nat}
    (least : rank ≤ larger)
    {tokens : List Located}
    (ends : EndsTiers larger tokens) :
    EndsTiers rank tokens := by
  intro mark first operator isOperator
  exact Nat.lt_of_le_of_lt least (ends mark first operator isOperator)

theorem EndsTiers.cons
    {rank : Nat}
    {token : Token}
    (looser : ∀ operator,
      token = .operator operator → rank < (Tier.ofOperator operator).rank)
    (position : Nat)
    (rest : List Located) :
    EndsTiers rank (⟨token, position⟩ :: rest) := by
  intro mark first
  simp only [List.head?_cons, Option.mem_def, Option.some.injEq] at first
  subst first
  exact looser

theorem mayEnd_choice_cons
    {token : Token}
    (noOperator : ∀ operator, token ≠ .operator operator)
    (noQuestion : token ≠ .question)
    (position : Nat)
    (rest : List Located) :
    Phrase.choice.MayEnd (⟨token, position⟩ :: rest) :=
  ⟨.cons (fun operator isOperator => (noOperator operator isOperator).elim)
      position rest,
    by simpa [comesNext] using noQuestion⟩

/-- A tier ends where none of its operators follows. -/
theorem readChain_of_endsTiers
    (tier : Tier)
    {rest : List Located}
    (ends : EndsTiers tier.rank rest)
    (finish depth : Nat)
    (left : Expr) :
    readChain finish depth tier left rest = .ok (left, rest) := by
  cases rest with
  | nil => exact readChain_nil finish depth tier left
  | cons mark others =>
      apply readChain_of_none
      cases own : tier.operator? mark.token with
      | none => rfl
      | some operator =>
          obtain ⟨isOperator, rfl⟩ := ofOperator_of_operator? own
          exact (Nat.lt_irrefl _ (ends mark rfl operator isOperator)).elim

/-! ## What a phrase is read as -/

/-- What is left to do after the tokens of a phrase; only a tier may go on. -/
def continueWith
    (finish depth : Nat)
    (phrase : Phrase)
    (tree : Expr)
    (rest : List Located) :
    Except SyntaxError (Expr × List Located) :=
  match phrase with
  | .tier tier => readChain finish depth tier tree rest
  | _ => .ok (tree, rest)

/-- Tokens are read as a phrase with a tree that needs so many levels. -/
def IsReadAs
    (phrase : Phrase)
    (levels : Nat)
    (tokens : List Token)
    (tree : Expr) :
    Prop :=
  ∀ ⦃finish depth : Nat⦄ ⦃located rest : List Located⦄,
    located.map Located.token = tokens →
    phrase.MayEnd rest →
    depth ≤ maxNesting →
    Answers depth levels
      (read finish depth phrase (located ++ rest))
      (continueWith finish depth phrase tree rest)

/-- Tokens are read as the arguments of a call that needs so many levels. -/
def AreReadAs
    (levels : Nat)
    (tokens : List Token)
    (arguments : List Expr) :
    Prop :=
  ∀ ⦃finish depth : Nat⦄ ⦃located rest : List Located⦄,
    located.map Located.token = tokens →
    comesNext .rightParen rest = true →
    depth ≤ maxNesting →
    Answers depth levels
      (readArguments finish depth (located ++ rest))
      (.ok (arguments, rest))

/-- Located tokens are split where their tokens are. -/
theorem exists_split
    {located : List Located}
    {before after : List Token}
    {mark : Token}
    (spelled : located.map Located.token = before ++ mark :: after) :
    ∃ first position last,
      located = first ++ ⟨mark, position⟩ :: last ∧
        first.map Located.token = before ∧
        last.map Located.token = after := by
  obtain ⟨first, others, rfl, firstSpelled, othersSpelled⟩ :=
    List.map_eq_append_iff.1 spelled
  obtain ⟨found, last, rfl, rfl, lastSpelled⟩ :=
    List.map_eq_cons_iff.1 othersSpelled
  exact ⟨first, found.position, last, rfl, firstSpelled, lastSpelled⟩

namespace IsReadAs

/-- An operand is read to its end where the tier above it may end. -/
theorem operand_answers
    {tier : Tier}
    {levels : Nat}
    {tokens : List Token}
    {tree : Expr}
    (operand : IsReadAs tier.operand levels tokens tree)
    {finish depth : Nat}
    {located rest : List Located}
    (spelled : located.map Located.token = tokens)
    (ends : EndsTiers (tier.rank - 1) rest)
    (inRange : depth ≤ maxNesting) :
    Answers depth levels
      (read finish depth tier.operand (located ++ rest))
      (.ok (tree, rest)) := by
  have finished :
      continueWith finish depth tier.operand tree rest = .ok (tree, rest) := by
    cases tier with
    | comparison => exact readChain_of_endsTiers .sum ends finish depth tree
    | sum => exact readChain_of_endsTiers .product ends finish depth tree
    | product => rfl
  have mayEnd : tier.operand.MayEnd rest := by
    cases tier with
    | comparison => exact EndsTiers.mono (by decide) ends
    | sum => exact EndsTiers.mono (by decide) ends
    | product => trivial
  rw [← finished]
  exact operand spelled mayEnd inRange

/-- A comparison is read to its end where no operator follows. -/
theorem comparison_answers
    {levels : Nat}
    {tokens : List Token}
    {tree : Expr}
    (comparison : IsReadAs (.tier .comparison) levels tokens tree)
    {finish depth : Nat}
    {located rest : List Located}
    (spelled : located.map Located.token = tokens)
    (ends : EndsTiers 3 rest)
    (inRange : depth ≤ maxNesting) :
    Answers depth levels
      (read finish depth (.tier .comparison) (located ++ rest))
      (.ok (tree, rest)) := by
  rw [← readChain_of_endsTiers .comparison ends finish depth tree]
  exact comparison spelled (EndsTiers.mono (by decide) ends) inRange

theorem plain
    {levels : Nat}
    {tokens : List Token}
    {tree : Expr}
    (comparison : IsReadAs (.tier .comparison) levels tokens tree) :
    IsReadAs .choice levels tokens tree := by
  intro finish depth located rest spelled ends inRange
  rw [read_choice]
  apply (comparison.comparison_answers spelled ends.1 inRange).bind_eq
  dsimp only
  split
  · simp [Phrase.MayEnd, comesNext] at ends
  · rfl

theorem choice
    {conditionLevels trueLevels falseLevels : Nat}
    {conditionTokens trueTokens falseTokens : List Token}
    {condition whenTrue whenFalse : Expr}
    (conditionRead :
      IsReadAs (.tier .comparison) conditionLevels conditionTokens condition)
    (trueRead : IsReadAs .choice trueLevels trueTokens whenTrue)
    (falseRead : IsReadAs .choice falseLevels falseTokens whenFalse) :
    IsReadAs .choice (max conditionLevels (max trueLevels falseLevels + 1))
      (conditionTokens ++ .question :: (trueTokens ++ .colon :: falseTokens))
      (.choice condition whenTrue whenFalse) := by
  intro finish depth located rest spelled ends inRange
  obtain
    ⟨conditionPart, position, branches, rfl, conditionSpelled, branchesSpelled⟩ :=
    exists_split spelled
  obtain ⟨truePart, colonPosition, falsePart, rfl, trueSpelled, falseSpelled⟩ :=
    exists_split branchesSpelled
  simp only [List.append_assoc, List.cons_append]
  rw [read_choice]
  have questionEnds :
      EndsTiers 3 (⟨.question, position⟩ ::
        (truePart ++ ⟨.colon, colonPosition⟩ :: (falsePart ++ rest))) :=
    .cons (by simp) _ _
  apply (conditionRead.comparison_answers conditionSpelled questionEnds inRange).bind
  apply Answers.enter inRange
  intro innerInRange
  apply (trueRead trueSpelled
    (mayEnd_choice_cons (by simp) (by simp) _ _) innerInRange).bind
  simp only [skip_cons_same]
  exact (falseRead falseSpelled ends innerInRange).bind_eq rfl

theorem operand
    {tier : Tier}
    {levels : Nat}
    {tokens : List Token}
    {tree : Expr}
    (operandRead : IsReadAs tier.operand levels tokens tree) :
    IsReadAs (.tier tier) levels tokens tree := by
  intro finish depth located rest spelled ends inRange
  rw [read_tier]
  exact (operandRead.operand_answers spelled ends inRange).bind_eq rfl

theorem binary
    {operator : Operator}
    {leftLevels rightLevels : Nat}
    {leftTokens rightTokens : List Token}
    {left right : Expr}
    (leftRead :
      IsReadAs (.tier (Tier.ofOperator operator)) leftLevels leftTokens left)
    (rightRead :
      IsReadAs (Tier.ofOperator operator).operand rightLevels rightTokens
        right) :
    IsReadAs (.tier (Tier.ofOperator operator)) (max leftLevels rightLevels)
      (leftTokens ++ .operator operator :: rightTokens)
      (.binary operator left right) := by
  intro finish depth located rest spelled ends inRange
  obtain ⟨leftPart, position, rightPart, rfl, leftSpelled, rightSpelled⟩ :=
    exists_split spelled
  simp only [List.append_assoc, List.cons_append]
  have operatorEnds :
      EndsTiers ((Tier.ofOperator operator).rank - 1)
        (⟨.operator operator, position⟩ :: (rightPart ++ rest)) := by
    apply EndsTiers.cons
    intro mark same
    simp only [Token.operator.injEq] at same
    subst same
    cases operator <;> decide
  apply (leftRead leftSpelled operatorEnds inRange).trans
  have own :
      (Tier.ofOperator operator).operator? (.operator operator) =
        some operator := by
    simp [Tier.operator?]
  rw [continueWith, readChain_of_some own]
  exact (rightRead.operand_answers rightSpelled ends inRange).bind_eq rfl

theorem unsigned
    {levels : Nat}
    {tokens : List Token}
    {tree : Expr}
    (primary : IsReadAs .primary levels tokens tree) :
    IsReadAs .unary levels tokens tree := by
  intro finish depth located rest spelled ends inRange
  have answers :
      Answers depth levels
        (read finish depth .primary (located ++ rest)) (.ok (tree, rest)) :=
    primary spelled ends inRange
  have noSign :
      comesNext (.operator .subtract) (located ++ rest) = false := by
    rw [Bool.eq_false_iff]
    intro signed
    obtain ⟨position, others, whole⟩ := exists_of_comesNext signed
    rw [whole] at answers
    exact answers.ne_unexpected (.operator .subtract) .operand position
      (by simp [read, parsePrimary])
  rw [read_unary_other noSign]
  exact answers

theorem negated
    {levels : Nat}
    {tokens : List Token}
    {tree : Expr}
    (primary : IsReadAs .primary levels tokens tree) :
    IsReadAs .unary levels (.operator .subtract :: tokens) (.negate tree) := by
  intro finish depth located rest spelled ends inRange
  obtain ⟨sign, others, rfl, signSpelled, othersSpelled⟩ :=
    List.map_eq_cons_iff.1 spelled
  obtain ⟨token, position⟩ := sign
  subst signSpelled
  rw [List.cons_append, read_unary_minus]
  exact (primary othersSpelled ends inRange).bind_eq rfl

theorem literal (value : Binary64) :
    IsReadAs .primary 0 [.number value] (.literal value) := by
  intro finish depth located rest spelled ends inRange
  obtain ⟨⟨token, position⟩, others, rfl, rfl, othersSpelled⟩ :=
    List.map_eq_cons_iff.1 spelled
  obtain rfl : others = [] := by simpa using othersSpelled
  exact .of_eq inRange (read_primary_number finish depth position value rest)

theorem reference (quantity : Variable) :
    IsReadAs .primary 0 [.identifier quantity.name]
      (.reference quantity.name) := by
  intro finish depth located rest spelled ends inRange
  obtain ⟨⟨token, position⟩, others, rfl, rfl, othersSpelled⟩ :=
    List.map_eq_cons_iff.1 spelled
  obtain rfl : others = [] := by simpa using othersSpelled
  exact .of_eq inRange
    (read_primary_variable (Variable.ofName?_name quantity) finish depth
      position rest)

theorem group
    {levels : Nat}
    {tokens : List Token}
    {tree : Expr}
    (body : IsReadAs .choice levels tokens tree) :
    IsReadAs .primary (levels + 1) (.leftParen :: (tokens ++ [.rightParen]))
      tree := by
  intro finish depth located rest spelled ends inRange
  obtain ⟨⟨token, position⟩, others, rfl, rfl, othersSpelled⟩ :=
    List.map_eq_cons_iff.1 spelled
  obtain ⟨bodyPart, closingPosition, last, rfl, bodySpelled, lastSpelled⟩ :=
    exists_split othersSpelled
  obtain rfl : last = [] := by simpa using lastSpelled
  simp only [List.cons_append, List.append_assoc, List.nil_append]
  rw [read_primary_group]
  apply Answers.enter inRange
  intro innerInRange
  apply (body bodySpelled
    (mayEnd_choice_cons (by simp) (by simp) _ _) innerInRange).bind_eq
  simp only [skip_cons_same]
  rfl

theorem call
    {function : Function}
    {levels : Nat}
    {tokens : List Token}
    {arguments : List Expr}
    (argumentsRead : AreReadAs levels tokens arguments)
    (complete : arguments.length = function.arity) :
    IsReadAs .primary (levels + 1)
      (.identifier function.name :: .leftParen :: (tokens ++ [.rightParen]))
      (.call function.name arguments) := by
  intro finish depth located rest spelled ends inRange
  obtain ⟨⟨nameToken, position⟩, afterName, rfl, rfl, afterNameSpelled⟩ :=
    List.map_eq_cons_iff.1 spelled
  obtain ⟨⟨token, parenPosition⟩, others, rfl, rfl, othersSpelled⟩ :=
    List.map_eq_cons_iff.1 afterNameSpelled
  obtain ⟨argumentPart, closingPosition, last, rfl, argumentsSpelled,
    lastSpelled⟩ := exists_split othersSpelled
  obtain rfl : last = [] := by simpa using lastSpelled
  simp only [List.cons_append, List.append_assoc, List.nil_append]
  rw [read_primary_call function.variable_ofName?_name
    (Function.ofName?_name function)]
  apply Answers.enter inRange
  intro innerInRange
  apply (argumentsRead argumentsSpelled rfl innerInRange).bind_eq
  simp only [skip_cons_same, complete, if_true]
  rfl

/-- A choice does not start with a closing parenthesis. -/
theorem comesNext_rightParen
    {levels : Nat}
    {tokens : List Token}
    {tree : Expr}
    (isRead : IsReadAs .choice levels tokens tree)
    {located rest : List Located}
    (spelled : located.map Located.token = tokens)
    (ends : Phrase.choice.MayEnd rest) :
    comesNext .rightParen (located ++ rest) = false := by
  rw [Bool.eq_false_iff]
  intro closes
  obtain ⟨position, others, whole⟩ := exists_of_comesNext closes
  have answers :
      Answers 0 levels
        (read 0 0 .choice (located ++ rest)) (.ok (tree, rest)) :=
    isRead spelled ends (Nat.zero_le _)
  rw [whole] at answers
  exact answers.ne_unexpected .rightParen .operand position
    (read_rightParen 0 0 position .choice others)

end IsReadAs

namespace AreReadAs

theorem mayEnd_choice_of_rightParen
    {rest : List Located}
    (closes : comesNext .rightParen rest = true) :
    Phrase.choice.MayEnd rest := by
  obtain ⟨position, others, rfl⟩ := exists_of_comesNext closes
  exact mayEnd_choice_cons (by simp) (by simp) position others

theorem none : AreReadAs 0 [] [] := by
  intro finish depth located rest spelled closes inRange
  obtain rfl : located = [] := by simpa using spelled
  exact .of_eq inRange (readArguments_of_rightParen closes finish depth)

theorem one
    {levels : Nat}
    {tokens : List Token}
    {tree : Expr}
    (isRead : IsReadAs .choice levels tokens tree) :
    AreReadAs levels tokens [tree] := by
  intro finish depth located rest spelled closes inRange
  have ends := mayEnd_choice_of_rightParen closes
  rw [readArguments_of_other (isRead.comesNext_rightParen spelled ends)]
  apply (isRead spelled ends inRange).bind_eq
  have noComma : comesNext .comma rest = false := by
    cases rest with
    | nil => rfl
    | cons next others => simp_all [comesNext]
  rw [readOtherArguments_of_other noComma]
  rfl

/-- Where there is an argument, no closing parenthesis comes first. -/
theorem opens_of_answers
    {finish depth levels : Nat}
    {tokens rest : List Located}
    {first : Expr}
    {others : List Expr}
    (answers :
      Answers depth levels (readArguments finish depth tokens)
        (.ok (first :: others, rest))) :
    comesNext .rightParen tokens = false := by
  rw [Bool.eq_false_iff]
  intro closes
  rw [readArguments_of_rightParen closes] at answers
  by_cases room : depth + levels ≤ maxNesting
  · simpa using answers.fits room
  · obtain ⟨position, failure⟩ := answers.overflows (by omega)
    simp at failure

/-- Arguments after a comma are read like arguments after the parenthesis. -/
theorem readOtherArguments_comma
    {finish depth position : Nat}
    {tokens : List Located}
    (opens : comesNext .rightParen tokens = false) :
    readOtherArguments finish depth (⟨.comma, position⟩ :: tokens) =
      readArguments finish depth tokens := by
  rw [readOtherArguments_of_comma, readArguments_of_other opens]

theorem more
    {levels otherLevels : Nat}
    {tokens otherTokens : List Token}
    {tree next : Expr}
    {others : List Expr}
    (isRead : IsReadAs .choice levels tokens tree)
    (othersRead : AreReadAs otherLevels otherTokens (next :: others)) :
    AreReadAs (max levels otherLevels) (tokens ++ .comma :: otherTokens)
      (tree :: next :: others) := by
  intro finish depth located rest spelled closes inRange
  obtain ⟨firstPart, position, otherPart, rfl, firstSpelled, othersSpelled⟩ :=
    exists_split spelled
  simp only [List.append_assoc, List.cons_append]
  have commaEnds :
      Phrase.choice.MayEnd (⟨.comma, position⟩ :: (otherPart ++ rest)) :=
    mayEnd_choice_cons (by simp) (by simp) _ _
  rw [readArguments_of_other
    (isRead.comesNext_rightParen firstSpelled commaEnds)]
  apply (isRead firstSpelled commaEnds inRange).bind
  have otherAnswers :
      Answers depth otherLevels
        (readArguments finish depth (otherPart ++ rest))
        (.ok (next :: others, rest)) :=
    othersRead othersSpelled closes inRange
  have opens : comesNext .rightParen (otherPart ++ rest) = false :=
    opens_of_answers otherAnswers
  rw [readOtherArguments_comma opens]
  exact otherAnswers.bind_eq rfl

end AreReadAs

/-! ## Derivations -/

mutual

/-- A derivation of a well-formed tree is read as this tree. -/
theorem exists_isReadAs
    {phrase : Phrase}
    {room : Nat}
    {tokens : List Token}
    {tree : Expr}
    (derivation : Derives phrase room tokens tree)
    (wellFormed : tree.IsWellFormed) :
    ∃ levels, levels ≤ room ∧ IsReadAs phrase levels tokens tree := by
  match derivation with
  | .plain comparison =>
      obtain ⟨levels, bound, isRead⟩ := exists_isReadAs comparison wellFormed
      exact ⟨levels, bound, isRead.plain⟩
  | .choice condition whenTrue whenFalse =>
      obtain ⟨conditionLevels, conditionBound, conditionRead⟩ :=
        exists_isReadAs condition wellFormed.1
      obtain ⟨trueLevels, trueBound, trueRead⟩ :=
        exists_isReadAs whenTrue wellFormed.2.1
      obtain ⟨falseLevels, falseBound, falseRead⟩ :=
        exists_isReadAs whenFalse wellFormed.2.2
      exact ⟨max conditionLevels (max trueLevels falseLevels + 1), by omega,
        by simpa using conditionRead.choice trueRead falseRead⟩
  | .operand operand =>
      obtain ⟨levels, bound, isRead⟩ := exists_isReadAs operand wellFormed
      exact ⟨levels, bound, isRead.operand⟩
  | .binary left right =>
      obtain ⟨leftLevels, leftBound, leftRead⟩ :=
        exists_isReadAs left wellFormed.1
      obtain ⟨rightLevels, rightBound, rightRead⟩ :=
        exists_isReadAs right wellFormed.2
      exact ⟨max leftLevels rightLevels, by omega, leftRead.binary rightRead⟩
  | .unsigned primary =>
      obtain ⟨levels, bound, isRead⟩ := exists_isReadAs primary wellFormed
      exact ⟨levels, bound, isRead.unsigned⟩
  | .negated primary =>
      obtain ⟨levels, bound, isRead⟩ := exists_isReadAs primary wellFormed
      exact ⟨levels, bound, isRead.negated⟩
  | .literal => exact ⟨0, Nat.zero_le _, .literal _⟩
  | .reference => exact ⟨0, Nat.zero_le _, .reference _⟩
  | .group body =>
      obtain ⟨levels, bound, isRead⟩ := exists_isReadAs body wellFormed
      exact ⟨levels + 1, by omega, isRead.group⟩
  | @Derives.call _ function _ _ arguments =>
      obtain ⟨⟨known, found, complete⟩, areWellFormed⟩ := wellFormed
      rw [Function.ofName?_name, Option.some.injEq] at found
      subst found
      obtain ⟨levels, bound, areRead⟩ := exists_areReadAs arguments areWellFormed
      exact ⟨levels + 1, by omega, .call areRead complete⟩

/-- A derivation of well-formed arguments is read as these arguments. -/
theorem exists_areReadAs
    {room : Nat}
    {tokens : List Token}
    {arguments : List Expr}
    (derivation : DerivesArguments room tokens arguments)
    (wellFormed : Expr.AreWellFormed arguments) :
    ∃ levels, levels ≤ room ∧ AreReadAs levels tokens arguments := by
  match derivation with
  | .none => exact ⟨0, Nat.zero_le _, .none⟩
  | .one tree =>
      obtain ⟨levels, bound, isRead⟩ := exists_isReadAs tree wellFormed.1
      exact ⟨levels, bound, .one isRead⟩
  | .more tree others =>
      obtain ⟨levels, bound, isRead⟩ := exists_isReadAs tree wellFormed.1
      obtain ⟨otherLevels, otherBound, areRead⟩ :=
        exists_areReadAs others wellFormed.2
      exact ⟨max levels otherLevels, by omega, .more isRead areRead⟩

end

/-- All the tokens of a choice make a formula, unless it nests too deeply. -/
theorem IsReadAs.parseTokens_answers
    {levels : Nat}
    {tree : Expr}
    {tokens : List Located}
    (isRead : IsReadAs .choice levels (tokens.map Located.token) tree)
    (finish : Nat) :
    Answers 0 levels (parseTokens finish tokens) (.ok tree) := by
  have nothingFollows : Phrase.choice.MayEnd [] :=
    ⟨fun mark first => by simp at first, rfl⟩
  have answers :
      Answers 0 levels (read finish 0 .choice (tokens ++ []))
        (.ok (tree, [])) :=
    isRead rfl nothingFollows (Nat.zero_le _)
  rw [List.append_nil] at answers
  rw [parseTokens_eq_read]
  exact answers.bind_eq rfl

/-- A formula within the levels that there are is read as its tree. -/
theorem parseTokens_of_derives
    {tree : Expr}
    {tokens : List Located}
    (derivation :
      Derives .choice maxNesting (tokens.map Located.token) tree)
    (wellFormed : tree.IsWellFormed)
    (finish : Nat) :
    parseTokens finish tokens = .ok tree := by
  obtain ⟨levels, bound, isRead⟩ := exists_isReadAs derivation wellFormed
  exact (isRead.parseTokens_answers finish).fits (by omega)

end IncentivePay.Formula
