import IncentivePay.Proofs.Formula.GrammarCompleteness
import IncentivePay.Proofs.Formula.ViablePrefixes

/-!
# Where the tokens of a phrase are cut

When a phrase is not read, its tokens are cut in two.  Those before the cut can
be completed to a phrase, within the levels that are left; they lead from the
place of an operand to some place, and there the error says why it does not go
on: the tokens end inside of a phrase, the next token cannot come there, or it
is a name that may not stand there.  `IsCut` puts this together, and a cut of
what follows some tokens is one of the whole.

A phrase is read as far as it goes, so what follows a phrase that was read does
not continue it.  A token that is expected there and does not come therefore
has no successor place.
-/

namespace IncentivePay.Formula

/-! ## What follows a phrase that was read -/

/-- Where a tier ends, no operator of it stands, nor one that binds tighter. -/
theorem endsTiers_of_readChain
    {finish depth : Nat}
    {tier : Tier}
    (operandEnds :
      ∀ {others rest : List Located} {tree : Expr},
        read finish depth tier.operand others = .ok (tree, rest) →
        EndsTiers (tier.rank - 1) rest)
    (tokens : List Located)
    (ends : EndsTiers (tier.rank - 1) tokens)
    {left tree : Expr}
    {rest : List Located}
    (succeeds : readChain finish depth tier left tokens = .ok (tree, rest)) :
    EndsTiers tier.rank rest := by
  cases tokens with
  | nil =>
      simp only [readChain_nil, Except.ok.injEq, Prod.mk.injEq] at succeeds
      obtain ⟨-, rfl⟩ := succeeds
      intro mark first
      simp at first
  | cons mark afterMark =>
      cases own : tier.operator? mark.token with
      | none =>
          simp only [readChain_of_none own, Except.ok.injEq, Prod.mk.injEq]
            at succeeds
          obtain ⟨-, rfl⟩ := succeeds
          apply EndsTiers.cons
          intro operator isOperator
          have looser := ends mark rfl operator isOperator
          rw [isOperator] at own
          cases tier <;> cases operator <;>
            simp_all [Tier.operator?, Tier.ofOperator]
      | some operator =>
          rw [readChain_of_some own] at succeeds
          obtain ⟨⟨right, afterRight⟩, rightRead, continued⟩ :=
            exists_of_bind succeeds
          have fewer := length_lt_of_read rightRead
          exact
            endsTiers_of_readChain operandEnds afterRight
              (operandEnds rightRead) continued
termination_by tokens.length
decreasing_by
  subst_vars
  exact Nat.lt_succ_of_lt fewer

theorem endsTiers_zero (tokens : List Located) : EndsTiers 0 tokens := by
  intro mark _ operator _
  cases operator <;> decide

theorem endsTiers_of_read
    {finish depth : Nat}
    (tier : Tier)
    {tokens rest : List Located}
    {tree : Expr}
    (succeeds : read finish depth (.tier tier) tokens = .ok (tree, rest)) :
    EndsTiers tier.rank rest := by
  have ofOperand (tier : Tier)
      (operandEnds :
        ∀ {others rest : List Located} {tree : Expr},
          read finish depth tier.operand others = .ok (tree, rest) →
          EndsTiers (tier.rank - 1) rest)
      {tokens rest : List Located}
      {tree : Expr}
      (succeeds : read finish depth (.tier tier) tokens = .ok (tree, rest)) :
      EndsTiers tier.rank rest := by
    rw [read_tier] at succeeds
    obtain ⟨⟨first, afterFirst⟩, firstRead, continued⟩ :=
      exists_of_bind succeeds
    exact
      endsTiers_of_readChain operandEnds afterFirst (operandEnds firstRead)
        continued
  cases tier with
  | product => exact ofOperand .product (fun _ => endsTiers_zero _) succeeds
  | sum =>
      exact
        ofOperand .sum
          (ofOperand .product fun _ => endsTiers_zero _) succeeds
  | comparison =>
      exact
        ofOperand .comparison
          (ofOperand .sum (ofOperand .product fun _ => endsTiers_zero _))
          succeeds

/-- What follows a choice that was read does not continue it. -/
theorem mayEnd_of_read
    {finish depth : Nat}
    (tokens : List Located)
    {rest : List Located}
    {tree : Expr}
    (succeeds : read finish depth .choice tokens = .ok (tree, rest)) :
    Phrase.choice.MayEnd rest := by
  rw [read_choice] at succeeds
  obtain ⟨⟨condition, afterCondition⟩, conditionRead, branched⟩ :=
    exists_of_bind succeeds
  have fewer := length_lt_of_read conditionRead
  split at branched
  · rename_i position afterQuestion shape
    dsimp only at shape
    subst shape
    obtain ⟨inner, -, branched⟩ := exists_of_bind branched
    obtain ⟨⟨whenTrue, afterTrue⟩, trueRead, branched⟩ :=
      exists_of_bind branched
    obtain ⟨afterColon, colonSkipped, branched⟩ := exists_of_bind branched
    obtain ⟨⟨whenFalse, afterFalse⟩, falseRead, branched⟩ :=
      exists_of_bind branched
    simp only [Except.ok.injEq, Prod.mk.injEq] at branched
    obtain ⟨-, rfl⟩ := branched
    have fewerStill := length_lt_of_read trueRead
    obtain ⟨colonPosition, rfl⟩ := eq_cons_of_skip colonSkipped
    exact mayEnd_of_read afterColon falseRead
  · rename_i noQuestion
    simp only [Except.ok.injEq, Prod.mk.injEq] at branched
    obtain ⟨-, rfl⟩ := branched
    refine ⟨endsTiers_of_read .comparison conditionRead, ?_⟩
    rw [Bool.eq_false_iff]
    intro question
    obtain ⟨position, others, rfl⟩ := exists_of_comesNext question
    exact noQuestion position others rfl
termination_by tokens.length
decreasing_by
  simp only [List.length_cons] at fewer fewerStill
  omega

/-- No operator and no question mark follows a choice. -/
theorem Phrase.MayEnd.not_continued
    {found : Located}
    {rest : List Located}
    (ends : Phrase.choice.MayEnd (found :: rest)) :
    (∀ operator, found.token ≠ .operator operator) ∧
      found.token ≠ .question := by
  obtain ⟨endsTiers, noQuestion⟩ := ends
  constructor
  · intro operator isOperator
    have looser := endsTiers found rfl operator isOperator
    exact absurd looser (by cases operator <;> decide)
  · intro isQuestion
    simp [comesNext, isQuestion] at noQuestion

/-! ## Why an error is found at a place -/

/--
Some tokens end in a call without its closing parenthesis, which gives the
function so many arguments, and not as many as it takes.
-/
def EndsInMiscount
    (function : Function)
    (count : Nat)
    (tokens : List Token) :
    Prop :=
  ∃ front room given arguments,
    tokens = front ++ .identifier function.name :: .leftParen :: given ∧
      DerivesArguments room given arguments ∧
      arguments.length = count ∧
      count ≠ function.arity

/--
An error says why the tokens do not go on from a place, behind some others.
-/
inductive Halts
    (finish : Nat)
    (place : Place)
    (before : List Token) :
    List Located → SyntaxError → Prop
  | unexpectedEnd {expected : Expectation} :
      place ≠ ⟨.operator, []⟩ →
      Halts finish place before [] ⟨.unexpectedEnd expected, finish⟩
  | unexpectedToken
      {found : Located} {rest : List Located} {expected : Expectation} :
      place.advance found.token = none →
      Halts finish place before (found :: rest)
        ⟨.unexpectedToken found.token expected, found.position⟩
  | trailingInput {found : Located} {rest : List Located} :
      place.advance found.token = none →
      Halts finish place before (found :: rest)
        ⟨.trailingInput found.token, found.position⟩
  | unknownIdentifier
      {name : String} {position : Nat} {rest : List Located} :
      Variable.ofName? name = none →
      Function.ofName? name = none →
      comesNext .leftParen rest = false →
      Halts finish place before (⟨.identifier name, position⟩ :: rest)
        ⟨.unknownIdentifier name, position⟩
  | unknownFunction
      {name : String} {position : Nat} {rest : List Located} :
      Variable.ofName? name = none →
      Function.ofName? name = none →
      comesNext .leftParen rest = true →
      Halts finish place before (⟨.identifier name, position⟩ :: rest)
        ⟨.unknownFunction name, position⟩
  | functionNotCalled
      {function : Function} {position : Nat} {rest : List Located} :
      comesNext .leftParen rest = false →
      Halts finish place before (⟨.identifier function.name, position⟩ :: rest)
        ⟨.functionNotCalled function, position⟩
  | wrongArgumentCount
      {function : Function} {count position : Nat} {rest : List Located} :
      EndsInMiscount function count before →
      Halts finish place before (⟨.rightParen, position⟩ :: rest)
        ⟨.wrongArgumentCount function count, position⟩
  | tooDeep {limit : Nat} {found : Located} {rest : List Located} :
      Halts finish place before (found :: rest) ⟨.tooDeep limit, found.position⟩

/-- More tokens in front of those before the place change nothing. -/
theorem Halts.prepend
    {finish : Nat}
    {place : Place}
    {before : List Token}
    {tokens : List Located}
    {error : SyntaxError}
    (halts : Halts finish place before tokens error)
    (front : List Token) :
    Halts finish place (front ++ before) tokens error := by
  cases halts with
  | unexpectedEnd inside => exact .unexpectedEnd inside
  | unexpectedToken stops => exact .unexpectedToken stops
  | trailingInput stops => exact .trailingInput stops
  | unknownIdentifier notVariable notFunction uncalled =>
      exact .unknownIdentifier notVariable notFunction uncalled
  | unknownFunction notVariable notFunction called =>
      exact .unknownFunction notVariable notFunction called
  | functionNotCalled uncalled => exact .functionNotCalled uncalled
  | wrongArgumentCount miscounted =>
      obtain ⟨earlier, room, given, arguments, rfl, counted⟩ := miscounted
      exact
        .wrongArgumentCount
          ⟨front ++ earlier, room, given, arguments,
            (List.append_assoc _ _ _).symm, counted⟩
  | tooDeep => exact .tooDeep

/-- An unknown name is called a function if a parenthesis comes after it. -/
theorem halts_of_unknown
    {name : String}
    (notVariable : Variable.ofName? name = none)
    (notFunction : Function.ofName? name = none)
    {finish position : Nat}
    {place : Place}
    {before : List Token}
    {rest : List Located} :
    Halts finish place before (⟨.identifier name, position⟩ :: rest)
      ⟨if comesNext .leftParen rest then .unknownFunction name
        else .unknownIdentifier name, position⟩ := by
  cases called : comesNext .leftParen rest with
  | true => exact .unknownFunction notVariable notFunction called
  | false => exact .unknownIdentifier notVariable notFunction called

/-- The token for which an open phrase waits. -/
def Frame.closing : Frame → Token
  | .branch => .colon
  | .group => .rightParen
  | .call => .rightParen

/-- After a choice inside of a phrase, the phrase has to be closed. -/
theorem halts_of_skip
    {finish : Nat}
    (frame : Frame)
    {tokens : List Located}
    {error : SyntaxError}
    (ends : Phrase.choice.MayEnd tokens)
    (noComma : frame = .call → comesNext .comma tokens = false)
    (fails : skip finish frame.closing tokens = .error error)
    (opened : List Frame)
    {before : List Token} :
    Halts finish ⟨.operator, frame :: opened⟩ before tokens error := by
  rcases skip_eq_error fails with
    ⟨rfl, rfl⟩ | ⟨found, others, rfl, notClosing, rfl⟩
  · exact .unexpectedEnd (by simp)
  · apply Halts.unexpectedToken
    obtain ⟨noOperator, noQuestion⟩ := ends.not_continued
    simp only [comesNext, List.head?_cons, Option.any_some,
      decide_eq_false_iff_not] at noComma
    simp only [Place.advance]
    cases isToken : found.token <;> cases frame <;>
      simp_all [Place.afterOperatorToken, Frame.closing]

/-- After a choice around which nothing is open, nothing comes. -/
theorem halts_of_trailing
    {found : Located}
    {rest : List Located}
    (ends : Phrase.choice.MayEnd (found :: rest))
    (finish : Nat)
    {before : List Token} :
    Halts finish ⟨.operator, []⟩ before (found :: rest)
      ⟨.trailingInput found.token, found.position⟩ := by
  apply Halts.trailingInput
  obtain ⟨noOperator, noQuestion⟩ := ends.not_continued
  simp only [Place.advance]
  cases isToken : found.token <;> simp_all [Place.afterOperatorToken]

/-- What halts before an operand halts before a first argument. -/
theorem Halts.arguments
    {finish : Nat}
    {opened : List Frame}
    {before : List Token}
    {tokens : List Located}
    {error : SyntaxError}
    (halts : Halts finish ⟨.operand true, opened⟩ before tokens error)
    (opens : comesNext .rightParen tokens = false) :
    Halts finish ⟨.arguments, opened⟩ before tokens error := by
  have sameAdvance {found : Located} {rest : List Located}
      (isNext : tokens = found :: rest) :
      Place.advance ⟨.arguments, opened⟩ found.token =
        Place.advance ⟨.operand true, opened⟩ found.token := by
    rw [isNext] at opens
    have notClosing : found.token ≠ .rightParen := by
      simpa [comesNext] using opens
    simp [Place.advance, notClosing]
  cases halts with
  | unexpectedEnd => exact .unexpectedEnd (by simp)
  | unexpectedToken stops =>
      exact .unexpectedToken ((sameAdvance rfl).trans stops)
  | trailingInput stops => exact .trailingInput ((sameAdvance rfl).trans stops)
  | unknownIdentifier notVariable notFunction uncalled =>
      exact .unknownIdentifier notVariable notFunction uncalled
  | unknownFunction notVariable notFunction called =>
      exact .unknownFunction notVariable notFunction called
  | functionNotCalled uncalled => exact .functionNotCalled uncalled
  | wrongArgumentCount miscounted => exact .wrongArgumentCount miscounted
  | tooDeep => exact .tooDeep

/-! ## Cuts -/

/--
The tokens before the cut can be completed and lead from one place to another,
where the error says why they do not go on.
-/
def IsCut
    (finish : Nat)
    (completes : List Token → Prop)
    (place : Place)
    (tokens : List Located)
    (error : SyntaxError) :
    Prop :=
  ∃ before rest reached,
    tokens = before ++ rest ∧
      completes (before.map Located.token) ∧
      place.run (before.map Located.token) = some reached ∧
      Halts finish reached (before.map Located.token) rest error

namespace IsCut

variable
  {finish : Nat}
  {completes inner : List Token → Prop}
  {place middle : Place}
  {tokens : List Located}
  {error : SyntaxError}

theorem here
    (halts : Halts finish place [] tokens error)
    (complete : completes []) :
    IsCut finish completes place tokens error :=
  ⟨[], tokens, place, rfl, complete, rfl, halts⟩

/-- A cut behind some tokens is one of the whole. -/
theorem after
    (consumed : List Located)
    (cut : IsCut finish inner middle tokens error)
    (leads : place.run (consumed.map Located.token) = some middle)
    (carries :
      ∀ before,
        inner before → completes (consumed.map Located.token ++ before)) :
    IsCut finish completes place (consumed ++ tokens) error := by
  obtain ⟨before, rest, reached, rfl, complete, goesOn, halts⟩ := cut
  refine ⟨consumed ++ before, rest, reached, (List.append_assoc _ _ _).symm,
    ?_, ?_, ?_⟩
  · rw [List.map_append]
    exact carries _ complete
  · rw [List.map_append, Place.run_append_of_run leads]
    exact goesOn
  · rw [List.map_append]
    exact halts.prepend _

theorem mono
    (cut : IsCut finish inner place tokens error)
    (implies : ∀ before, inner before → completes before) :
    IsCut finish completes place tokens error :=
  cut.after [] rfl implies

/-- A cut of what may be an argument, seen from before the first argument. -/
theorem arguments
    {opened : List Frame}
    (cut : IsCut finish completes ⟨.operand true, opened⟩ tokens error)
    (opens : comesNext .rightParen tokens = false) :
    IsCut finish completes ⟨.arguments, opened⟩ tokens error := by
  obtain ⟨before, rest, reached, rfl, complete, leads, halts⟩ := cut
  cases before with
  | nil =>
      obtain rfl := Option.some.inj leads
      exact here (halts.arguments opens) complete
  | cons first others =>
      refine ⟨first :: others, rest, reached, rfl, complete, ?_, halts⟩
      rw [← leads]
      apply Place.run_arguments
      · simp
      · simpa [comesNext] using opens

end IsCut

/-! ## Completions -/

/-- Tokens with which a phrase starts that nests within some room. -/
def Phrase.CompletesIn
    (phrase : Phrase)
    (room : Nat)
    (before : List Token) :
    Prop :=
  ∃ others tree, Derives phrase room (before ++ others) tree

/-- Tokens with which the arguments of a call start. -/
def ArgumentsCompleteIn
    (room : Nat)
    (before : List Token) :
    Prop :=
  ∃ others arguments, DerivesArguments room (before ++ others) arguments

/-- A number is a phrase of every kind. -/
theorem derives_literal
    (phrase : Phrase)
    (room : Nat)
    (value : Binary64) :
    Derives phrase room [.number value] (.literal value) := by
  have unary : Derives .unary room [.number value] (.literal value) :=
    .unsigned .literal
  have product : Derives (.tier .product) room [.number value] (.literal value) :=
    .operand unary
  have sum : Derives (.tier .sum) room [.number value] (.literal value) :=
    .operand product
  have comparison :
      Derives (.tier .comparison) room [.number value] (.literal value) :=
    .operand sum
  cases phrase with
  | choice => exact .plain comparison
  | tier tier => cases tier <;> assumption
  | unary => exact unary
  | primary => exact .literal

namespace Phrase.CompletesIn

variable
  {phrase : Phrase}
  {room : Nat}
  {tokens before : List Token}
  {tree : Expr}

theorem nil (phrase : Phrase) (room : Nat) : phrase.CompletesIn room [] :=
  ⟨[.number .zero], _, derives_literal phrase room .zero⟩

theorem of_derives (derivation : Derives phrase room tokens tree) :
    phrase.CompletesIn room tokens :=
  ⟨[], tree, by rwa [List.append_nil]⟩

theorem afterQuestion
    (condition : Derives (.tier .comparison) (room + 1) tokens tree)
    (completes : Phrase.choice.CompletesIn room before) :
    Phrase.choice.CompletesIn (room + 1) (tokens ++ .question :: before) := by
  obtain ⟨others, whenTrue, derivation⟩ := completes
  exact
    ⟨others ++ [.colon, .number .zero], _, by
      simpa using
        Derives.choice condition derivation (derives_literal _ _ .zero)⟩

theorem afterColon
    {trueTokens : List Token}
    {whenTrue : Expr}
    (condition : Derives (.tier .comparison) (room + 1) tokens tree)
    (trueDerivation : Derives .choice room trueTokens whenTrue)
    (completes : Phrase.choice.CompletesIn room before) :
    Phrase.choice.CompletesIn (room + 1)
      (tokens ++ .question :: trueTokens ++ .colon :: before) := by
  obtain ⟨others, whenFalse, derivation⟩ := completes
  exact
    ⟨others, _, by
      simpa using Derives.choice condition trueDerivation derivation⟩

theorem group (completes : Phrase.choice.CompletesIn room before) :
    Phrase.primary.CompletesIn (room + 1) (.leftParen :: before) := by
  obtain ⟨others, body, derivation⟩ := completes
  exact ⟨others ++ [.rightParen], _, by simpa using Derives.group derivation⟩

end Phrase.CompletesIn

/-- The arguments of a call start behind the name and the parenthesis. -/
theorem ArgumentsCompleteIn.call
    {room : Nat}
    {before : List Token}
    (completes : ArgumentsCompleteIn room before)
    (function : Function) :
    Phrase.primary.CompletesIn (room + 1)
      (.identifier function.name :: .leftParen :: before) := by
  obtain ⟨others, arguments, derivation⟩ := completes
  exact
    ⟨others ++ [.rightParen], _, by
      simpa using @Derives.call _ function _ _ derivation⟩

theorem ArgumentsCompleteIn.of_derives
    {room : Nat}
    {tokens : List Token}
    {arguments : List Expr}
    (derivation : DerivesArguments room tokens arguments) :
    ArgumentsCompleteIn room tokens :=
  ⟨[], arguments, by rwa [List.append_nil]⟩

end IncentivePay.Formula
