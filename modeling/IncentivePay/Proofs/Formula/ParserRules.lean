import IncentivePay.Proofs.Formula.ParserSteps

/-!
# The rules of the machine

Each rule follows its grammar function wherever the cursor stands, at every
level that formulas may reach.  The induction is on the tokens that are left:
behind a token that was consumed any rule may be used, and in front of it only
a rule that binds tighter.  So the rules that are open at a time are at most a
dozen for each token, and the machine answers when that many may be open.
-/

namespace IncentivePay.Formula

namespace Phrase

/-- The rule that reads a phrase. -/
def parsing : Phrase → (limit : Nat) → Parsing Expr
  | .choice, limit => Parser.choice limit
  | .tier level, limit => Parser.tier limit level
  | .unary, limit => Parser.unary limit
  | .primary, limit => Parser.primary limit

/-- The number of rules that may have to be open to read a phrase. -/
def room
    (phrase : Phrase)
    (tokens : List Located) :
    Nat :=
  match phrase with
  | .choice => 12 * tokens.length + 9
  | .tier level => 12 * tokens.length + 2 * level.rank + 2
  | .unary => 12 * tokens.length + 2
  | .primary => 12 * tokens.length + 1

end Phrase

namespace Parser

/--
The rule of a phrase does before these tokens what reading the phrase says.
-/
def IsFollowedOn
    (phrase : Phrase)
    (tokens : List Located) :
    Prop :=
  ∀ finish depth limit : Nat,
    depth ≤ maxNesting →
    phrase.room tokens ≤ limit →
    Follows (phrase.parsing limit) finish depth tokens
      (read finish depth phrase tokens) depth

variable {finish depth limit : Nat}

theorem exists_limit
    {need : Nat}
    (enough : need + 1 ≤ limit) :
    ∃ fewer, limit = fewer + 1 ∧ need ≤ fewer :=
  ⟨limit - 1, by omega, by omega⟩

theorem IsFollowedOn.choice
    {tokens : List Located}
    (followed : IsFollowedOn .choice tokens)
    (inRange : depth ≤ maxNesting)
    (enough : 12 * tokens.length + 9 ≤ limit) :
    Follows (choice limit) finish depth tokens
      (read finish depth .choice tokens) depth :=
  followed finish depth limit inRange enough

/-! ## Arguments -/

theorem follows_otherArguments
    (inRange : depth ≤ maxNesting)
    (tokens : List Located)
    (enough : 12 * tokens.length + 1 ≤ limit)
    (followed : ∀ shorter : List Located,
      shorter.length < tokens.length → IsFollowedOn .choice shorter) :
    Follows (otherArguments limit) finish depth tokens
      (readOtherArguments finish depth tokens) depth := by
  induction limit generalizing tokens with
  | zero => exact absurd enough (Nat.not_succ_le_zero _)
  | succ limit ih =>
      rw [otherArguments]
      apply (follows_check finish depth .comma tokens).andThen
      cases continues : comesNext .comma tokens with
      | true =>
          obtain ⟨position, rest, rfl⟩ := exists_of_comesNext continues
          simp only [List.length_cons] at enough followed
          rw [readOtherArguments_of_comma]
          apply (follows_advance_cons finish depth _ _).andThen
          apply ((followed rest (by omega)).choice inRange (by omega)).bind
          intro next afterNext nextRead
          have fewer := length_lt_of_read nextRead
          apply (ih afterNext (by omega) fun shorter bound =>
            followed shorter (by omega)).bind
          intro others afterOthers _
          exact follows_pure finish depth afterOthers (next :: others)
      | false =>
          rw [readOtherArguments_of_other continues, if_neg nofun]
          exact follows_pure finish depth tokens []

theorem follows_arguments
    (inRange : depth ≤ maxNesting)
    (tokens : List Located)
    (enough : 12 * tokens.length + 10 ≤ limit)
    (followed : ∀ shorter : List Located,
      shorter.length ≤ tokens.length → IsFollowedOn .choice shorter) :
    Follows (arguments limit) finish depth tokens
      (readArguments finish depth tokens) depth := by
  obtain ⟨limit, rfl, remains⟩ := exists_limit enough
  rw [arguments]
  apply (follows_check finish depth .rightParen tokens).andThen
  cases closes : comesNext .rightParen tokens with
  | true =>
      rw [readArguments_of_rightParen closes, if_pos rfl]
      exact follows_pure finish depth tokens []
  | false =>
      rw [readArguments_of_other closes, if_neg nofun]
      apply ((followed tokens (Nat.le_refl _)).choice inRange remains).bind
      intro first afterFirst firstRead
      have fewer := length_lt_of_read firstRead
      apply (follows_otherArguments inRange afterFirst (by omega)
        fun shorter bound => followed shorter (by omega)).bind
      intro others afterOthers _
      exact follows_pure finish depth afterOthers (first :: others)

theorem follows_call
    (inRange : depth ≤ maxNesting)
    (function : Function)
    (position : Nat)
    (tokens : List Located)
    (enough : 12 * tokens.length + 1 ≤ limit)
    (followed : ∀ shorter : List Located,
      shorter.length < tokens.length → IsFollowedOn .choice shorter) :
    Follows (call limit function position) finish depth tokens
      (readCall finish depth function position tokens) depth := by
  obtain ⟨limit, rfl, remains⟩ := exists_limit enough
  rw [call]
  apply (follows_check finish depth .leftParen tokens).andThen
  cases opens : comesNext .leftParen tokens with
  | true =>
      obtain ⟨parenPosition, rest, rfl⟩ := exists_of_comesNext opens
      simp only [List.length_cons] at remains followed
      rw [readCall_of_leftParen]
      apply (follows_advance_cons finish depth _ _).andThen
      apply Follows.enterThen inRange
      intro innerInRange
      apply (follows_arguments innerInRange rest (by omega)
        fun shorter bound => followed shorter (by omega)).bind
      intro given afterArguments _
      apply (follows_currentPosition finish (depth + 1) afterArguments).andThen
      apply Follows.consumeThen
      intro afterCall _
      apply (follows_leaveLevel finish depth afterCall).andThen
      dsimp only
      split
      · exact follows_pure finish depth afterCall _
      · exact follows_throw finish depth afterCall _
  | false =>
      rw [readCall_of_other opens, if_neg nofun]
      exact follows_throw finish depth tokens _

/-! ## One lemma for each phrase -/

theorem primary_followed
    (tokens : List Located)
    (followed : ∀ shorter : List Located,
      shorter.length < tokens.length → IsFollowedOn .choice shorter) :
    IsFollowedOn .primary tokens := by
  intro finish depth limit inRange (enough : 12 * tokens.length + 1 ≤ limit)
  obtain ⟨limit, rfl, remains⟩ := exists_limit enough
  rw [Phrase.parsing, primary]
  apply (follows_advance finish depth tokens).andThen
  cases tokens with
  | nil =>
      rw [read_primary_nil]
      exact
        (follows_endPosition finish depth []).andThen
          (follows_throw finish depth [] _)
  | cons found rest =>
      obtain ⟨token, position⟩ := found
      simp only [List.length_cons] at remains followed
      cases token with
      | number value =>
          rw [read_primary_number]
          exact follows_pure finish depth rest _
      | identifier name =>
          cases variableName : Variable.ofName? name with
          | some quantity =>
              rw [read_primary_variable variableName]
              simp only [List.head?_cons, variableName]
              exact follows_pure finish depth rest _
          | none =>
              cases functionName : Function.ofName? name with
              | some function =>
                  rw [read_primary_function variableName functionName]
                  simp only [List.head?_cons, variableName, functionName]
                  exact
                    follows_call inRange function position rest (by omega)
                      fun shorter bound => followed shorter (by omega)
              | none =>
                  rw [read_primary_unknown variableName functionName]
                  simp only [List.head?_cons, variableName, functionName]
                  apply (follows_check finish depth .leftParen rest).andThen
                  split <;> exact follows_throw finish depth rest _
      | leftParen =>
          rw [read_primary_group]
          apply Follows.enterThen inRange
          intro innerInRange
          apply ((followed rest (by omega)).choice innerInRange (by omega)).bind
          intro inner afterInner _
          apply Follows.consumeThen
          intro afterGroup _
          apply (follows_leaveLevel finish depth afterGroup).andThen
          exact follows_pure finish depth afterGroup inner
      | operator _ | question | colon | rightParen | comma =>
          rw [read_primary_other rfl]
          exact follows_throw finish depth rest _

theorem unary_followed
    (tokens : List Located)
    (followed : ∀ others : List Located,
      others.length ≤ tokens.length → IsFollowedOn .primary others) :
    IsFollowedOn .unary tokens := by
  intro finish depth limit inRange (enough : 12 * tokens.length + 2 ≤ limit)
  obtain ⟨limit, rfl, remains⟩ := exists_limit enough
  rw [Phrase.parsing, unary]
  apply (follows_check finish depth (.operator .subtract) tokens).andThen
  cases signed : comesNext (.operator .subtract) tokens with
  | true =>
      obtain ⟨position, afterSign, rfl⟩ := exists_of_comesNext signed
      simp only [List.length_cons] at remains followed
      rw [read_unary_minus]
      apply (follows_advance_cons finish depth _ _).andThen
      apply (followed afterSign (by omega) finish depth limit inRange
        (by omega : 12 * afterSign.length + 1 ≤ limit)).bind
      intro positive rest _
      exact follows_pure finish depth rest (Expr.negate positive)
  | false =>
      rw [read_unary_other signed, if_neg nofun]
      exact
        followed tokens (Nat.le_refl _) finish depth limit inRange remains

theorem follows_operand
    (inRange : depth ≤ maxNesting)
    (tier : Tier)
    (tokens : List Located)
    (enough : 12 * tokens.length + 2 * tier.rank + 1 ≤ limit)
    (followed : IsFollowedOn tier.operand tokens) :
    Follows (operand limit tier) finish depth tokens
      (read finish depth tier.operand tokens) depth := by
  obtain ⟨limit, rfl, remains⟩ := exists_limit enough
  cases tier <;> exact followed finish depth limit inRange remains

theorem follows_chain
    (inRange : depth ≤ maxNesting)
    (tier : Tier)
    (left : Expr)
    (tokens : List Located)
    (enough : 12 * tokens.length + 1 ≤ limit)
    (followed : ∀ others : List Located,
      others.length ≤ tokens.length → IsFollowedOn tier.operand others) :
    Follows (chain limit tier left) finish depth tokens
      (readChain finish depth tier left tokens) depth := by
  induction limit generalizing left tokens with
  | zero => exact absurd enough (Nat.not_succ_le_zero _)
  | succ limit ih =>
      rw [chain]
      apply (follows_peek finish depth tokens).andThen
      cases tokens with
      | nil =>
          rw [readChain_nil]
          exact follows_pure finish depth [] left
      | cons mark afterMark =>
          simp only [List.head?_cons, Option.bind_some]
          simp only [List.length_cons] at enough followed
          cases own : tier.operator? mark.token with
          | none =>
              rw [readChain_of_none own]
              exact follows_pure finish depth (mark :: afterMark) left
          | some operator =>
              have small : tier.rank ≤ 3 := by cases tier <;> decide
              rw [readChain_of_some own]
              apply (follows_advance_cons finish depth _ _).andThen
              apply (follows_operand inRange tier afterMark (by omega)
                (followed afterMark (by omega))).bind
              intro right afterRight rightRead
              have fewer := length_lt_of_read rightRead
              exact
                ih (.binary operator left right) afterRight (by omega)
                  fun others bound => followed others (by omega)

theorem tier_followed
    {tier : Tier}
    (tokens : List Located)
    (followed : ∀ others : List Located,
      others.length ≤ tokens.length → IsFollowedOn tier.operand others) :
    IsFollowedOn (.tier tier) tokens := by
  intro finish depth limit inRange
    (enough : 12 * tokens.length + 2 * tier.rank + 2 ≤ limit)
  obtain ⟨limit, rfl, remains⟩ := exists_limit enough
  rw [Phrase.parsing, Parser.tier, read_tier]
  apply (follows_operand inRange tier tokens remains
    (followed tokens (Nat.le_refl _))).bind
  intro first afterFirst firstRead
  have fewer := length_lt_of_read firstRead
  exact
    follows_chain inRange tier first afterFirst (by omega) fun others bound =>
      followed others (by omega)

theorem choice_followed
    (tokens : List Located)
    (followedCondition : IsFollowedOn (.tier .comparison) tokens)
    (followed : ∀ shorter : List Located,
      shorter.length < tokens.length → IsFollowedOn .choice shorter) :
    IsFollowedOn .choice tokens := by
  intro finish depth limit inRange (enough : 12 * tokens.length + 9 ≤ limit)
  obtain ⟨limit, rfl, remains⟩ := exists_limit enough
  rw [Phrase.parsing, choice, read_choice]
  apply (followedCondition finish depth limit inRange remains).bind
  intro condition afterCondition conditionRead
  have fewer := length_lt_of_read conditionRead
  apply (follows_check finish depth .question afterCondition).andThen
  cases asks : comesNext .question afterCondition with
  | true =>
      obtain ⟨position, rest, rfl⟩ := exists_of_comesNext asks
      simp only [List.length_cons] at fewer
      apply (follows_advance_cons finish depth _ _).andThen
      apply (follows_endPosition finish depth rest).andThen
      apply Follows.enterThen inRange
      intro innerInRange
      apply ((followed rest (by omega)).choice innerInRange (by omega)).bind
      intro whenTrue afterTrue trueRead
      have fewerStill := length_lt_of_read trueRead
      apply Follows.consumeThen
      intro afterColon colonSkipped
      obtain ⟨colonPosition, rfl⟩ := eq_cons_of_skip colonSkipped
      simp only [List.length_cons] at fewerStill
      apply ((followed afterColon (by omega)).choice innerInRange
        (by omega)).bind
      intro whenFalse afterFalse _
      apply (follows_leaveLevel finish depth afterFalse).andThen
      exact follows_pure finish depth afterFalse _
  | false =>
      rw [if_neg nofun]
      split
      · rename_i shape
        dsimp only at shape
        rw [shape] at asks
        simp [comesNext] at asks
      · exact follows_pure finish depth afterCondition condition

/-- Rules of choices before fewer tokens are all that the other rules need. -/
theorem isFollowedOn_of_shorter
    (tokens : List Located)
    (choice : ∀ shorter : List Located,
      shorter.length < tokens.length → IsFollowedOn .choice shorter)
    (phrase : Phrase) :
    IsFollowedOn phrase tokens := by
  have primary (others : List Located)
      (bound : others.length ≤ tokens.length) :
      IsFollowedOn .primary others :=
    primary_followed others fun shorter less => choice shorter (by omega)
  have unary (others : List Located)
      (bound : others.length ≤ tokens.length) :
      IsFollowedOn .unary others :=
    unary_followed others fun more less => primary more (by omega)
  have product (others : List Located)
      (bound : others.length ≤ tokens.length) :
      IsFollowedOn (.tier .product) others :=
    tier_followed others fun more less => unary more (by omega)
  have sum (others : List Located)
      (bound : others.length ≤ tokens.length) :
      IsFollowedOn (.tier .sum) others :=
    tier_followed others fun more less => product more (by omega)
  have comparison : IsFollowedOn (.tier .comparison) tokens :=
    tier_followed tokens sum
  cases phrase with
  | choice => exact choice_followed tokens comparison choice
  | tier tier =>
      cases tier with
      | comparison => exact comparison
      | sum => exact sum tokens (Nat.le_refl _)
      | product => exact product tokens (Nat.le_refl _)
  | unary => exact unary tokens (Nat.le_refl _)
  | primary => exact primary tokens (Nat.le_refl _)

/-- The rule of every phrase does what reading the phrase says. -/
theorem isFollowedOn
    (phrase : Phrase)
    (tokens : List Located) :
    IsFollowedOn phrase tokens := by
  induction count : tokens.length using Nat.strongRecOn
    generalizing phrase tokens with
  | ind count shorterFollowed =>
    subst count
    exact
      isFollowedOn_of_shorter tokens
        (fun shorter less =>
          shorterFollowed shorter.length less .choice shorter rfl)
        phrase

end Parser

end IncentivePay.Formula
