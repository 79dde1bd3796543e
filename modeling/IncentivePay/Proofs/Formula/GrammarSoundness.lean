import IncentivePay.Formula.WellFormed
import IncentivePay.Proofs.Formula.GrammarSteps

/-!
# Whatever is read is a phrase

What `read` takes off the tokens derives the tree that it hands back, within
the levels that are left at its depth, and the tree is well formed.  A phrase
is read at the cost of phrases of shorter lists of tokens, or of tighter
phrases of the same list; the induction is on the number of tokens, and within
one number the phrases go from the tightest to the loosest.
-/

namespace IncentivePay.Formula

/-- Tokens consist of a phrase with a tree and the tokens after it. -/
def StartsWith
    (phrase : Phrase)
    (depth : Nat)
    (tokens : List Located)
    (tree : Expr)
    (rest : List Located) :
    Prop :=
  ∃ consumed,
    tokens = consumed ++ rest ∧
      Derives phrase (maxNesting - depth) (consumed.map Located.token) tree ∧
      tree.IsWellFormed

/-- Whatever is read as a phrase from the start of some tokens is one. -/
def IsSoundOn
    (phrase : Phrase)
    (tokens : List Located) :
    Prop :=
  ∀ ⦃finish depth : Nat⦄ ⦃tree : Expr⦄ ⦃rest : List Located⦄,
    depth ≤ maxNesting →
    read finish depth phrase tokens = .ok (tree, rest) →
    StartsWith phrase depth tokens tree rest

/-- Entering a level uses up one of those that are left. -/
theorem room_of_enter
    {depth position inner : Nat}
    (entered : enter depth position = .ok inner) :
    inner ≤ maxNesting ∧
      maxNesting - depth = (maxNesting - inner) + 1 := by
  have bounds := of_enter entered
  omega

/-! ## Arguments -/

theorem otherArguments_sound
    {finish depth : Nat}
    (inRange : depth ≤ maxNesting)
    (tokens : List Located)
    (sound : ∀ shorter : List Located,
      shorter.length < tokens.length → IsSoundOn .choice shorter)
    {others : List Expr}
    {rest : List Located}
    (succeeds : readOtherArguments finish depth tokens = .ok (others, rest)) :
    ∃ consumed,
      tokens = consumed ++ rest ∧
        Expr.AreWellFormed others ∧
        ∀ {firstTokens : List Token} {first : Expr},
          Derives .choice (maxNesting - depth) firstTokens first →
          DerivesArguments (maxNesting - depth)
            (firstTokens ++ consumed.map Located.token) (first :: others) := by
  by_cases continues : comesNext .comma tokens = true
  · obtain ⟨position, tokens, rfl⟩ := exists_of_comesNext continues
    rw [readOtherArguments_of_comma] at succeeds
    obtain ⟨⟨next, afterNext⟩, nextRead, succeeds⟩ := exists_of_bind succeeds
    obtain ⟨⟨later, afterLater⟩, laterRead, succeeds⟩ :=
      exists_of_bind succeeds
    simp only [Except.ok.injEq, Prod.mk.injEq] at succeeds
    obtain ⟨rfl, rfl⟩ := succeeds
    have fewer := length_lt_of_read nextRead
    obtain ⟨nextTokens, rfl, nextDerives, nextWellFormed⟩ :=
      sound tokens (by simp) inRange nextRead
    obtain ⟨laterTokens, rfl, laterWellFormed, laterDerives⟩ :=
      otherArguments_sound inRange afterNext
        (fun shorter bound =>
          sound shorter (by simp only [List.length_cons] at *; omega))
        laterRead
    refine ⟨⟨.comma, position⟩ :: nextTokens ++ laterTokens, by simp,
      ⟨nextWellFormed, laterWellFormed⟩, ?_⟩
    intro firstTokens first firstDerives
    simpa using
      DerivesArguments.more firstDerives (laterDerives nextDerives)
  · rw [readOtherArguments_of_other (by simpa using continues)] at succeeds
    simp only [Except.ok.injEq, Prod.mk.injEq] at succeeds
    obtain ⟨rfl, rfl⟩ := succeeds
    exact ⟨[], rfl, trivial, fun firstDerives => by
      simpa using DerivesArguments.one firstDerives⟩
termination_by tokens.length

theorem arguments_sound
    {finish depth : Nat}
    (inRange : depth ≤ maxNesting)
    (tokens : List Located)
    (sound : ∀ shorter : List Located,
      shorter.length ≤ tokens.length → IsSoundOn .choice shorter)
    {arguments : List Expr}
    {rest : List Located}
    (succeeds : readArguments finish depth tokens = .ok (arguments, rest)) :
    ∃ consumed,
      tokens = consumed ++ rest ∧
        Expr.AreWellFormed arguments ∧
        DerivesArguments (maxNesting - depth)
          (consumed.map Located.token) arguments := by
  by_cases closes : comesNext .rightParen tokens = true
  · rw [readArguments_of_rightParen closes] at succeeds
    simp only [Except.ok.injEq, Prod.mk.injEq] at succeeds
    obtain ⟨rfl, rfl⟩ := succeeds
    exact ⟨[], rfl, trivial, .none⟩
  · rw [readArguments_of_other (by simpa using closes)] at succeeds
    obtain ⟨⟨first, afterFirst⟩, firstRead, succeeds⟩ :=
      exists_of_bind succeeds
    obtain ⟨⟨others, afterOthers⟩, othersRead, succeeds⟩ :=
      exists_of_bind succeeds
    simp only [Except.ok.injEq, Prod.mk.injEq] at succeeds
    obtain ⟨rfl, rfl⟩ := succeeds
    have fewer := length_lt_of_read firstRead
    obtain ⟨firstTokens, rfl, firstDerives, firstWellFormed⟩ :=
      sound tokens (Nat.le_refl _) inRange firstRead
    obtain ⟨otherTokens, rfl, othersWellFormed, othersDerive⟩ :=
      otherArguments_sound inRange afterFirst
        (fun shorter bound => sound shorter (by omega)) othersRead
    refine ⟨firstTokens ++ otherTokens, by simp,
      ⟨firstWellFormed, othersWellFormed⟩, ?_⟩
    simpa using othersDerive firstDerives

/-! ## One lemma for each phrase -/

theorem primary_sound
    (tokens : List Located)
    (sound : ∀ shorter : List Located,
      shorter.length < tokens.length → IsSoundOn .choice shorter) :
    IsSoundOn .primary tokens := by
  intro finish depth tree rest inRange succeeds
  cases primaryStep_of_read succeeds with
  | number => exact ⟨[_], rfl, .literal, trivial⟩
  | reference =>
      exact ⟨[_], rfl, .reference, ⟨_, Variable.ofName?_name _⟩⟩
  | @group position inner tokens afterBody _ _ entered bodyRead closed =>
      obtain ⟨innerInRange, room⟩ := room_of_enter entered
      obtain ⟨closingPosition, rfl⟩ := eq_cons_of_skip closed
      obtain ⟨bodyTokens, rfl, bodyDerives, wellFormed⟩ :=
        sound tokens (by simp) innerInRange bodyRead
      refine ⟨⟨.leftParen, position⟩ ::
        bodyTokens ++ [⟨.rightParen, closingPosition⟩], by simp, ?_, wellFormed⟩
      rw [room]
      simpa using Derives.group bodyDerives
  | @call position parenPosition inner function tokens afterArguments _
      arguments entered argumentsRead closed complete =>
      obtain ⟨innerInRange, room⟩ := room_of_enter entered
      obtain ⟨closingPosition, rfl⟩ := eq_cons_of_skip closed
      obtain ⟨argumentTokens, rfl, wellFormed, derives⟩ :=
        arguments_sound innerInRange tokens
          (fun shorter bound =>
            sound shorter (by simp only [List.length_cons]; omega))
          argumentsRead
      refine ⟨⟨.identifier function.name, position⟩ ::
        ⟨.leftParen, parenPosition⟩ ::
          argumentTokens ++ [⟨.rightParen, closingPosition⟩], by simp, ?_,
        ⟨function, Function.ofName?_name function, complete⟩, wellFormed⟩
      rw [room]
      simpa using Derives.call derives

theorem unary_sound
    (tokens : List Located)
    (sound : ∀ others : List Located,
      others.length ≤ tokens.length → IsSoundOn .primary others) :
    IsSoundOn .unary tokens := by
  intro finish depth tree rest inRange succeeds
  by_cases signed : comesNext (.operator .subtract) tokens = true
  · obtain ⟨position, afterSign, rfl⟩ := exists_of_comesNext signed
    rw [read_unary_minus] at succeeds
    obtain ⟨⟨operand, afterOperand⟩, operandRead, succeeds⟩ :=
      exists_of_bind succeeds
    simp only [Except.ok.injEq, Prod.mk.injEq] at succeeds
    obtain ⟨rfl, rfl⟩ := succeeds
    obtain ⟨operandTokens, rfl, derives, wellFormed⟩ :=
      sound afterSign (by simp) inRange operandRead
    exact ⟨⟨.operator .subtract, position⟩ :: operandTokens, rfl,
      .negated derives, wellFormed⟩
  · rw [read_unary_other (by simpa using signed)] at succeeds
    obtain ⟨consumed, rfl, derives, wellFormed⟩ :=
      sound tokens (Nat.le_refl _) inRange succeeds
    exact ⟨consumed, rfl, .unsigned derives, wellFormed⟩

theorem chain_sound
    {finish depth : Nat}
    (inRange : depth ≤ maxNesting)
    {tier : Tier}
    (tokens : List Located)
    (sound : ∀ others : List Located,
      others.length ≤ tokens.length → IsSoundOn tier.operand others)
    {left tree : Expr}
    {rest : List Located}
    (succeeds : readChain finish depth tier left tokens = .ok (tree, rest)) :
    ∃ consumed,
      tokens = consumed ++ rest ∧
        (left.IsWellFormed → tree.IsWellFormed) ∧
        ∀ {leftTokens : List Token},
          Derives (.tier tier) (maxNesting - depth) leftTokens left →
          Derives (.tier tier) (maxNesting - depth)
            (leftTokens ++ consumed.map Located.token) tree := by
  cases tokens with
  | nil =>
      simp only [readChain_nil, Except.ok.injEq, Prod.mk.injEq] at succeeds
      obtain ⟨rfl, rfl⟩ := succeeds
      exact ⟨[], rfl, id, fun derives => by simpa using derives⟩
  | cons mark afterMark =>
    cases own : tier.operator? mark.token with
    | none =>
        simp only [readChain_of_none own, Except.ok.injEq, Prod.mk.injEq]
          at succeeds
        obtain ⟨rfl, rfl⟩ := succeeds
        exact ⟨[], rfl, id, fun derives => by simpa using derives⟩
    | some operator =>
        rw [readChain_of_some own] at succeeds
        obtain ⟨⟨right, afterRight⟩, rightRead, continued⟩ :=
          exists_of_bind succeeds
        obtain ⟨isOperator, rfl⟩ := ofOperator_of_operator? own
        have fewer := length_lt_of_read rightRead
        obtain ⟨rightTokens, rfl, rightDerives, rightWellFormed⟩ :=
          sound afterMark (by simp) inRange rightRead
        obtain ⟨others, rfl, wellFormed, derives⟩ :=
          chain_sound inRange afterRight
            (fun shorter bound =>
              sound shorter (by simp only [List.length_cons]; omega))
            continued
        refine ⟨mark :: rightTokens ++ others, by simp,
          fun leftWellFormed => wellFormed ⟨leftWellFormed, rightWellFormed⟩,
          ?_⟩
        intro leftTokens leftDerives
        simpa [isOperator] using derives (.binary leftDerives rightDerives)
termination_by tokens.length

theorem tier_sound
    {tier : Tier}
    (tokens : List Located)
    (sound : ∀ others : List Located,
      others.length ≤ tokens.length → IsSoundOn tier.operand others) :
    IsSoundOn (.tier tier) tokens := by
  intro finish depth tree rest inRange succeeds
  rw [read_tier] at succeeds
  obtain ⟨⟨first, afterFirst⟩, firstRead, continued⟩ := exists_of_bind succeeds
  have fewer := length_lt_of_read firstRead
  obtain ⟨firstTokens, rfl, firstDerives, firstWellFormed⟩ :=
    sound tokens (Nat.le_refl _) inRange firstRead
  obtain ⟨others, rfl, wellFormed, derives⟩ :=
    chain_sound inRange afterFirst
      (fun shorter bound => sound shorter (by omega)) continued
  refine ⟨firstTokens ++ others, by simp, ?_, wellFormed firstWellFormed⟩
  simpa using derives (.operand firstDerives)

theorem choice_sound
    (tokens : List Located)
    (soundCondition : IsSoundOn (.tier .comparison) tokens)
    (sound : ∀ shorter : List Located,
      shorter.length < tokens.length → IsSoundOn .choice shorter) :
    IsSoundOn .choice tokens := by
  intro finish depth tree rest inRange succeeds
  rw [read_choice] at succeeds
  obtain ⟨⟨condition, afterCondition⟩, conditionRead, branched⟩ :=
    exists_of_bind succeeds
  have fewer := length_lt_of_read conditionRead
  obtain ⟨conditionTokens, rfl, conditionDerives, conditionWellFormed⟩ :=
    soundCondition inRange conditionRead
  split at branched
  · rename_i position afterQuestion shape
    dsimp only at shape
    subst shape
    obtain ⟨inner, entered, branched⟩ := exists_of_bind branched
    obtain ⟨⟨whenTrue, afterTrue⟩, trueRead, branched⟩ :=
      exists_of_bind branched
    obtain ⟨afterColon, colonSkipped, branched⟩ := exists_of_bind branched
    obtain ⟨⟨whenFalse, afterFalse⟩, falseRead, branched⟩ :=
      exists_of_bind branched
    simp only [Except.ok.injEq, Prod.mk.injEq] at branched
    obtain ⟨rfl, rfl⟩ := branched
    obtain ⟨innerInRange, room⟩ := room_of_enter entered
    obtain ⟨colonPosition, rfl⟩ := eq_cons_of_skip colonSkipped
    have fewerStill := length_lt_of_read trueRead
    simp only [List.length_cons, List.length_append] at fewer fewerStill sound
    obtain ⟨trueTokens, rfl, trueDerives, trueWellFormed⟩ :=
      sound afterQuestion (by omega) innerInRange trueRead
    obtain ⟨falseTokens, rfl, falseDerives, falseWellFormed⟩ :=
      sound afterColon (by omega) innerInRange falseRead
    refine ⟨conditionTokens ++ ⟨.question, position⟩ :: trueTokens ++
        ⟨.colon, colonPosition⟩ :: falseTokens, by simp, ?_,
      conditionWellFormed, trueWellFormed, falseWellFormed⟩
    rw [room] at conditionDerives ⊢
    simpa using Derives.choice conditionDerives trueDerives falseDerives
  · simp only [Except.ok.injEq, Prod.mk.injEq] at branched
    obtain ⟨rfl, rfl⟩ := branched
    exact ⟨conditionTokens, rfl, .plain conditionDerives, conditionWellFormed⟩

/-- Whatever is read as a choice is one. -/
theorem isSoundOn_choice (tokens : List Located) :
    IsSoundOn .choice tokens := by
  induction count : tokens.length using Nat.strongRecOn generalizing tokens with
  | ind count shorterSound =>
    subst count
    have choice (shorter : List Located)
        (bound : shorter.length < tokens.length) :
        IsSoundOn .choice shorter :=
      shorterSound shorter.length bound shorter rfl
    have primary (others : List Located)
        (bound : others.length ≤ tokens.length) :
        IsSoundOn .primary others :=
      primary_sound others fun shorter less => choice shorter (by omega)
    have unary (others : List Located)
        (bound : others.length ≤ tokens.length) :
        IsSoundOn .unary others :=
      unary_sound others fun more less => primary more (by omega)
    have product (others : List Located)
        (bound : others.length ≤ tokens.length) :
        IsSoundOn (.tier .product) others :=
      tier_sound others fun more less => unary more (by omega)
    have sum (others : List Located)
        (bound : others.length ≤ tokens.length) :
        IsSoundOn (.tier .sum) others :=
      tier_sound others fun more less => product more (by omega)
    have comparison : IsSoundOn (.tier .comparison) tokens :=
      tier_sound tokens sum
    exact choice_sound tokens comparison choice

/-- Whatever is read as a phrase is one. -/
theorem isSoundOn
    (phrase : Phrase)
    (tokens : List Located) :
    IsSoundOn phrase tokens := by
  have primary (others : List Located) : IsSoundOn .primary others :=
    primary_sound others fun shorter _ => isSoundOn_choice shorter
  have unary (others : List Located) : IsSoundOn .unary others :=
    unary_sound others fun more _ => primary more
  have product (others : List Located) : IsSoundOn (.tier .product) others :=
    tier_sound others fun more _ => unary more
  have sum (others : List Located) : IsSoundOn (.tier .sum) others :=
    tier_sound others fun more _ => product more
  have comparison (others : List Located) :
      IsSoundOn (.tier .comparison) others :=
    tier_sound others fun more _ => sum more
  cases phrase with
  | choice => exact isSoundOn_choice tokens
  | tier tier =>
      cases tier with
      | comparison => exact comparison tokens
      | sum => exact sum tokens
      | product => exact product tokens
  | unary => exact unary tokens
  | primary => exact primary tokens

/-- A formula that was read derives its tree, which is well formed. -/
theorem derives_of_parseTokens
    {finish : Nat}
    {tokens : List Located}
    {tree : Expr}
    (succeeds : parseTokens finish tokens = .ok tree) :
    Derives .choice maxNesting (tokens.map Located.token) tree ∧
      tree.IsWellFormed := by
  rw [parseTokens_eq_read] at succeeds
  obtain ⟨⟨whole, rest⟩, wholeRead, finished⟩ := exists_of_bind succeeds
  obtain ⟨consumed, rfl, derives, wellFormed⟩ :=
    isSoundOn_choice tokens (Nat.zero_le _) wholeRead
  split at finished
  · rename_i nothingFollows
    dsimp only at nothingFollows
    simp only [Except.ok.injEq] at finished
    subst nothingFollows finished
    rw [List.append_nil]
    exact ⟨derives, wellFormed⟩
  · simp at finished

end IncentivePay.Formula
