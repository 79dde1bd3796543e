import IncentivePay.Proofs.Formula.Cuts
import IncentivePay.Proofs.Formula.GrammarSoundness

/-!
# Whatever is not read is cut

Each phrase that is not read is cut: its error says why the tokens do not go on
from some place inside of it.  The parts of a phrase before the one that fails
were read, so they derive their trees and lead from one place to the next, and
the cut of the failing part is one of the phrase.  The induction is that of the
soundness of reading: on the number of tokens, and within one number from the
tightest phrase to the loosest.
-/

namespace IncentivePay.Formula

/-- Where a phrase may be read: a sign is left only where it may stand. -/
def Phrase.MayStart
    (phrase : Phrase)
    (signable : Bool)
    (tokens : List Located) :
    Prop :=
  match phrase with
  | .primary =>
      signable = true → comesNext (.operator .subtract) tokens = false
  | _ => signable = true

/-- Whatever is not read as a phrase from the start of some tokens is cut. -/
def IsCutOn
    (phrase : Phrase)
    (tokens : List Located) :
    Prop :=
  ∀ ⦃finish depth : Nat⦄ ⦃error : SyntaxError⦄ ⦃signable : Bool⦄,
    depth ≤ maxNesting →
    phrase.MayStart signable tokens →
    read finish depth phrase tokens = .error error →
    ∀ opened,
      IsCut finish (phrase.CompletesIn (maxNesting - depth))
        ⟨.operand signable, opened⟩ tokens error

/-- A phrase that was read leads to the place after it. -/
theorem exists_of_read
    {finish depth : Nat}
    {phrase : Phrase}
    {tokens rest : List Located}
    {tree : Expr}
    (inRange : depth ≤ maxNesting)
    (succeeds : read finish depth phrase tokens = .ok (tree, rest)) :
    ∃ consumed,
      tokens = consumed ++ rest ∧
        Derives phrase (maxNesting - depth) (consumed.map Located.token) tree ∧
        ∀ opened,
          Place.run ⟨.operand true, opened⟩ (consumed.map Located.token) =
            some ⟨.operator, opened⟩ := by
  obtain ⟨consumed, rfl, derivation, -⟩ := isSoundOn phrase tokens inRange succeeds
  exact ⟨consumed, rfl, derivation, derivation.run (.inl rfl)⟩

/-! ## Arguments -/

/-- Arguments after the first one that are not read. -/
theorem otherArguments_cut
    {finish depth : Nat}
    (inRange : depth ≤ maxNesting)
    (tokens : List Located)
    (cut : ∀ shorter : List Located,
      shorter.length < tokens.length → IsCutOn .choice shorter)
    {error : SyntaxError}
    (fails : readOtherArguments finish depth tokens = .error error)
    (opened : List Frame) :
    IsCut finish
      (fun before =>
        ∀ {firstTokens : List Token} {first : Expr},
          Derives .choice (maxNesting - depth) firstTokens first →
          ∃ others arguments,
            DerivesArguments (maxNesting - depth)
              (firstTokens ++ before ++ others) (first :: arguments))
      ⟨.operator, .call :: opened⟩ tokens error := by
  by_cases continues : comesNext .comma tokens = true
  · obtain ⟨position, tokens, rfl⟩ := exists_of_comesNext continues
    rw [readOtherArguments_of_comma] at fails
    rcases error_of_bind fails with
      nextFails | ⟨⟨next, afterNext⟩, nextRead, fails⟩
    -- What completes the next argument completes the arguments.
    · have nextCut := cut tokens (by simp) inRange rfl nextFails (.call :: opened)
      refine nextCut.after [⟨.comma, position⟩] rfl ?_
      rintro before ⟨others, next, nextDerives⟩ firstTokens first firstDerives
      refine ⟨others, [next], ?_⟩
      simpa using DerivesArguments.more firstDerives (.one nextDerives)
    -- For those after it, the next argument is in the place of the first one.
    · have laterFails := error_of_bind_ok fails
      have fewer := length_lt_of_read nextRead
      obtain ⟨nextTokens, rfl, nextDerives, nextRun⟩ :=
        exists_of_read inRange nextRead
      have laterCut :=
        otherArguments_cut inRange afterNext
          (fun shorter bound =>
            cut shorter (by simp only [List.length_cons] at *; omega))
          laterFails opened
      refine laterCut.after (⟨.comma, position⟩ :: nextTokens) ?_ ?_
      · exact nextRun (.call :: opened)
      · intro before completes firstTokens first firstDerives
        obtain ⟨others, arguments, laterDerive⟩ := completes nextDerives
        refine ⟨others, next :: arguments, ?_⟩
        simpa using DerivesArguments.more firstDerives laterDerive
  · rw [readOtherArguments_of_other (by simpa using continues)] at fails
    contradiction
termination_by tokens.length

/-- Arguments that are not read. -/
theorem arguments_cut
    {finish depth : Nat}
    (inRange : depth ≤ maxNesting)
    (tokens : List Located)
    (cut : ∀ shorter : List Located,
      shorter.length ≤ tokens.length → IsCutOn .choice shorter)
    {error : SyntaxError}
    (fails : readArguments finish depth tokens = .error error)
    (opened : List Frame) :
    IsCut finish (ArgumentsCompleteIn (maxNesting - depth))
      ⟨.arguments, .call :: opened⟩ tokens error := by
  by_cases closes : comesNext .rightParen tokens = true
  · rw [readArguments_of_rightParen closes] at fails
    contradiction
  · have opens : comesNext .rightParen tokens = false := by simpa using closes
    rw [readArguments_of_other opens] at fails
    rcases error_of_bind fails with
      firstFails | ⟨⟨first, afterFirst⟩, firstRead, fails⟩
    · have firstCut :=
        cut tokens (Nat.le_refl _) inRange rfl firstFails (.call :: opened)
      refine (firstCut.arguments opens).mono ?_
      rintro before ⟨others, first, firstDerives⟩
      exact ⟨others, [first], .one firstDerives⟩
    · have othersFail := error_of_bind_ok fails
      have fewer := length_lt_of_read firstRead
      obtain ⟨firstTokens, rfl, firstDerives, firstRun⟩ :=
        exists_of_read inRange firstRead
      have othersCut :=
        otherArguments_cut inRange afterFirst
          (fun shorter bound => cut shorter (by omega)) othersFail opened
      refine othersCut.after firstTokens ?_ ?_
      · exact Place.run_arguments_of_run (firstRun (.call :: opened))
      · intro before completes
        obtain ⟨others, arguments, derive⟩ := completes firstDerives
        exact ⟨others, first :: arguments, derive⟩

/-- Arguments end before something that does not continue the last one. -/
theorem otherArguments_end
    {finish depth : Nat}
    (tokens : List Located)
    (ends : Phrase.choice.MayEnd tokens)
    {others : List Expr}
    {rest : List Located}
    (succeeds : readOtherArguments finish depth tokens = .ok (others, rest)) :
    Phrase.choice.MayEnd rest ∧ comesNext .comma rest = false := by
  by_cases continues : comesNext .comma tokens = true
  · obtain ⟨position, tokens, rfl⟩ := exists_of_comesNext continues
    rw [readOtherArguments_of_comma] at succeeds
    obtain ⟨⟨next, afterNext⟩, nextRead, succeeds⟩ := exists_of_bind succeeds
    obtain ⟨⟨later, afterLater⟩, laterRead, succeeds⟩ :=
      exists_of_bind succeeds
    simp only [Except.ok.injEq, Prod.mk.injEq] at succeeds
    obtain ⟨-, rfl⟩ := succeeds
    have fewer := length_lt_of_read nextRead
    exact otherArguments_end afterNext (mayEnd_of_read tokens nextRead) laterRead
  · have noComma : comesNext .comma tokens = false := by simpa using continues
    rw [readOtherArguments_of_other noComma] at succeeds
    simp only [Except.ok.injEq, Prod.mk.injEq] at succeeds
    obtain ⟨-, rfl⟩ := succeeds
    exact ⟨ends, noComma⟩
termination_by tokens.length
decreasing_by
  subst_vars
  exact Nat.lt_succ_of_lt fewer

/-- Arguments that were read lead to a place where the call has to be closed. -/
theorem exists_of_readArguments
    {finish depth : Nat}
    {tokens rest : List Located}
    {arguments : List Expr}
    (inRange : depth ≤ maxNesting)
    (succeeds : readArguments finish depth tokens = .ok (arguments, rest))
    (opened : List Frame) :
    ∃ consumed reached,
      tokens = consumed ++ rest ∧
        DerivesArguments (maxNesting - depth)
          (consumed.map Located.token) arguments ∧
        Place.run ⟨.arguments, .call :: opened⟩
            (consumed.map Located.token) =
          some reached ∧
        ∀ {before : List Token} {error : SyntaxError},
          skip finish .rightParen rest = .error error →
          Halts finish reached before rest error := by
  obtain ⟨consumed, rfl, -, derivation⟩ :=
    arguments_sound inRange tokens (fun shorter _ => isSoundOn_choice shorter)
      succeeds
  by_cases closes : comesNext .rightParen (consumed ++ rest) = true
  · rw [readArguments_of_rightParen closes] at succeeds
    simp only [Except.ok.injEq, Prod.mk.injEq] at succeeds
    obtain ⟨rfl, isRest⟩ := succeeds
    obtain rfl : consumed = [] := by simpa using isRest
    -- There are none because the call is closed, so the closing cannot fail.
    refine ⟨[], _, rfl, .none, rfl, fun fails => ?_⟩
    obtain ⟨position, others, rfl⟩ := exists_of_comesNext closes
    rw [skip_cons_same] at fails
    contradiction
  · rw [readArguments_of_other (by simpa using closes)] at succeeds
    obtain ⟨⟨first, afterFirst⟩, firstRead, succeeds⟩ := exists_of_bind succeeds
    obtain ⟨⟨others, afterOthers⟩, othersRead, succeeds⟩ :=
      exists_of_bind succeeds
    simp only [Except.ok.injEq, Prod.mk.injEq] at succeeds
    obtain ⟨rfl, rfl⟩ := succeeds
    have firstEnds := mayEnd_of_read _ firstRead
    obtain ⟨ends, noComma⟩ := otherArguments_end afterFirst firstEnds othersRead
    have leads := derivation.run opened (List.cons_ne_nil _ _)
    exact
      ⟨consumed, _, rfl, derivation, Place.run_arguments_of_run leads,
        fun fails => halts_of_skip .call ends (fun _ => noComma) fails opened⟩

/-! ## One lemma for each phrase -/

/-- A call that is not read, behind the name of its function. -/
theorem call_cut
    {finish depth position parenPosition : Nat}
    {function : Function}
    (tokens : List Located)
    (cut : ∀ shorter : List Located,
      shorter.length ≤ tokens.length → IsCutOn .choice shorter)
    {error : SyntaxError}
    (fails :
      read finish depth .primary
          (⟨.identifier function.name, position⟩ ::
            ⟨.leftParen, parenPosition⟩ :: tokens) =
        .error error)
    (signable : Bool)
    (opened : List Frame) :
    IsCut finish (Phrase.primary.CompletesIn (maxNesting - depth))
      ⟨.operand signable, opened⟩
      (⟨.identifier function.name, position⟩ ::
        ⟨.leftParen, parenPosition⟩ :: tokens)
      error := by
  have called :
      Place.run ⟨.operand signable, opened⟩
          [.identifier function.name, .leftParen] =
        some ⟨.arguments, .call :: opened⟩ := by
    simp [Place.run_cons, Place.run_nil, Place.advance,
      Place.afterOperandToken]
  rw [read_primary_call function.variable_ofName?_name
    (Function.ofName?_name function)] at fails
  rcases error_of_bind fails with enterFails | ⟨inner, entered, insideFails⟩
  · obtain rfl := enter_eq_error enterFails
    exact .here .tooDeep (.nil _ _)
  obtain ⟨innerInRange, room⟩ := room_of_enter entered
  rw [room]
  rcases error_of_bind insideFails with
    argumentsFail | ⟨⟨arguments, afterArguments⟩, argumentsRead, closingFails⟩
  · have argumentsCut :=
      arguments_cut innerInRange tokens cut argumentsFail opened
    exact
      argumentsCut.after
        [⟨.identifier function.name, position⟩, ⟨.leftParen, parenPosition⟩]
        called fun _ completes => completes.call function
  obtain ⟨argumentTokens, reached, rfl, derivation, leads, unclosedHalts⟩ :=
    exists_of_readArguments innerInRange argumentsRead opened
  have halts :
      Halts finish reached
        (.identifier function.name :: .leftParen ::
          argumentTokens.map Located.token)
        afterArguments error := by
    rcases error_of_bind closingFails with
      unclosed | ⟨afterCall, closed, countFails⟩
    · exact unclosedHalts unclosed
    · obtain ⟨closingPosition, rfl⟩ := eq_cons_of_skip closed
      split at countFails
      · contradiction
      · rename_i miscounted
        obtain rfl := Except.error.inj countFails
        exact
          .wrongArgumentCount
            ⟨[], _, _, arguments, rfl, derivation, rfl, miscounted⟩
  exact
    ⟨⟨.identifier function.name, position⟩ ::
        ⟨.leftParen, parenPosition⟩ :: argumentTokens,
      afterArguments, reached, rfl,
      (ArgumentsCompleteIn.of_derives derivation).call function,
      (Place.run_append_of_run called _).trans leads, halts⟩

/-- A name that is not read: it is unknown, not called, or wrongly called. -/
theorem identifier_cut
    {finish depth position : Nat}
    {name : String}
    (tokens : List Located)
    (cut : ∀ shorter : List Located,
      shorter.length ≤ tokens.length → IsCutOn .choice shorter)
    {error : SyntaxError}
    (fails :
      read finish depth .primary (⟨.identifier name, position⟩ :: tokens) =
        .error error)
    (signable : Bool)
    (opened : List Frame) :
    IsCut finish (Phrase.primary.CompletesIn (maxNesting - depth))
      ⟨.operand signable, opened⟩ (⟨.identifier name, position⟩ :: tokens)
      error := by
  cases variableName : Variable.ofName? name with
  | some quantity =>
      rw [read_primary_variable variableName] at fails
      contradiction
  | none =>
    cases functionName : Function.ofName? name with
    | none =>
        rw [read_primary_unknown variableName functionName] at fails
        obtain rfl := Except.error.inj fails
        exact .here (halts_of_unknown variableName functionName) (.nil _ _)
    | some function =>
      obtain rfl := Function.name_of_ofName? functionName
      cases called : comesNext .leftParen tokens with
      | false =>
          rw [read_primary_uncalled variableName functionName called] at fails
          obtain rfl := Except.error.inj fails
          exact .here (.functionNotCalled called) (.nil _ _)
      | true =>
          obtain ⟨parenPosition, tokens, rfl⟩ := exists_of_comesNext called
          exact
            call_cut tokens
              (fun shorter bound => cut shorter (Nat.le_succ_of_le bound))
              fails signable opened

/-- A group that is not read. -/
theorem group_cut
    {finish depth position : Nat}
    (tokens : List Located)
    (cut : IsCutOn .choice tokens)
    {error : SyntaxError}
    (fails :
      read finish depth .primary (⟨.leftParen, position⟩ :: tokens) =
        .error error)
    (signable : Bool)
    (opened : List Frame) :
    IsCut finish (Phrase.primary.CompletesIn (maxNesting - depth))
      ⟨.operand signable, opened⟩ (⟨.leftParen, position⟩ :: tokens) error := by
  rw [read_primary_group] at fails
  rcases error_of_bind fails with enterFails | ⟨inner, entered, insideFails⟩
  · obtain rfl := enter_eq_error enterFails
    exact .here .tooDeep (.nil _ _)
  obtain ⟨innerInRange, room⟩ := room_of_enter entered
  rw [room]
  rcases error_of_bind insideFails with
    bodyFails | ⟨⟨body, afterBody⟩, bodyRead, closingFails⟩
  · have bodyCut := cut innerInRange rfl bodyFails (.group :: opened)
    exact
      bodyCut.after [⟨.leftParen, position⟩] rfl
        fun _ completes => completes.group
  · have ends := mayEnd_of_read tokens bodyRead
    obtain ⟨bodyTokens, rfl, derivation, leads⟩ :=
      exists_of_read innerInRange bodyRead
    exact
      ⟨⟨.leftParen, position⟩ :: bodyTokens, afterBody, _, rfl,
        (Phrase.CompletesIn.of_derives derivation).group,
        leads (.group :: opened),
        halts_of_skip .group ends nofun (error_of_bind_ok closingFails) opened⟩

theorem primary_cut
    (tokens : List Located)
    (cut : ∀ shorter : List Located,
      shorter.length < tokens.length → IsCutOn .choice shorter) :
    IsCutOn .primary tokens := by
  intro finish depth error signable inRange mayStart fails opened
  cases tokens with
  | nil =>
      rw [read_primary_nil] at fails
      obtain rfl := Except.error.inj fails
      exact .here (.unexpectedEnd (by simp)) (.nil _ _)
  | cons found rest =>
    obtain ⟨token, position⟩ := found
    cases token with
    | number value =>
        rw [read_primary_number] at fails
        contradiction
    | identifier name =>
        exact
          identifier_cut rest (fun shorter bound => cut shorter (by simp; omega))
            fails signable opened
    | leftParen => exact group_cut rest (cut rest (by simp)) fails signable opened
    | operator mark =>
        rw [read_primary_other rfl] at fails
        obtain rfl := Except.error.inj fails
        have notSign : signable = true → mark ≠ .subtract := by
          simpa [Phrase.MayStart, comesNext] using mayStart
        exact
          .here (.unexpectedToken (Place.advance_operator notSign opened))
            (.nil _ _)
    | question | colon | rightParen | comma =>
        rw [read_primary_other rfl] at fails
        obtain rfl := Except.error.inj fails
        exact .here (.unexpectedToken rfl) (.nil _ _)

theorem unary_cut
    (tokens : List Located)
    (cut : ∀ others : List Located,
      others.length ≤ tokens.length → IsCutOn .primary others) :
    IsCutOn .unary tokens := by
  intro finish depth error signable inRange mayStart fails opened
  obtain rfl : signable = true := mayStart
  by_cases signed : comesNext (.operator .subtract) tokens = true
  · obtain ⟨position, afterSign, rfl⟩ := exists_of_comesNext signed
    rw [read_unary_minus] at fails
    have mayStart : Phrase.primary.MayStart false afterSign := by
      intro mayBeSigned
      contradiction
    have operandCut :=
      cut afterSign (by simp) inRange mayStart (error_of_bind_ok fails) opened
    refine operandCut.after [⟨.operator .subtract, position⟩] rfl ?_
    rintro before ⟨others, operand, derivation⟩
    exact ⟨others, _, .negated derivation⟩
  · have unsigned : comesNext (.operator .subtract) tokens = false := by
      simpa using signed
    rw [read_unary_other unsigned] at fails
    have mayStart : Phrase.primary.MayStart true tokens := fun _ => unsigned
    have operandCut :=
      cut tokens (Nat.le_refl _) inRange mayStart fails opened
    refine operandCut.mono ?_
    rintro before ⟨others, operand, derivation⟩
    exact ⟨others, operand, .unsigned derivation⟩

/-- Operands of a tier after the first one that are not read. -/
theorem chain_cut
    {finish depth : Nat}
    (inRange : depth ≤ maxNesting)
    {tier : Tier}
    (tokens : List Located)
    (cut : ∀ others : List Located,
      others.length ≤ tokens.length → IsCutOn tier.operand others)
    {left : Expr}
    {error : SyntaxError}
    (fails : readChain finish depth tier left tokens = .error error)
    (opened : List Frame) :
    IsCut finish
      (fun before =>
        ∀ {leftTokens : List Token},
          Derives (.tier tier) (maxNesting - depth) leftTokens left →
          (Phrase.tier tier).CompletesIn (maxNesting - depth)
            (leftTokens ++ before))
      ⟨.operator, opened⟩ tokens error := by
  cases tokens with
  | nil => simp at fails
  | cons mark afterMark =>
    cases own : tier.operator? mark.token with
    | none =>
        rw [readChain_of_none own] at fails
        contradiction
    | some operator =>
      rw [readChain_of_some own] at fails
      obtain ⟨token, position⟩ := mark
      obtain ⟨isOperator, rfl⟩ := ofOperator_of_operator? own
      obtain rfl : token = .operator operator := isOperator
      rcases error_of_bind fails with
        rightFails | ⟨⟨right, afterRight⟩, rightRead, laterFails⟩
      · have mayStart (operator : Operator) :
            (Tier.ofOperator operator).operand.MayStart true afterMark := by
          cases operator <;> rfl
        have rightCut :=
          cut afterMark (by simp) inRange (mayStart operator) rightFails opened
        refine rightCut.after [⟨.operator operator, position⟩] rfl ?_
        rintro before ⟨others, right, rightDerives⟩ leftTokens leftDerives
        refine ⟨others, .binary operator left right, ?_⟩
        simpa using Derives.binary leftDerives rightDerives
      · have fewer := length_lt_of_read rightRead
        obtain ⟨rightTokens, rfl, rightDerives, rightRun⟩ :=
          exists_of_read inRange rightRead
        have laterCut :=
          chain_cut inRange afterRight
            (fun shorter bound =>
              cut shorter (by simp only [List.length_cons]; omega))
            laterFails opened
        refine
          laterCut.after (⟨.operator operator, position⟩ :: rightTokens)
            (rightRun opened) ?_
        intro before completes leftTokens leftDerives
        simpa using completes (.binary leftDerives rightDerives)
termination_by tokens.length

theorem tier_cut
    {tier : Tier}
    (tokens : List Located)
    (cut : ∀ others : List Located,
      others.length ≤ tokens.length → IsCutOn tier.operand others) :
    IsCutOn (.tier tier) tokens := by
  intro finish depth error signable inRange mayStart fails opened
  obtain rfl : signable = true := mayStart
  rw [read_tier] at fails
  rcases error_of_bind fails with
    firstFails | ⟨⟨first, afterFirst⟩, firstRead, laterFails⟩
  · have mayStart : tier.operand.MayStart true tokens := by cases tier <;> rfl
    have firstCut := cut tokens (Nat.le_refl _) inRange mayStart firstFails opened
    refine firstCut.mono ?_
    rintro before ⟨others, first, derivation⟩
    exact ⟨others, first, .operand derivation⟩
  · have fewer := length_lt_of_read firstRead
    obtain ⟨firstTokens, rfl, derivation, leads⟩ :=
      exists_of_read inRange firstRead
    have laterCut :=
      chain_cut inRange afterFirst (fun shorter bound => cut shorter (by omega))
        laterFails opened
    exact
      laterCut.after firstTokens (leads opened)
        fun _ completes => completes (.operand derivation)

/-- Branches that are not read, behind their condition. -/
theorem branches_cut
    {finish depth position : Nat}
    {conditionTokens : List Token}
    {condition : Expr}
    (derivation :
      Derives (.tier .comparison) (maxNesting - depth) conditionTokens
        condition)
    (tokens : List Located)
    (cut : ∀ shorter : List Located,
      shorter.length ≤ tokens.length → IsCutOn .choice shorter)
    {error : SyntaxError}
    (fails : (do
      let inner ← enter depth position
      let whenTrue ← read finish inner .choice tokens
      let afterColon ← skip finish .colon whenTrue.2
      let whenFalse ← read finish inner .choice afterColon
      .ok (Expr.choice condition whenTrue.1 whenFalse.1, whenFalse.2)) =
        .error error)
    (opened : List Frame) :
    IsCut finish
      (fun before =>
        Phrase.choice.CompletesIn (maxNesting - depth)
          (conditionTokens ++ before))
      ⟨.operator, opened⟩ (⟨.question, position⟩ :: tokens) error := by
  rcases error_of_bind fails with enterFails | ⟨inner, entered, insideFails⟩
  · obtain rfl := enter_eq_error enterFails
    refine .here .tooDeep ?_
    rw [List.append_nil]
    exact .of_derives (.plain derivation)
  obtain ⟨innerInRange, room⟩ := room_of_enter entered
  rw [room] at derivation ⊢
  rcases error_of_bind insideFails with
    trueFails | ⟨⟨whenTrue, afterTrue⟩, trueRead, afterFails⟩
  · have trueCut :=
      cut tokens (Nat.le_refl _) innerInRange rfl trueFails (.branch :: opened)
    exact
      trueCut.after [⟨.question, position⟩] rfl
        fun _ completes => completes.afterQuestion derivation
  have ends := mayEnd_of_read tokens trueRead
  have fewer := length_lt_of_read trueRead
  obtain ⟨trueTokens, rfl, trueDerives, trueRun⟩ :=
    exists_of_read innerInRange trueRead
  rcases error_of_bind afterFails with
    uncoloned | ⟨afterColon, colonSkipped, falseFails⟩
  · exact
      ⟨⟨.question, position⟩ :: trueTokens, afterTrue, _, rfl,
        (Phrase.CompletesIn.of_derives trueDerives).afterQuestion derivation,
        trueRun (.branch :: opened),
        halts_of_skip .branch ends nofun uncoloned opened⟩
  · obtain ⟨colonPosition, rfl⟩ := eq_cons_of_skip colonSkipped
    have falseCut :=
      cut afterColon (by simp only [List.length_cons] at fewer; omega)
        innerInRange rfl (error_of_bind_ok falseFails) opened
    have leads :
        Place.run ⟨.operator, opened⟩
            (.question :: trueTokens.map Located.token ++ [.colon]) =
          some ⟨.operand true, opened⟩ := by
      exact (Place.run_append_of_run (trueRun (.branch :: opened)) _).trans rfl
    -- The colon closes the branch, so the other one is read where it started.
    have behindColon :
        (⟨.question, position⟩ : Located) ::
            (trueTokens ++ ⟨.colon, colonPosition⟩ :: afterColon) =
          (⟨.question, position⟩ :: trueTokens ++ [⟨.colon, colonPosition⟩]) ++
            afterColon := by
      simp
    rw [behindColon]
    refine falseCut.after _ (by simpa using leads) ?_
    intro before completes
    simpa using completes.afterColon derivation trueDerives

theorem choice_cut
    (tokens : List Located)
    (cutCondition : IsCutOn (.tier .comparison) tokens)
    (cut : ∀ shorter : List Located,
      shorter.length < tokens.length → IsCutOn .choice shorter) :
    IsCutOn .choice tokens := by
  intro finish depth error signable inRange mayStart fails opened
  obtain rfl : signable = true := mayStart
  rw [read_choice] at fails
  rcases error_of_bind fails with
    conditionFails | ⟨⟨condition, afterCondition⟩, conditionRead, branchesFail⟩
  · have conditionCut := cutCondition inRange rfl conditionFails opened
    refine conditionCut.mono ?_
    rintro before ⟨others, condition, derivation⟩
    exact ⟨others, condition, .plain derivation⟩
  · have fewer := length_lt_of_read conditionRead
    obtain ⟨conditionTokens, rfl, derivation, leads⟩ :=
      exists_of_read inRange conditionRead
    split at branchesFail
    · rename_i position afterQuestion shape
      dsimp only at shape
      subst shape
      have branchesCut :=
        branches_cut derivation afterQuestion
          (fun shorter bound =>
            cut shorter (by simp only [List.length_cons] at fewer; omega))
          branchesFail opened
      exact
        branchesCut.after conditionTokens (leads opened) fun _ completes =>
          completes
    · contradiction

/-- Whatever is not read as a choice is cut. -/
theorem isCutOn_choice (tokens : List Located) :
    IsCutOn .choice tokens := by
  induction count : tokens.length using Nat.strongRecOn generalizing tokens with
  | ind count shorterCut =>
    subst count
    have choice (shorter : List Located)
        (bound : shorter.length < tokens.length) :
        IsCutOn .choice shorter :=
      shorterCut shorter.length bound shorter rfl
    have primary (others : List Located)
        (bound : others.length ≤ tokens.length) :
        IsCutOn .primary others :=
      primary_cut others fun shorter less => choice shorter (by omega)
    have unary (others : List Located)
        (bound : others.length ≤ tokens.length) :
        IsCutOn .unary others :=
      unary_cut others fun more less => primary more (by omega)
    have product (others : List Located)
        (bound : others.length ≤ tokens.length) :
        IsCutOn (.tier .product) others :=
      tier_cut others fun more less => unary more (by omega)
    have sum (others : List Located)
        (bound : others.length ≤ tokens.length) :
        IsCutOn (.tier .sum) others :=
      tier_cut others fun more less => product more (by omega)
    have comparison : IsCutOn (.tier .comparison) tokens :=
      tier_cut tokens sum
    exact choice_cut tokens comparison choice

/-- Tokens that are not a formula are cut where the error points. -/
theorem isCut_of_parseTokens
    {finish : Nat}
    {tokens : List Located}
    {error : SyntaxError}
    (fails : parseTokens finish tokens = .error error) :
    IsCut finish IsViable .start tokens error := by
  rw [parseTokens_eq_read] at fails
  rcases error_of_bind fails with
    wholeFails | ⟨⟨whole, rest⟩, wholeRead, trailingFails⟩
  · have wholeCut :=
      isCutOn_choice tokens (Nat.zero_le _) rfl wholeFails []
    refine wholeCut.mono ?_
    rintro before ⟨others, tree, derivation⟩
    exact ⟨others, _, tree, derivation⟩
  · have ends := mayEnd_of_read tokens wholeRead
    obtain ⟨consumed, rfl, derivation, leads⟩ :=
      exists_of_read (Nat.zero_le _) wholeRead
    have viable : IsViable (consumed.map Located.token) :=
      ⟨[], _, whole, by rwa [List.append_nil]⟩
    split at trailingFails
    · contradiction
    · rename_i found position others shape
      dsimp only at shape
      subst shape
      obtain rfl := Except.error.inj trailingFails
      exact
        ⟨consumed, _, _, rfl, viable, leads [], halts_of_trailing ends finish⟩

end IncentivePay.Formula
