import IncentivePay.Proofs.Formula.ParserRules

/-!
# The discipline of the machine

Wherever the cursor stands and at whichever level, a rule of the machine stops.
If it succeeds, it leaves the tokens and the counter as it found them, the
cursor has moved forward, and nothing behind the cursor was looked at, so that
other tokens there make no difference.  The counter never passes the level that
is too deep by one, and it is never lowered from nought.
-/

namespace IncentivePay.Formula

namespace Parser

/--
A rule of the machine: that of a phrase, or that of a call after its name.
-/
inductive Rule
  | phrase (phrase : Phrase)
  | call (function : Function) (position : Nat)

namespace Rule

/-- The action of a rule. -/
def parsing : Rule → (limit : Nat) → Parsing Expr
  | .phrase kind, limit => kind.parsing limit
  | .call function position, limit => Parser.call limit function position

/-- The grammar function of a rule. -/
def reading
    (finish depth : Nat)
    (tokens : List Located) :
    Rule →
    Except SyntaxError (Expr × List Located)
  | .phrase kind => read finish depth kind tokens
  | .call function position => readCall finish depth function position tokens

theorem length_lt_of_reading
    {rule : Rule}
    {finish depth : Nat}
    {tokens rest : List Located}
    {tree : Expr}
    (succeeds : rule.reading finish depth tokens = .ok (tree, rest)) :
    rest.length < tokens.length := by
  cases rule with
  | phrase kind => exact length_lt_of_read succeeds
  | call function position => exact length_lt_of_outcome succeeds

/-- A rule does what its grammar function says. -/
theorem follows
    (rule : Rule)
    {finish depth limit : Nat}
    (inRange : depth ≤ maxNesting)
    (tokens : List Located)
    (enough : 12 * tokens.length + 9 ≤ limit) :
    Follows (rule.parsing limit) finish depth tokens
      (rule.reading finish depth tokens) depth := by
  cases rule with
  | phrase kind =>
      apply isFollowedOn kind tokens finish depth limit inRange
      refine Nat.le_trans ?_ enough
      cases kind with
      | tier tier => cases tier <;> simp [Phrase.room]
      | choice | unary | primary => simp [Phrase.room]
  | call function position =>
      exact
        follows_call inRange function position tokens (by omega)
          fun shorter _ => isFollowedOn .choice shorter

end Rule

/-- What was read succeeded with some tokens left. -/
theorem exists_of_map_fst
    {reading : Except SyntaxError (Expr × List Located)}
    {tree : Expr}
    (succeeds : reading.map Prod.fst = .ok tree) :
    ∃ rest, reading = .ok (tree, rest) := by
  cases reading with
  | error error => contradiction
  | ok read =>
      obtain ⟨⟩ := succeeds
      exact ⟨read.2, rfl⟩

/--
From wherever the cursor is among the tokens, it stands before the others.
-/
theorem isAt_self
    {start : Parser}
    (inside : start.cursor ≤ start.tokens.length) :
    start.IsAt start.finish start.depth (start.tokens.drop start.cursor) :=
  ⟨rfl, rfl, inside, rfl⟩

/-- Fewer tokens are left behind a cursor that was moved forward. -/
theorem cursor_lt_of_length_lt
    {start final : Parser}
    (sameTokens : final.tokens = start.tokens)
    (fewer :
      (final.tokens.drop final.cursor).length <
        (start.tokens.drop start.cursor).length) :
    start.cursor < final.cursor := by
  rw [sameTokens, List.length_drop, List.length_drop] at fewer
  omega

/--
A rule stops with what its grammar function gives, as long as a dozen rules for
each token may be open.  On its way the counter goes one level too deep at
most, and is lowered only where it was raised.  A rule that succeeds keeps the
tokens and the counter, moves the cursor forward to where the grammar function
leaves off, and looks at no token behind it, so that it does the same whatever
comes there.
-/
theorem run_disciplined
    (rule : Rule)
    (start : Parser)
    (inside : start.cursor ≤ start.tokens.length)
    (inRange : start.depth ≤ maxNesting)
    (limit : Nat)
    (enough : 12 * start.tokens.length + 9 ≤ limit) :
    let reading :=
      rule.reading start.finish start.depth (start.tokens.drop start.cursor)
    ∃ result final events,
      start.run (rule.parsing limit) = some (result, final) ∧
        result = reading.map Prod.fst ∧
        final.events = events ++ start.events ∧
        events.foldr ParserEvent.levelAfter start.depth = final.depth ∧
        (∀ depth, .entered depth ∈ events → depth ≤ maxNesting + 1) ∧
        (∀ depth, .left depth ∈ events → 0 < depth) ∧
        ∀ tree,
          result = .ok tree →
          final.tokens = start.tokens ∧
            final.depth = start.depth ∧
            start.cursor < final.cursor ∧
            final.cursor ≤ start.tokens.length ∧
            reading = .ok (tree, start.tokens.drop final.cursor) ∧
            (∀ index, .looked index ∈ events → index ≤ final.cursor) ∧
            ∀ others,
              others.take (final.cursor + 1) =
                start.tokens.take (final.cursor + 1) →
              run { start with tokens := others } (rule.parsing limit) =
                some (.ok tree, { final with tokens := others }) := by
  intro reading
  have enoughHere :
      12 * (start.tokens.drop start.cursor).length + 9 ≤ limit := by
    rw [List.length_drop]
    omega
  obtain ⟨final, goes, arrives⟩ :=
    rule.follows inRange _ enoughHere start (isAt_self inside)
  obtain ⟨events, recorded, counted, areSafe⟩ := goes.recorded
  refine
    ⟨reading.map Prod.fst, final, events, goes.stops, rfl, recorded, counted,
      fun depth => areSafe (.entered depth), fun depth => areSafe (.left depth),
      ?_⟩
  intro tree succeeds
  obtain ⟨rest, reads⟩ := exists_of_map_fst succeeds
  have arrived := arrives tree rest reads
  have remaining := arrived.remaining
  have fewer := Rule.length_lt_of_reading reads
  rw [← remaining] at fewer
  refine
    ⟨goes.keepsTokens, arrived.depth,
      cursor_lt_of_length_lt goes.keepsTokens fewer, goes.inside, ?_,
      fun index => areSafe (.looked index), ?_⟩
  · rw [reads, ← remaining, goes.keepsTokens]
  · intro others same
    rw [← succeeds]
    exact goes.unseen others same

/-- One half in parentheses before a comma, at the level before the last. -/
def beforeComma : Parser where
  tokens :=
    [⟨.leftParen, 0⟩, ⟨.number .half, 1⟩, ⟨.rightParen, 4⟩, ⟨.comma, 5⟩]
  finish := 6
  cursor := 0
  depth := 49
  events := []

/--
The group is read at the last level, and nothing behind the comma is looked
at.
-/
theorem run_disciplined_beforeComma :
    ∃ tree final,
      beforeComma.run (choice 57) = some (.ok tree, final) ∧
        final.depth = 49 ∧
        final.cursor = 3 ∧
        run { beforeComma with tokens := beforeComma.tokens ++ [⟨.colon, 6⟩] }
            (choice 57) =
          some
            (.ok tree,
              { final with tokens := beforeComma.tokens ++ [⟨.colon, 6⟩] }) := by
  obtain ⟨result, final, events, stops, -, -, -, -, -, onSuccess⟩ :=
    run_disciplined (.phrase .choice) beforeComma (by decide) (by decide) 57
      (by decide)
  simp only [Rule.parsing, Phrase.parsing] at stops onSuccess
  have succeeds :
      ((beforeComma.run (choice 57)).map fun stop => stop.1.isOk) =
        some true := by
    decide +kernel
  have moves :
      ((beforeComma.run (choice 57)).map fun stop => stop.2.cursor) =
        some 3 := by
    decide +kernel
  rw [stops] at succeeds moves
  cases result with
  | error error => exact absurd (Option.some.inj succeeds) Bool.false_ne_true
  | ok tree =>
      have atComma : final.cursor = 3 := Option.some.inj moves
      obtain ⟨-, depth, -, -, -, -, unseen⟩ := onSuccess tree rfl
      refine ⟨tree, final, stops, depth, atComma, unseen _ ?_⟩
      rw [atComma]
      rfl

end Parser

end IncentivePay.Formula
