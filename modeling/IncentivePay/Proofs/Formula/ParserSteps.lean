import IncentivePay.Formula.Parser
import IncentivePay.Proofs.Formula.GrammarSteps

/-!
# The steps of the machine

An action of the machine follows a reading when it stops, gives what the
reading gives, and stands before the tokens that the reading leaves; on its way
it keeps the tokens, moves forward only, looks at nothing behind the place
where it stops, raises its counter to one level too deep at most and never
lowers it from nought.  One action after the other follows one reading after
the other, so each rule is compared with its grammar function line by line.
-/

namespace IncentivePay.Formula

/--
The event is none that the machine must avoid before it stops at a cursor.
-/
def ParserEvent.IsSafe (cursor : Nat) : ParserEvent → Prop
  | .looked index => index ≤ cursor
  | .entered depth => depth ≤ maxNesting + 1
  | .left depth => 0 < depth

/-- The level of the counter after an event. -/
def ParserEvent.levelAfter : ParserEvent → (depth : Nat) → Nat
  | .looked _, depth => depth
  | .entered depth, _ => depth
  | .left depth, _ => depth - 1

theorem ParserEvent.IsSafe.mono
    {event : ParserEvent}
    {cursor later : Nat}
    (isSafe : event.IsSafe cursor)
    (forward : cursor ≤ later) :
    event.IsSafe later := by
  cases event with
  | looked index => exact Nat.le_trans isSafe forward
  | entered depth => exact isSafe
  | left depth => exact isSafe

namespace Parser

/-! ## What one run does -/

/-- The machine stands at a level, before these tokens. -/
structure IsAt
    (parser : Parser)
    (finish depth : Nat)
    (tokens : List Located) :
    Prop where
  finish : parser.finish = finish
  depth : parser.depth = depth
  inside : parser.cursor ≤ parser.tokens.length
  remaining : parser.tokens.drop parser.cursor = tokens

/-- The run of an action stops, and what it may do before. -/
structure Goes
    {Value : Type}
    (start : Parser)
    (action : Parsing Value)
    (result : Except SyntaxError Value)
    (final : Parser) :
    Prop where
  stops : start.run action = some (result, final)
  keepsTokens : final.tokens = start.tokens
  keepsFinish : final.finish = start.finish
  forward : start.cursor ≤ final.cursor
  inside : final.cursor ≤ start.tokens.length
  recorded :
    ∃ events,
      final.events = events ++ start.events ∧
        events.foldr ParserEvent.levelAfter start.depth = final.depth ∧
        ∀ event ∈ events, event.IsSafe final.cursor
  unseen :
    ∀ others,
      others.take (final.cursor + 1) = start.tokens.take (final.cursor + 1) →
      run { start with tokens := others } action =
        some (result, { final with tokens := others })

/--
From wherever the tokens come next, the action does what the reading says.
-/
def Follows
    {Value : Type}
    (action : Parsing Value)
    (finish depth : Nat)
    (tokens : List Located)
    (reading : Except SyntaxError (Value × List Located))
    (stop : Nat) :
    Prop :=
  ∀ start : Parser,
    start.IsAt finish depth tokens →
    ∃ final,
      start.Goes action (reading.map Prod.fst) final ∧
        ∀ value rest,
          reading = .ok (value, rest) → final.IsAt finish stop rest

variable
  {Value Result : Type}
  {start middle final : Parser}
  {finish depth between stop : Nat}
  {tokens : List Located}

/-! ## One action after the other -/

theorem run_bind_of_ok
    {first : Parsing Value}
    {next : Value → Parsing Result}
    {value : Value}
    (runs : start.run first = some (.ok value, middle)) :
    start.run (first >>= next) = middle.run (next value) := by
  unfold run at runs ⊢
  rw [ExceptT.run_bind, StateT.run_bind, runs]
  rfl

theorem run_bind_of_error
    {first : Parsing Value}
    {next : Value → Parsing Result}
    {error : SyntaxError}
    (runs : start.run first = some (.error error, middle)) :
    start.run (first >>= next) = some (.error error, middle) := by
  unfold run at runs ⊢
  rw [ExceptT.run_bind, StateT.run_bind, runs]
  rfl

theorem take_eq_take_of_le
    {tokens others : List Located}
    {count more : Nat}
    (same : others.take more = tokens.take more)
    (atMost : count ≤ more) :
    others.take count = tokens.take count := by
  rw [← Nat.min_eq_left atMost, ← List.take_take, ← List.take_take, same]

theorem Goes.bind
    {first : Parsing Value}
    {next : Value → Parsing Result}
    {value : Value}
    {result : Except SyntaxError Result}
    (goes : start.Goes first (.ok value) middle)
    (goesOn : middle.Goes (next value) result final) :
    start.Goes (first >>= next) result final where
  stops := (run_bind_of_ok goes.stops).trans goesOn.stops
  keepsTokens := goesOn.keepsTokens.trans goes.keepsTokens
  keepsFinish := goesOn.keepsFinish.trans goes.keepsFinish
  forward := Nat.le_trans goes.forward goesOn.forward
  inside := goes.keepsTokens ▸ goesOn.inside
  recorded := by
    obtain ⟨events, earlier, counted, areSafe⟩ := goes.recorded
    obtain ⟨moreEvents, later, countedToo, areSafeToo⟩ := goesOn.recorded
    refine
      ⟨moreEvents ++ events, by rw [later, earlier, List.append_assoc],
        by rw [List.foldr_append, counted, countedToo], ?_⟩
    intro event member
    rcases List.mem_append.1 member with member | member
    · exact areSafeToo event member
    · exact (areSafe event member).mono goesOn.forward
  unseen := by
    intro others same
    have atMost := goesOn.forward
    have earlier := goes.unseen others (take_eq_take_of_le same (by omega))
    rw [← goes.keepsTokens] at same
    exact (run_bind_of_ok earlier).trans (goesOn.unseen others same)

theorem Goes.bind_error
    {first : Parsing Value}
    {error : SyntaxError}
    (goes : start.Goes first (.error error) final)
    (next : Value → Parsing Result) :
    start.Goes (first >>= next) (.error error) final where
  stops := run_bind_of_error goes.stops
  keepsTokens := goes.keepsTokens
  keepsFinish := goes.keepsFinish
  forward := goes.forward
  inside := goes.inside
  recorded := goes.recorded
  unseen others same := run_bind_of_error (goes.unseen others same)

/-- After an action that does not fail, what follows decides. -/
theorem Follows.andThen
    {first : Parsing Value}
    {next : Value → Parsing Result}
    {value : Value}
    {rest : List Located}
    {reading : Except SyntaxError (Result × List Located)}
    (follows : Follows first finish depth tokens (.ok (value, rest)) between)
    (followsOn : Follows (next value) finish between rest reading stop) :
    Follows (first >>= next) finish depth tokens reading stop := by
  intro start isAt
  obtain ⟨middle, goes, arrives⟩ := follows start isAt
  obtain ⟨final, goesOn, arrivesToo⟩ :=
    followsOn middle (arrives value rest rfl)
  exact ⟨final, goes.bind goesOn, arrivesToo⟩

/-- After an action that fails, nothing is done. -/
theorem Follows.failed
    {first : Parsing Value}
    {error : SyntaxError}
    (follows : Follows first finish depth tokens (.error error) between)
    (next : Value → Parsing Result) :
    Follows (first >>= next) finish depth tokens (.error error) stop := by
  intro start isAt
  obtain ⟨middle, goes, -⟩ := follows start isAt
  exact ⟨middle, goes.bind_error next, nofun⟩

theorem Follows.bind
    {first : Parsing Value}
    {next : Value → Parsing Result}
    {reading : Except SyntaxError (Value × List Located)}
    {readingOn :
      Value × List Located → Except SyntaxError (Result × List Located)}
    (follows : Follows first finish depth tokens reading between)
    (followsOn :
      ∀ value rest,
        reading = .ok (value, rest) →
        Follows (next value) finish between rest (readingOn (value, rest))
          stop) :
    Follows (first >>= next) finish depth tokens (reading >>= readingOn)
      stop := by
  cases reading with
  | error error => exact follows.failed next
  | ok read => exact follows.andThen (followsOn read.1 read.2 rfl)

/-! ## Single actions -/

/-- An action that gives its result at once leaves the machine as it is. -/
theorem IsAt.goes_nowhere
    {action : Parsing Value}
    {result : Except SyntaxError Value}
    (isAt : start.IsAt finish depth tokens)
    (stops :
      ∀ others,
        run { start with tokens := others } action =
          some (result, { start with tokens := others })) :
    start.Goes action result start where
  stops := stops start.tokens
  keepsTokens := rfl
  keepsFinish := rfl
  forward := Nat.le_refl start.cursor
  inside := isAt.inside
  recorded := ⟨[], rfl, rfl, nofun⟩
  unseen others _ := stops others

theorem follows_pure
    (finish depth : Nat)
    (tokens : List Located)
    (value : Value) :
    Follows (pure value) finish depth tokens (.ok (value, tokens)) depth := by
  intro start isAt
  refine ⟨start, isAt.goes_nowhere fun _ => rfl, ?_⟩
  rintro _ _ ⟨⟩
  exact isAt

theorem follows_throw
    (finish depth : Nat)
    (tokens : List Located)
    (error : SyntaxError) :
    Follows (throw error : Parsing Value) finish depth tokens (.error error)
      stop := by
  intro start isAt
  exact ⟨start, isAt.goes_nowhere fun _ => rfl, nofun⟩

/-- The token at the cursor is seen among any tokens that agree so far. -/
theorem getElem?_eq_of_take_eq
    {tokens others : List Located}
    {cursor : Nat}
    (same : others.take (cursor + 1) = tokens.take (cursor + 1)) :
    others[cursor]? = tokens[cursor]? := by
  rw [← List.getElem?_take_of_lt (Nat.lt_succ_self cursor), same,
    List.getElem?_take_of_lt (Nat.lt_succ_self cursor)]

theorem IsAt.getElem?_cursor (isAt : start.IsAt finish depth tokens) :
    start.tokens[start.cursor]? = tokens.head? := by
  rw [← isAt.remaining, List.head?_drop]

theorem follows_peek
    (finish depth : Nat)
    (tokens : List Located) :
    Follows peek finish depth tokens (.ok (tokens.head?, tokens)) depth := by
  intro start isAt
  let final : Parser :=
    { start with events := .looked start.cursor :: start.events }
  refine
    ⟨final,
      ⟨?_, rfl, rfl, Nat.le_refl _, isAt.inside, ⟨[_], rfl, rfl, ?_⟩, ?_⟩, ?_⟩
  · rw [← isAt.getElem?_cursor]
    rfl
  · simp [ParserEvent.IsSafe, final]
  · intro others same
    rw [← isAt.getElem?_cursor, ← getElem?_eq_of_take_eq same]
    rfl
  · rintro _ _ ⟨⟩
    exact ⟨isAt.finish, isAt.depth, isAt.inside, isAt.remaining⟩

theorem follows_endPosition
    (finish depth : Nat)
    (tokens : List Located) :
    Follows endPosition finish depth tokens (.ok (finish, tokens)) depth := by
  intro start isAt
  have gives (others : List Located) :
      run { start with tokens := others } endPosition =
        some (.ok finish, { start with tokens := others }) := by
    rw [← isAt.finish]
    rfl
  refine ⟨start, isAt.goes_nowhere gives, ?_⟩
  rintro _ _ ⟨⟩
  exact isAt

theorem follows_forward
    (finish depth : Nat)
    (next : Located)
    (tokens : List Located) :
    Follows (modify fun parser => { parser with cursor := parser.cursor + 1 })
      finish depth (next :: tokens) (.ok ((), tokens)) depth := by
  intro start isAt
  have room : start.cursor < start.tokens.length := by
    apply Nat.lt_of_not_le
    intro atEnd
    have remaining := isAt.remaining
    rw [List.drop_of_length_le atEnd] at remaining
    contradiction
  refine
    ⟨{ start with cursor := start.cursor + 1 },
      ⟨rfl, rfl, rfl, Nat.le_succ _, room, ⟨[], rfl, rfl, nofun⟩, fun _ _ => rfl⟩,
      ?_⟩
  rintro _ _ ⟨⟩
  refine ⟨isAt.finish, isAt.depth, room, ?_⟩
  rw [← List.tail_drop, isAt.remaining, List.tail_cons]

theorem follows_advance
    (finish depth : Nat)
    (tokens : List Located) :
    Follows advance finish depth tokens (.ok (tokens.head?, tokens.tail))
      depth := by
  unfold advance
  apply (follows_peek finish depth tokens).andThen
  cases tokens with
  | nil => exact follows_pure finish depth [] none
  | cons next tokens =>
      apply (follows_forward finish depth next tokens).andThen
      exact follows_pure finish depth tokens (some next)

theorem follows_advance_cons
    (finish depth : Nat)
    (next : Located)
    (tokens : List Located) :
    Follows advance finish depth (next :: tokens) (.ok (some next, tokens))
      depth :=
  follows_advance finish depth (next :: tokens)

theorem follows_check
    (finish depth : Nat)
    (token : Token)
    (tokens : List Located) :
    Follows (check token) finish depth tokens
      (.ok (comesNext token tokens, tokens)) depth :=
  (follows_peek finish depth tokens).andThen
    (follows_pure finish depth tokens _)

theorem follows_currentPosition
    (finish depth : Nat)
    (tokens : List Located) :
    Follows currentPosition finish depth tokens
      (.ok (nextPosition finish tokens, tokens)) depth := by
  unfold currentPosition
  apply (follows_peek finish depth tokens).andThen
  cases tokens with
  | nil => exact follows_endPosition finish depth []
  | cons next tokens => exact follows_pure finish depth _ _

theorem follows_consume
    (finish depth : Nat)
    (wanted : Token)
    (tokens : List Located) :
    Follows (consume wanted) finish depth tokens
      ((skip finish wanted tokens).map fun rest => ((), rest)) depth := by
  unfold consume
  apply (follows_advance finish depth tokens).andThen
  cases tokens with
  | nil =>
      exact
        (follows_endPosition finish depth []).andThen
          (follows_throw finish depth [] _)
  | cons found rest =>
      simp only [List.head?_cons, List.tail_cons, skip, expect]
      split
      · exact follows_pure finish depth rest ()
      · exact follows_throw finish depth rest _

/-- The state in which the counter was raised. -/
def raised (parser : Parser) : Parser :=
  { parser with
    depth := parser.depth + 1
    events := .entered (parser.depth + 1) :: parser.events }

theorem run_enterLevel
    (start : Parser)
    (position : Nat) :
    start.run (enterLevel position) =
      some ((enter start.depth position).map fun _ => (), start.raised) := by
  change
    start.raised.run
      (if maxNesting < start.depth + 1 then
        throw ⟨.tooDeep maxNesting, position⟩
      else
        pure ()) =
      _
  rcases Nat.lt_or_ge start.depth maxNesting with room | full
  · rw [enter_of_lt room, if_neg (Nat.not_lt.2 room)]
    rfl
  · rw [enter_of_le full, if_pos (Nat.lt_succ_of_le full)]
    rfl

theorem follows_enterLevel
    (inRange : depth ≤ maxNesting)
    (finish position : Nat)
    (tokens : List Located) :
    Follows (enterLevel position) finish depth tokens
      ((enter depth position).map fun _ => ((), tokens)) (depth + 1) := by
  intro start isAt
  have notTooHigh : start.depth + 1 ≤ maxNesting + 1 :=
    Nat.succ_le_succ (isAt.depth ▸ inRange)
  refine
    ⟨start.raised,
      ⟨?_, rfl, rfl, Nat.le_refl _, isAt.inside, ⟨[_], rfl, rfl, ?_⟩, ?_⟩, ?_⟩
  · rw [run_enterLevel, isAt.depth]
    cases enter depth position <;> rfl
  · rintro event (_ | ⟨_, ⟨⟩⟩)
    exact notTooHigh
  · intro others _
    rw [run_enterLevel, ← isAt.depth]
    cases enter start.depth position <;> rfl
  · intro _ rest entered
    cases enters : enter depth position with
    | error error =>
        rw [enters] at entered
        contradiction
    | ok inner =>
        rw [enters] at entered
        obtain ⟨⟩ := entered
        exact
          ⟨isAt.finish, congrArg (· + 1) isAt.depth, isAt.inside,
            isAt.remaining⟩

theorem follows_leaveLevel
    (finish depth : Nat)
    (tokens : List Located) :
    Follows leaveLevel finish (depth + 1) tokens (.ok ((), tokens)) depth := by
  intro start isAt
  have raised : 0 < start.depth := by
    rw [isAt.depth]
    exact Nat.succ_pos depth
  refine
    ⟨{ start with
        depth := start.depth - 1
        events := .left start.depth :: start.events },
      ⟨rfl, rfl, rfl, Nat.le_refl _, isAt.inside, ⟨[_], rfl, rfl, ?_⟩,
        fun _ _ => rfl⟩,
      ?_⟩
  · rintro event (_ | ⟨_, ⟨⟩⟩)
    exact raised
  · rintro _ _ ⟨⟩
    exact
      ⟨isAt.finish, by rw [isAt.depth, Nat.add_sub_cancel], isAt.inside,
        isAt.remaining⟩

theorem Follows.consumeThen
    {wanted : Token}
    {next : Unit → Parsing Result}
    {readingOn : List Located → Except SyntaxError (Result × List Located)}
    (followsOn :
      ∀ rest,
        skip finish wanted tokens = .ok rest →
        Follows (next ()) finish depth rest (readingOn rest) stop) :
    Follows (consume wanted >>= next) finish depth tokens
      (skip finish wanted tokens >>= readingOn) stop := by
  have follows := follows_consume finish depth wanted tokens
  cases skips : skip finish wanted tokens with
  | error error =>
      rw [skips] at follows
      exact follows.failed next
  | ok rest =>
      rw [skips] at follows
      exact follows.andThen (followsOn rest skips)

theorem Follows.enterThen
    {position : Nat}
    {next : Unit → Parsing Result}
    {readingOn : Nat → Except SyntaxError (Result × List Located)}
    (inRange : depth ≤ maxNesting)
    (followsOn :
      depth + 1 ≤ maxNesting →
      Follows (next ()) finish (depth + 1) tokens (readingOn (depth + 1))
        stop) :
    Follows (enterLevel position >>= next) finish depth tokens
      (enter depth position >>= readingOn) stop := by
  have follows := follows_enterLevel inRange finish position tokens
  cases enters : enter depth position with
  | error error =>
      rw [enters] at follows
      exact follows.failed next
  | ok inner =>
      rw [enters] at follows
      obtain ⟨rfl, room⟩ := of_enter enters
      exact follows.andThen (followsOn room)

end Parser

end IncentivePay.Formula
