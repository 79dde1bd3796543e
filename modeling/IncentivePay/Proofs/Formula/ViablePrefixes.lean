import IncentivePay.Formula.Derivation

/-!
# Which token may come next

A list of tokens is followed from the left to the right without a tree: what
is kept is the stage, whether an operand or an operator comes next, and the
phrases that are still open around it.  A token that has no successor place
cannot come there.

A phrase that is derived takes the place before an operand to the place before
an operator, with the same phrases open.  So the tokens of a formula lead to
the end of the outermost phrase, and tokens with which a formula starts lead
somewhere.
-/

namespace IncentivePay.Formula

/-- A phrase that is open: what it waits for is its colon or its parenthesis. -/
inductive Frame
  | branch
  | group
  | call
deriving DecidableEq

/-- What comes next. -/
inductive Stage
  | operand (signable : Bool)
  | arguments
  | name
  | operator
deriving DecidableEq

/--
What comes next, and the open phrases from the innermost to the outermost.
-/
structure Place where
  stage : Stage
  opened : List Frame
deriving DecidableEq

namespace Place

/-- The place before the first token. -/
def start : Place :=
  ⟨.operand true, []⟩

/-- The place after an operand's token, which may be a sign. -/
def afterOperandToken
    (signable : Bool)
    (opened : List Frame) :
    Token →
    Option Place
  | .number _ => some ⟨.operator, opened⟩
  | .identifier name =>
      if (Variable.ofName? name).isSome then
        some ⟨.operator, opened⟩
      else if (Function.ofName? name).isSome then
        some ⟨.name, opened⟩
      else
        none
  | .leftParen => some ⟨.operand true, .group :: opened⟩
  | .operator .subtract =>
      if signable then some ⟨.operand false, opened⟩ else none
  | _ => none

/-- The place after a token that follows an operand. -/
def afterOperatorToken
    (opened : List Frame) :
    Token →
    Option Place
  | .operator _ => some ⟨.operand true, opened⟩
  | .question => some ⟨.operand true, .branch :: opened⟩
  | .colon =>
      match opened with
      | .branch :: outer => some ⟨.operand true, outer⟩
      | _ => none
  | .rightParen =>
      match opened with
      | .group :: outer => some ⟨.operator, outer⟩
      | .call :: outer => some ⟨.operator, outer⟩
      | _ => none
  | .comma =>
      match opened with
      | .call :: _ => some ⟨.operand true, opened⟩
      | _ => none
  | _ => none

/-- The place after a token. -/
def advance
    (place : Place)
    (token : Token) :
    Option Place :=
  match place.stage with
  | .operand signable => afterOperandToken signable place.opened token
  | .arguments =>
      if token = .rightParen then
        afterOperatorToken place.opened token
      else
        afterOperandToken true place.opened token
  | .name =>
      if token = .leftParen then
        some ⟨.arguments, .call :: place.opened⟩
      else
        none
  | .operator => afterOperatorToken place.opened token

/-- No operator stands for an operand, other than a sign where one may stand. -/
theorem advance_operator
    {signable : Bool}
    {mark : Operator}
    (notSign : signable = true → mark ≠ .subtract)
    (opened : List Frame) :
    advance ⟨.operand signable, opened⟩ (.operator mark) = none := by
  cases mark <;> cases signable <;> simp_all [advance, afterOperandToken]

/-- The place after some tokens. -/
def run
    (place : Place)
    (tokens : List Token) :
    Option Place :=
  tokens.foldlM advance place

variable
  {place middle : Place}
  {opened : List Frame}
  {tokens others : List Token}

theorem run_nil (place : Place) : place.run [] = some place :=
  rfl

theorem run_cons
    (place : Place)
    (token : Token)
    (tokens : List Token) :
    place.run (token :: tokens) = (place.advance token).bind (run · tokens) :=
  rfl

/-- A run goes on from the place after its first token. -/
theorem run_cons_of_advance
    {token : Token}
    (first : place.advance token = some middle)
    (tokens : List Token) :
    place.run (token :: tokens) = middle.run tokens := by
  rw [run_cons, first, Option.bind_some]

theorem run_append
    (place : Place)
    (tokens others : List Token) :
    place.run (tokens ++ others) = (place.run tokens).bind (run · others) :=
  List.foldlM_append

/-- A run goes on from the place where its first part ends. -/
theorem run_append_of_run
    (first : place.run tokens = some middle)
    (others : List Token) :
    place.run (tokens ++ others) = middle.run others := by
  rw [run_append, first, Option.bind_some]

/-- What may be an argument is read like an operand. -/
theorem run_arguments
    (notEmpty : tokens ≠ [])
    (opens : tokens.head? ≠ some .rightParen) :
    run ⟨.arguments, opened⟩ tokens = run ⟨.operand true, opened⟩ tokens := by
  cases tokens with
  | nil => contradiction
  | cons token others =>
      have notClosing : token ≠ .rightParen := by simpa using opens
      rw [run_cons, run_cons]
      simp [advance, notClosing]

/-- No operand starts with a closing parenthesis. -/
theorem head?_ne_rightParen_of_run
    {signable : Bool}
    (leads : run ⟨.operand signable, opened⟩ tokens = some middle) :
    tokens.head? ≠ some .rightParen := by
  intro closes
  obtain ⟨others, rfl⟩ := List.head?_eq_some_iff.1 closes
  simp [run_cons, advance, afterOperandToken] at leads

theorem run_arguments_of_run
    {outer : List Frame}
    (leads :
      run ⟨.operand true, opened⟩ tokens = some ⟨.operator, outer⟩) :
    run ⟨.arguments, opened⟩ tokens = some ⟨.operator, outer⟩ := by
  rw [← leads]
  apply run_arguments
  · rintro rfl
    rw [run_nil] at leads
    simp at leads
  · exact head?_ne_rightParen_of_run leads

end Place

/-! ## Derivations -/

/-- No arguments have no tokens. -/
theorem DerivesArguments.eq_nil
    {room : Nat}
    {tokens : List Token}
    (derivation : DerivesArguments room tokens []) :
    tokens = [] := by
  cases derivation
  rfl

mutual

/-- A phrase takes the place of an operand to that of an operator. -/
theorem Derives.run
    {phrase : Phrase}
    {room : Nat}
    {tokens : List Token}
    {tree : Expr}
    (derivation : Derives phrase room tokens tree)
    {signable : Bool}
    (mayStart : signable = true ∨ phrase = .primary)
    (opened : List Frame) :
    Place.run ⟨.operand signable, opened⟩ tokens =
      some ⟨.operator, opened⟩ := by
  match derivation with
  | .plain tier =>
      obtain rfl : signable = true := by simpa using mayStart
      exact tier.run (.inl rfl) opened
  | .choice condition whenTrue whenFalse =>
      obtain rfl : signable = true := by simpa using mayStart
      have conditionRun := condition.run (.inl rfl) opened
      have trueRun := whenTrue.run (.inl rfl) (.branch :: opened)
      rw [List.append_assoc, Place.run_append_of_run conditionRun,
        List.cons_append, Place.run_cons_of_advance rfl,
        Place.run_append_of_run trueRun, Place.run_cons_of_advance rfl]
      exact whenFalse.run (.inl rfl) opened
  | .operand operand =>
      obtain rfl : signable = true := by simpa using mayStart
      exact operand.run (.inl rfl) opened
  | .binary left right =>
      obtain rfl : signable = true := by simpa using mayStart
      rw [Place.run_append_of_run (left.run (.inl rfl) opened),
        Place.run_cons_of_advance rfl]
      exact right.run (.inl rfl) opened
  | .unsigned primary => exact primary.run (.inr rfl) opened
  | .negated primary =>
      obtain rfl : signable = true := by simpa using mayStart
      rw [Place.run_cons_of_advance rfl]
      exact primary.run (.inr rfl) opened
  | .literal => rfl
  | .reference =>
      simp [Place.run_cons, Place.run_nil, Place.advance,
        Place.afterOperandToken]
  | .group body =>
      have bodyRun := body.run (.inl rfl) (.group :: opened)
      rw [List.cons_append, Place.run_cons_of_advance rfl,
        Place.run_append_of_run bodyRun]
      rfl
  | @Derives.call _ function tokens list arguments =>
      have called :
          Place.run ⟨.operand signable, opened⟩
              [.identifier function.name, .leftParen] =
            some ⟨.arguments, .call :: opened⟩ := by
        simp [Place.run_cons, Place.run_nil, Place.advance,
          Place.afterOperandToken]
      have closed :
          Place.run ⟨.arguments, .call :: opened⟩ (tokens ++ [.rightParen]) =
            some ⟨.operator, opened⟩ := by
        by_cases none : list = []
        · subst none
          rw [arguments.eq_nil]
          rfl
        · rw [Place.run_append_of_run
            (Place.run_arguments_of_run (arguments.run opened none))]
          rfl
      exact (Place.run_append_of_run called _).trans closed

/-- Arguments take the place of the first one to that after the last one. -/
theorem DerivesArguments.run
    {room : Nat}
    {tokens : List Token}
    {arguments : List Expr}
    (derivation : DerivesArguments room tokens arguments)
    (opened : List Frame) :
    arguments ≠ [] →
      Place.run ⟨.operand true, .call :: opened⟩ tokens =
        some ⟨.operator, .call :: opened⟩ := by
  match derivation with
  | .none => exact nofun
  | .one tree =>
      intro _
      exact tree.run (.inl rfl) (.call :: opened)
  | .more tree others =>
      intro _
      have firstRun := tree.run (.inl rfl) (.call :: opened)
      rw [Place.run_append_of_run firstRun, Place.run_cons_of_advance rfl]
      exact others.run opened nofun

end

/-- The tokens of a formula lead to the end of the outermost phrase. -/
theorem IsFormula.run
    {tokens : List Token}
    (isFormula : IsFormula tokens) :
    Place.start.run tokens = some ⟨.operator, []⟩ := by
  obtain ⟨room, tree, derivation⟩ := isFormula
  exact derivation.run (.inl rfl) []

/-- Tokens with which a formula starts lead somewhere. -/
theorem IsViable.exists_run
    {tokens : List Token}
    (isViable : IsViable tokens) :
    ∃ place, Place.start.run tokens = some place := by
  obtain ⟨others, isFormula⟩ := isViable
  have whole := isFormula.run
  rw [Place.run_append] at whole
  cases leads : Place.start.run tokens with
  | none => simp [leads] at whole
  | some place => exact ⟨place, rfl⟩

/-- A token that cannot come next ends every formula. -/
theorem not_isViable_of_advance
    {tokens : List Token}
    {place : Place}
    (leads : Place.start.run tokens = some place)
    {token : Token}
    (stops : place.advance token = none) :
    ¬ IsViable (tokens ++ [token]) := by
  intro isViable
  obtain ⟨next, goesOn⟩ := isViable.exists_run
  rw [Place.run_append_of_run leads, Place.run_cons, stops] at goesOn
  contradiction

/-- Elsewhere than at the end of the outermost phrase there is no formula. -/
theorem not_isFormula_of_run
    {tokens : List Token}
    {place : Place}
    (leads : Place.start.run tokens = some place)
    (inside : place ≠ ⟨.operator, []⟩) :
    ¬ IsFormula tokens := by
  intro isFormula
  exact inside (Option.some.inj (leads.symm.trans isFormula.run))

end IncentivePay.Formula
