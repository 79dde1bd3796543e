import IncentivePay.Formula.Derivation
import IncentivePay.Proofs.Formula.Lexemes

/-!
# Parentheses in a text and in its derivations

The bounds on a text are checked on its characters, before there are any
tokens: every opening parenthesis counts a level there and every closing one
takes it back.  The parentheses of a text are those of its tokens, so
`opensTooDeep` says the same of the tokens.  A derivation within some room
leaves the levels as it found them and never goes deeper than its room, which
is why that check refuses no text that has a derivation.
-/

namespace IncentivePay.Formula

/-- Some opening parenthesis of the tokens opens a level too deep. -/
def opensTooDeep (depth : Nat) : List Token → Bool
  | [] => false
  | .leftParen :: rest =>
      if depth < maxNesting then opensTooDeep (depth + 1) rest else true
  | .rightParen :: rest => opensTooDeep (depth - 1) rest
  | _ :: rest => opensTooDeep depth rest

/-- No character is a parenthesis. -/
def HasNoParens (characters : List Char) : Prop :=
  ∀ character ∈ characters, character ≠ '(' ∧ character ≠ ')'

/-! ## The parentheses of a lexeme -/

/-- Characters of a kind to which no parenthesis belongs. -/
theorem hasNoParens_of_all
    {kind : Char → Bool}
    {characters : List Char}
    (areOfKind : ∀ character ∈ characters, kind character = true)
    (notOpening : kind '(' = false)
    (notClosing : kind ')' = false) :
    HasNoParens characters := by
  intro character member
  constructor
  · rintro rfl
    simp [areOfKind _ member] at notOpening
  · rintro rfl
    simp [areOfKind _ member] at notClosing

/-- A lexeme is one parenthesis or has none. -/
theorem IsLexeme.parens
    {lexeme : List Char}
    {token : Token}
    (isLexeme : IsLexeme lexeme token) :
    (lexeme = ['('] ∧ token = .leftParen) ∨
      (lexeme = [')'] ∧ token = .rightParen) ∨
      (HasNoParens lexeme ∧ token ≠ .leftParen ∧ token ≠ .rightParen) := by
  rcases isLexeme.isMark_or_isWord with isMark | ⟨isWord, notParen⟩
  · have ofMarks :
        ∀ mark ∈ marks,
          (mark.1 = ['('] ∧ mark.2 = .leftParen) ∨
            (mark.1 = [')'] ∧ mark.2 = .rightParen) ∨
            (mark.1.all (fun character => character ≠ '(' ∧ character ≠ ')') ∧
              mark.2 ≠ .leftParen ∧ mark.2 ≠ .rightParen) := by
      decide
    rcases ofMarks _ isMark with opening | closing | ⟨noParens, notParen⟩
    · exact .inl opening
    · exact .inr (.inl closing)
    · exact .inr (.inr ⟨by simpa [HasNoParens] using noParens, notParen⟩)
  · have noParens : HasNoParens lexeme :=
      hasNoParens_of_all (List.all_eq_true.1 isWord) (by decide) (by decide)
    exact .inr (.inr ⟨noParens, notParen⟩)

/-! ## The parentheses of a text -/

theorem overNested?_of_hasNoParens
    {characters : List Char}
    (noParens : HasNoParens characters)
    (depth position : Nat)
    (rest : List Char) :
    overNested? depth position (characters ++ rest) =
      overNested? depth (position + characters.length) rest := by
  induction characters generalizing position with
  | nil => rfl
  | cons character others ih =>
    have first := noParens character (List.mem_cons_self)
    have inOthers : HasNoParens others := fun other member =>
      noParens other (List.mem_cons_of_mem _ member)
    rw [List.cons_append, overNested?, if_neg first.1, if_neg first.2,
      ih inOthers, List.length_cons]
    congr 1
    omega

theorem opensTooDeep_of_ne
    {token : Token}
    (notOpening : token ≠ .leftParen)
    (notClosing : token ≠ .rightParen)
    (depth : Nat)
    (rest : List Token) :
    opensTooDeep depth (token :: rest) = opensTooDeep depth rest := by
  cases token <;> first | rfl | contradiction

/-- The characters of a text open a level too deep when its tokens do. -/
theorem Spells.isSome_overNested?
    {characters : List Char}
    {tokens : List Token}
    (spells : Spells characters tokens)
    (depth position : Nat) :
    (overNested? depth position characters).isSome =
      opensTooDeep depth tokens := by
  induction spells generalizing depth position with
  | finished => rfl
  | @blank character rest tokens isBlank _ ih =>
      have noParens : HasNoParens [character] :=
        hasNoParens_of_all (by simpa using isBlank) (by decide) (by decide)
      rw [← ih depth (position + 1)]
      exact
        congrArg Option.isSome
          (overNested?_of_hasNoParens noParens depth position rest)
  | lexeme isLexeme _ ih =>
      rcases isLexeme.parens with
        ⟨rfl, rfl⟩ | ⟨rfl, rfl⟩ | ⟨noParens, notOpening, notClosing⟩
      · by_cases fits : depth < maxNesting
        · simpa [overNested?, opensTooDeep, fits] using
            ih (depth + 1) (position + 1)
        · simp [overNested?, opensTooDeep, fits]
      · simpa [overNested?, opensTooDeep] using ih (depth - 1) (position + 1)
      · rw [overNested?_of_hasNoParens noParens, ih,
          opensTooDeep_of_ne notOpening notClosing]

/-! ## The parentheses of a derivation -/

mutual

/--
A derivation within the room below a level leaves the levels as they were.
-/
theorem Derives.opensTooDeep_append
    {phrase : Phrase}
    {room : Nat}
    {tokens : List Token}
    {tree : Expr}
    (derivation : Derives phrase room tokens tree)
    {depth : Nat}
    (fits : depth + room ≤ maxNesting)
    (rest : List Token) :
    opensTooDeep depth (tokens ++ rest) = opensTooDeep depth rest := by
  match derivation with
  | .plain tier => exact tier.opensTooDeep_append fits rest
  | .choice condition whenTrue whenFalse =>
      have belowFits : depth + _ ≤ maxNesting := Nat.le_of_succ_le fits
      simp only [List.append_assoc, List.cons_append]
      rw [condition.opensTooDeep_append fits, opensTooDeep,
        whenTrue.opensTooDeep_append belowFits, opensTooDeep,
        whenFalse.opensTooDeep_append belowFits]
      · exact nofun
      · exact nofun
      · exact nofun
      · exact nofun
  | .operand operand => exact operand.opensTooDeep_append fits rest
  | .binary left right =>
      rw [List.append_assoc, left.opensTooDeep_append fits]
      exact right.opensTooDeep_append fits rest
  | .unsigned primary => exact primary.opensTooDeep_append fits rest
  | .negated primary => exact primary.opensTooDeep_append fits rest
  | .literal => rfl
  | .reference => rfl
  | @Derives.group inner _ _ body =>
      have enters : depth < maxNesting := by omega
      have innerFits : depth + 1 + inner ≤ maxNesting := by omega
      simp only [List.cons_append, List.append_assoc, opensTooDeep, enters,
        if_true, List.nil_append]
      rw [body.opensTooDeep_append innerFits]
      rfl
  | @Derives.call inner _ _ _ arguments =>
      have enters : depth < maxNesting := by omega
      have innerFits : depth + 1 + inner ≤ maxNesting := by omega
      simp only [List.cons_append, List.append_assoc, opensTooDeep, enters,
        if_true, List.nil_append]
      rw [arguments.opensTooDeep_append innerFits]
      rfl

/-- A derivation of arguments leaves the levels as they were. -/
theorem DerivesArguments.opensTooDeep_append
    {room : Nat}
    {tokens : List Token}
    {arguments : List Expr}
    (derivation : DerivesArguments room tokens arguments)
    {depth : Nat}
    (fits : depth + room ≤ maxNesting)
    (rest : List Token) :
    opensTooDeep depth (tokens ++ rest) = opensTooDeep depth rest := by
  match derivation with
  | .none => rfl
  | .one tree => exact tree.opensTooDeep_append fits rest
  | .more tree others =>
      rw [List.append_assoc, tree.opensTooDeep_append fits]
      exact others.opensTooDeep_append fits rest

end

/-- The check before the reading refuses no text that has a derivation. -/
theorem overNested?_eq_none_of_derives
    {characters : List Char}
    {tokens : List Token}
    {tree : Expr}
    (spells : Spells characters tokens)
    (derivation : Derives .choice maxNesting tokens tree) :
    overNested? 0 0 characters = none := by
  have same := spells.isSome_overNested? 0 0
  have kept := derivation.opensTooDeep_append (Nat.le_of_eq (Nat.zero_add _)) []
  rw [List.append_nil] at kept
  rw [kept] at same
  simpa [opensTooDeep] using same

end IncentivePay.Formula
