import IncentivePay.Proofs.Formula.DerivedTrees
import IncentivePay.Proofs.Formula.GrammarCompleteness
import IncentivePay.Proofs.Formula.Openings

/-!
# The texts that the parser accepts

`HasReading text tokens tree` puts together what makes a text a formula: it is
short enough, it has these tokens, all of them derive the tree within the
levels that there are, and the tree is well formed.  The parser accepts a text
exactly when it has a reading, and the tree it delivers is that of the
reading.  The checks that come before the reading are only a shortcut: no
text with a reading is blank, and none has a parenthesis too deep.
-/

namespace IncentivePay.Formula

/-- A text is short enough, and all its tokens derive a well-formed tree. -/
structure HasReading
    (text : String)
    (tokens : List Located)
    (tree : Expr) :
    Prop where
  short : text.length ≤ maxLength
  scanned : tokenize text = .ok tokens
  derives : Derives .choice maxNesting (tokens.map Located.token) tree
  wellFormed : tree.IsWellFormed

/-! ## The checks before the reading -/

theorem isBlankText_eq_false_of_tokenize
    {text : String}
    {tokens : List Located}
    (scanned : tokenize text = .ok tokens)
    (nonempty : tokens ≠ []) :
    isBlankText text = false := by
  rw [Bool.eq_false_iff]
  intro blank
  have nothing : tokenize text = .ok [] := scanFrom_of_all_isBlank blank 0
  rw [scanned, Except.ok.injEq] at nothing
  exact nonempty nothing

theorem isBlankText_eq_false_of_derives
    {text : String}
    {tokens : List Located}
    {phrase : Phrase}
    {room : Nat}
    {tree : Expr}
    (scanned : tokenize text = .ok tokens)
    (derivation : Derives phrase room (tokens.map Located.token) tree) :
    isBlankText text = false := by
  apply isBlankText_eq_false_of_tokenize scanned
  rintro rfl
  exact derivation.ne_nil rfl

theorem overNested?_eq_none_of_tokenize
    {text : String}
    {tokens : List Located}
    {tree : Expr}
    (scanned : tokenize text = .ok tokens)
    (derivation :
      Derives .choice maxNesting (tokens.map Located.token) tree) :
    overNested? 0 0 text.toList = none :=
  overNested?_eq_none_of_derives (spells_of_scanFrom scanned) derivation

namespace HasReading

variable
  {text : String}
  {tokens : List Located}
  {tree : Expr}

theorem checkBounds_eq_ok (reading : HasReading text tokens tree) :
    checkBounds text = .ok () := by
  have notBlank :=
    isBlankText_eq_false_of_derives reading.scanned reading.derives
  have notOver :=
    overNested?_eq_none_of_tokenize reading.scanned reading.derives
  have notLong := Nat.not_lt.2 reading.short
  simp [checkBounds, notLong, notBlank, notOver]

theorem parse_eq_ok (reading : HasReading text tokens tree) :
    parse text = .ok tree := by
  have read :=
    parseTokens_of_derives reading.derives reading.wellFormed text.length
  unfold parse
  rw [reading.checkBounds_eq_ok, reading.scanned]
  exact read

/-- A short text has a reading when its tokens are read within the levels. -/
theorem of_isReadAs
    {levels : Nat}
    (short : text.length ≤ maxLength)
    (scanned : tokenize text = .ok tokens)
    (isRead : IsReadAs .choice levels (tokens.map Located.token) tree)
    (shallow : levels ≤ maxNesting) :
    HasReading text tokens tree := by
  have read : parseTokens 0 tokens = .ok tree :=
    (isRead.parseTokens_answers 0).fits (by omega)
  obtain ⟨derives, wellFormed⟩ := derives_of_parseTokens read
  exact ⟨short, scanned, derives, wellFormed⟩

end HasReading

theorem exists_hasReading_of_parse
    {text : String}
    {tree : Expr}
    (parsed : parse text = .ok tree) :
    ∃ tokens, HasReading text tokens tree := by
  obtain ⟨bounded, tokens, scanned, derives, wellFormed⟩ :=
    exists_derivation_of_parse parsed
  exact
    ⟨tokens, length_le_of_checkBounds bounded, scanned, derives, wellFormed⟩

/-! ## Uniqueness -/

/-- The same tokens have no two trees. -/
theorem eq_of_derives
    {tokens : List Token}
    {first second : Expr}
    (derivesFirst : Derives .choice maxNesting tokens first)
    (firstWellFormed : first.IsWellFormed)
    (derivesSecond : Derives .choice maxNesting tokens second)
    (secondWellFormed : second.IsWellFormed) :
    first = second := by
  -- The positions of the tokens do not matter to the reading.
  have located :
      (tokens.map fun token => Located.mk token 0).map Located.token =
        tokens := by
    rw [List.map_map]
    exact List.map_id tokens
  rw [← located] at derivesFirst derivesSecond
  have readFirst := parseTokens_of_derives derivesFirst firstWellFormed 0
  have readSecond := parseTokens_of_derives derivesSecond secondWellFormed 0
  exact Except.ok.inj (readFirst.symm.trans readSecond)

/-! ## Exactness -/

/--
The parser accepts exactly the texts that have a reading, with the tree of the
reading; the tokens of a text have at most one tree; and the checks before the
reading refuse nothing that the grammar derives.
-/
theorem parse_exact :
    (∀ text tree,
      parse text = .ok tree ↔ ∃ tokens, HasReading text tokens tree) ∧
    (∀ tokens first second,
      Derives .choice maxNesting tokens first → first.IsWellFormed →
      Derives .choice maxNesting tokens second → second.IsWellFormed →
      first = second) ∧
    (∀ text tokens tree,
      tokenize text = .ok tokens →
      Derives .choice maxNesting (tokens.map Located.token) tree →
      isBlankText text = false ∧ overNested? 0 0 text.toList = none) := by
  refine ⟨?_, ?_, ?_⟩
  · intro text tree
    constructor
    · exact exists_hasReading_of_parse
    · rintro ⟨tokens, reading⟩
      exact reading.parse_eq_ok
  · intro tokens first second derivesFirst firstWellFormed derivesSecond
      secondWellFormed
    exact
      eq_of_derives derivesFirst firstWellFormed derivesSecond
        secondWellFormed
  · intro text tokens tree scanned derivation
    exact
      ⟨isBlankText_eq_false_of_derives scanned derivation,
        overNested?_eq_none_of_tokenize scanned derivation⟩

/-- The tokens of the text `-(sales)`. -/
def negatedGroupTokens : List Located :=
  [⟨.operator .subtract, 0⟩, ⟨.leftParen, 1⟩, ⟨.identifier "sales", 2⟩,
   ⟨.rightParen, 7⟩]

theorem tokenize_negatedGroup :
    tokenize "-(sales)" = .ok negatedGroupTokens := by
  have nothing : scanFrom 8 [] = .ok [] := by simp [scanFrom]
  have closing : scanFrom 7 [')'] = .ok [⟨.rightParen, 7⟩] :=
    scanFrom_cons (by decide) rfl nothing
  have name :
      scanFrom 2 ['s', 'a', 'l', 'e', 's', ')'] =
        .ok [⟨.identifier "sales", 2⟩, ⟨.rightParen, 7⟩] :=
    scanFrom_cons (by decide) rfl closing
  have opening :
      scanFrom 1 ['(', 's', 'a', 'l', 'e', 's', ')'] =
        .ok [⟨.leftParen, 1⟩, ⟨.identifier "sales", 2⟩, ⟨.rightParen, 7⟩] :=
    scanFrom_cons (by decide) rfl name
  have whole :
      scanFrom 0 ['-', '(', 's', 'a', 'l', 'e', 's', ')'] =
        .ok negatedGroupTokens :=
    scanFrom_cons (by decide) rfl opening
  exact whole

theorem hasReading_negatedGroup :
    HasReading "-(sales)" negatedGroupTokens (.negate (.reference "sales")) where
  short := by decide
  scanned := tokenize_negatedGroup
  derives :=
    .plain (.operand (.operand (.operand (.negated
      (.group (.plain (.operand (.operand (.operand
        (.unsigned (@Derives.reference _ .sales)))))))))))
  wellFormed := ⟨.sales, by decide⟩

theorem parse_exact_negatedGroup :
    parse "-(sales)" = .ok (.negate (.reference "sales")) ∧
      Expr.negate (.reference "sales") = .negate (.reference "sales") ∧
      isBlankText "-(sales)" = false ∧
      overNested? 0 0 "-(sales)".toList = none := by
  have reading := hasReading_negatedGroup
  refine ⟨?_, ?_, ?_⟩
  · exact (parse_exact.1 _ _).2 ⟨_, reading⟩
  · exact
      parse_exact.2.1 _ _ _ reading.derives reading.wellFormed
        reading.derives reading.wellFormed
  · exact parse_exact.2.2 _ _ _ reading.scanned reading.derives

end IncentivePay.Formula
