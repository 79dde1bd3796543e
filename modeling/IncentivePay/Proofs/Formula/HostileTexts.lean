import IncentivePay.Proofs.Formula.Acceptance

/-!
# Texts that no formula has

A text is hostile when it has a character that no formula uses, an exclamation
or equals sign that belongs to no comparison, or a name that is neither a
variable nor a function that is called.  `IsHostile` says so of the text and
of its tokens, without the parser, and wherever the fragment stands.

The characters that the scanner gets through are tame: each word and each mark
leaves the signs to its right as it found them, because a sign is read together
with the equals sign that follows it.  A derivation in turn leaves no name
behind that is not known.  So the parser refuses every hostile text.
-/

namespace IncentivePay.Formula

/-! ## Hostile texts -/

/--
The characters of formulas that are neither blank nor of a name or number.
-/
def markCharacters : List Char :=
  ['+', '-', '*', '/', '%', '>', '<', '=', '!', '?', ':', '(', ')', ',']

/-- A character that formulas use, apart from the blank ones. -/
def isFormulaCharacter (character : Char) : Bool :=
  isIdentifierPart character || character = '.' ||
    markCharacters.contains character

/-- Some exclamation mark is not followed by an equals sign. -/
def hasLooseExclamation : List Char → Bool
  | [] => false
  | '!' :: rest => rest.head? ≠ some '=' || hasLooseExclamation rest
  | _ :: rest => hasLooseExclamation rest

/--
Some equals sign is a part of none of `>=`, `<=`, `==` and `!=`, read from the
left; the one after `==` or `!=` is a part of none.
-/
def hasLooseEquals : List Char → Bool
  | [] => false
  | '>' :: '=' :: rest => hasLooseEquals rest
  | '<' :: '=' :: rest => hasLooseEquals rest
  | '=' :: '=' :: rest => rest.head? = some '=' || hasLooseEquals rest
  | '!' :: '=' :: rest => rest.head? = some '=' || hasLooseEquals rest
  | '=' :: _ => true
  | _ :: rest => hasLooseEquals rest

/-- A name is a variable, or a function with an opening parenthesis after it. -/
def isKnownName
    (name : String)
    (next : Option Token) :
    Bool :=
  (Variable.ofName? name).isSome ||
    ((Function.ofName? name).isSome && next = some .leftParen)

/-- Some name is neither a variable nor a function that is called. -/
def hasStrayName : List Token → Bool
  | [] => false
  | .identifier name :: rest =>
      !isKnownName name rest.head? || hasStrayName rest
  | _ :: rest => hasStrayName rest

/-- A text has something that no formula has. -/
inductive IsHostile (text : String) : Prop
  | foreign {character : Char} :
      character ∈ text.toList →
      isBlank character = false →
      isFormulaCharacter character = false →
      IsHostile text
  | exclamation :
      hasLooseExclamation text.toList = true →
      IsHostile text
  | equals :
      hasLooseEquals text.toList = true →
      IsHostile text
  | name {tokens : List Located} :
      tokenize text = .ok tokens →
      hasStrayName (tokens.map Located.token) = true →
      IsHostile text

/-! ## Tame characters -/

/-- No character is foreign, and no sign is loose. -/
structure IsTame (characters : List Char) : Prop where
  known :
    ∀ character ∈ characters,
      isBlank character = true ∨ isFormulaCharacter character = true
  exclamations : hasLooseExclamation characters = false
  equals : hasLooseEquals characters = false

/-- The characters with which the comparisons start. -/
def comparisonStarts : List Char :=
  ['>', '<', '=', '!']

/-- Characters of a kind to which the starts of comparisons do not belong. -/
theorem not_mem_comparisonStarts
    {kind : Char → Bool}
    {character : Char}
    (isOfKind : kind character = true)
    (others : comparisonStarts.all (fun start => !kind start) = true) :
    character ∉ comparisonStarts := by
  intro isStart
  have notOfKind := List.all_eq_true.1 others character isStart
  simp [isOfKind] at notOfKind

theorem hasLooseExclamation_cons_of_ne
    {character : Char}
    (notExclamation : character ≠ '!')
    (rest : List Char) :
    hasLooseExclamation (character :: rest) = hasLooseExclamation rest := by
  rw [hasLooseExclamation]
  rintro rfl
  exact notExclamation rfl

theorem hasLooseEquals_cons_of_ne
    {character : Char}
    {rest : List Char}
    (notEquals : character ≠ '=')
    (unpaired : character ∈ comparisonStarts → rest.head? ≠ some '=') :
    hasLooseEquals (character :: rest) = hasLooseEquals rest := by
  rw [hasLooseEquals.eq_def (character :: rest)]
  split <;> simp_all [comparisonStarts]

namespace IsTame

variable
  {character : Char}
  {rest : List Char}

theorem nil : IsTame [] where
  known := by simp
  exclamations := rfl
  equals := rfl

theorem cons
    (tame : IsTame rest)
    (known :
      isBlank character = true ∨ isFormulaCharacter character = true)
    (notEquals : character ≠ '=')
    (notExclamation : character ≠ '!')
    (unpaired : character ∈ comparisonStarts → rest.head? ≠ some '=') :
    IsTame (character :: rest) where
  known := by
    rw [List.forall_mem_cons]
    exact ⟨known, tame.known⟩
  exclamations := by
    rw [hasLooseExclamation_cons_of_ne notExclamation, tame.exclamations]
  equals := by
    rw [hasLooseEquals_cons_of_ne notEquals unpaired, tame.equals]

/-- A character that starts no comparison. -/
theorem cons_other
    (tame : IsTame rest)
    (known :
      isBlank character = true ∨ isFormulaCharacter character = true)
    (notStart : character ∉ comparisonStarts) :
    IsTame (character :: rest) := by
  apply tame.cons known
  · rintro rfl
    exact notStart (by decide)
  · rintro rfl
    exact notStart (by decide)
  · intro isStart
    exact absurd isStart notStart

/--
A comparison of two characters; `==` and `!=` are not followed by a third.
-/
theorem cons_pair
    (tame : IsTame rest)
    (isStart : character ∈ comparisonStarts)
    (notThird : character = '=' ∨ character = '!' → rest.head? ≠ some '=') :
    IsTame (character :: '=' :: rest) := by
  have equals := tame.equals
  simp only [comparisonStarts, List.mem_cons, List.not_mem_nil, or_false]
    at isStart
  constructor
  · rw [List.forall_mem_cons, List.forall_mem_cons]
    refine ⟨.inr ?_, .inr (by decide), tame.known⟩
    rcases isStart with rfl | rfl | rfl | rfl <;> decide
  · rcases isStart with rfl | rfl | rfl | rfl <;>
      exact tame.exclamations
  · rcases isStart with rfl | rfl | rfl | rfl
    · exact equals
    · exact equals
    · simp [hasLooseEquals, notThird, equals]
    · simp [hasLooseEquals, notThird, equals]

theorem append_word
    {word : List Char}
    (tame : IsTame rest)
    (isWord : word.all isWordCharacter = true) :
    IsTame (word ++ rest) := by
  induction word with
  | nil => exact tame
  | cons character others ih =>
      rw [List.all_cons, Bool.and_eq_true] at isWord
      refine (ih isWord.2).cons_other (.inr ?_)
        (not_mem_comparisonStarts isWord.1 (by decide))
      have isPart := isWord.1
      simp only [isWordCharacter, Bool.or_eq_true, decide_eq_true_eq] at isPart
      rcases isPart with ((part | rfl) | rfl) | rfl
      · simp [isFormulaCharacter, part]
      · decide
      · decide
      · decide

/-- A mark takes the equals sign after it when there is one to take. -/
theorem mark
    {token : Token}
    {width : Nat}
    (tame : IsTame (rest.drop (width - 1)))
    (found : mark? character rest.head? = some (token, width))
    (accepted :
      token.isEqualitySign = true → rest.tail.head? ≠ some '=') :
    IsTame (character :: rest) := by
  unfold mark? at found
  split at found
  all_goals simp only [Option.some.injEq, Prod.mk.injEq, reduceCtorEq] at found
  all_goals obtain ⟨rfl, rfl⟩ := found
  case h_1 equalsFollows | h_2 equalsFollows =>
    obtain ⟨others, rfl⟩ := List.head?_eq_some_iff.1 equalsFollows
    exact cons_pair tame (by decide) (by simp)
  case h_3 equalsFollows | h_4 equalsFollows =>
    obtain ⟨others, rfl⟩ := List.head?_eq_some_iff.1 equalsFollows
    exact cons_pair tame (by decide) fun _ => accepted rfl
  case h_5 unpaired | h_6 unpaired =>
    exact cons tame (.inr (by decide)) (by decide) (by decide) fun _ => unpaired
  all_goals exact cons_other tame (.inr (by decide)) (by decide)

end IsTame

/-! ## What is scanned -/

/-- A character that starts neither a number nor a name. -/
def startsNoWord (character : Char) : Bool :=
  !isDigit character && character ≠ '.' && !isIdentifierStart character

/-- Every mark starts with such a character. -/
theorem startsNoWord_of_mark :
    ∀ mark ∈ marks, mark.1.head?.any startsNoWord = true := by
  decide

theorem firstToken_of_mark
    {position : Nat}
    {character : Char}
    {rest lexeme after : List Char}
    {token : Token}
    (isMark : (lexeme, token) ∈ marks)
    (spelled : character :: rest = lexeme ++ after) :
    firstToken position character rest =
      markToken position character rest := by
  have noWord := startsNoWord_of_mark _ isMark
  cases lexeme with
  | nil => contradiction
  | cons first others =>
      obtain rfl : character = first := by
        simpa using congrArg List.head? spelled
      simp only [List.head?_cons, Option.any_some, startsNoWord,
        Bool.and_eq_true, Bool.not_eq_true', decide_eq_true_eq] at noWord
      obtain ⟨⟨notDigit, notPoint⟩, notStart⟩ := noWord
      simp [firstToken, startsNumber, notDigit, notPoint, notStart]

/-- A first token leaves the characters tame when the ones after it are. -/
theorem isTame_of_firstToken
    {position width : Nat}
    {character : Char}
    {rest : List Char}
    {token : Token}
    (found : firstToken position character rest = .ok (token, width))
    (tame : IsTame (rest.drop (width - 1))) :
    IsTame (character :: rest) := by
  obtain ⟨lexeme, spelled, isLexeme⟩ := exists_lexeme_before found
  rcases isLexeme.isMark_or_isWord with isMark | ⟨isWord, -⟩
  · rw [firstToken_of_mark isMark spelled, markToken] at found
    split at found
    · rename_i other otherWidth isNext
      split at found
      · contradiction
      · rename_i accepted
        obtain ⟨rfl, rfl⟩ : other = token ∧ otherWidth = width := by
          simpa using found
        exact tame.mark isNext (by simpa using accepted)
    · split at found <;> contradiction
  · rw [spelled]
    exact tame.append_word isWord

theorem isTame_of_scanFrom
    {position : Nat}
    {characters : List Char}
    {tokens : List Located}
    (scanned : scanFrom position characters = .ok tokens) :
    IsTame characters := by
  fun_induction scanFrom position characters generalizing tokens with
  | case1 position => exact .nil
  | case2 position character rest blank ih =>
      exact
        (ih scanned).cons_other (.inl blank)
          (not_mem_comparisonStarts blank (by decide))
  | case3 => simp at scanned
  | case4 => simp at scanned
  | case5 position character rest _ token width found others othersScanned ih =>
      exact isTame_of_firstToken found (ih othersScanned)

/-! ## What is derived -/

theorem isKnownName_variable
    (quantity : Variable)
    (next : Option Token) :
    isKnownName quantity.name next = true := by
  simp [isKnownName]

theorem isKnownName_function (function : Function) :
    isKnownName function.name (some .leftParen) = true := by
  simp [isKnownName]

mutual

/-- The names of a derivation are known, and those after it are as they were. -/
theorem Derives.hasStrayName_append
    {phrase : Phrase}
    {room : Nat}
    {tokens : List Token}
    {tree : Expr}
    (derivation : Derives phrase room tokens tree)
    (rest : List Token) :
    hasStrayName (tokens ++ rest) = hasStrayName rest := by
  match derivation with
  | .plain tier => exact tier.hasStrayName_append rest
  | .choice condition whenTrue whenFalse =>
      simp only [List.append_assoc, List.cons_append, hasStrayName,
        condition.hasStrayName_append, whenTrue.hasStrayName_append,
        whenFalse.hasStrayName_append]
  | .operand operand => exact operand.hasStrayName_append rest
  | .binary left right =>
      simp only [List.append_assoc, List.cons_append, hasStrayName,
        left.hasStrayName_append, right.hasStrayName_append]
  | .unsigned primary => exact primary.hasStrayName_append rest
  | .negated primary => exact primary.hasStrayName_append rest
  | .literal => rfl
  | @Derives.reference _ quantity =>
      simp [hasStrayName, isKnownName_variable]
  | .group body =>
      simp only [List.cons_append, List.append_assoc, List.nil_append,
        hasStrayName, body.hasStrayName_append]
  | @Derives.call _ function _ _ arguments =>
      simp only [List.cons_append, List.append_assoc, List.nil_append,
        hasStrayName, List.head?_cons, isKnownName_function, Bool.not_true,
        Bool.false_or, arguments.hasStrayName_append]

/-- The names of arguments are known, and those after them are as they were. -/
theorem DerivesArguments.hasStrayName_append
    {room : Nat}
    {tokens : List Token}
    {arguments : List Expr}
    (derivation : DerivesArguments room tokens arguments)
    (rest : List Token) :
    hasStrayName (tokens ++ rest) = hasStrayName rest := by
  match derivation with
  | .none => rfl
  | .one tree => exact tree.hasStrayName_append rest
  | .more tree others =>
      simp only [List.append_assoc, List.cons_append, hasStrayName,
        tree.hasStrayName_append, others.hasStrayName_append]

end

/-! ## Hostile texts are refused -/

namespace IsHostile

variable {text : String}

/-- A text that is scanned is hostile by a name only. -/
theorem exists_strayName
    (hostile : IsHostile text)
    {tokens : List Located}
    (scanned : tokenize text = .ok tokens) :
    hasStrayName (tokens.map Located.token) = true := by
  have tame := isTame_of_scanFrom scanned
  cases hostile with
  | foreign member notBlank notKnown =>
      rcases tame.known _ member with blank | known
      · simp [notBlank] at blank
      · simp [notKnown] at known
  | exclamation loose => simp [tame.exclamations] at loose
  | equals loose => simp [tame.equals] at loose
  | name scannedToo stray =>
      rw [scanned, Except.ok.injEq] at scannedToo
      rw [scannedToo]
      exact stray

/-- The parser refuses every hostile text. -/
theorem exists_error (hostile : IsHostile text) :
    ∃ error, parse text = .error error := by
  cases parsed : parse text with
  | error error => exact ⟨error, rfl⟩
  | ok tree =>
      obtain ⟨-, tokens, scanned, derives, -⟩ :=
        exists_derivation_of_parse parsed
      have stray := hostile.exists_strayName scanned
      have known := derives.hasStrayName_append []
      rw [List.append_nil] at known
      rw [known] at stray
      contradiction

/--
A hostile text is not blank, so it counts as a formula until it is parsed.
-/
theorem isBlankText_eq_false (hostile : IsHostile text) :
    isBlankText text = false := by
  rw [Bool.eq_false_iff]
  intro blank
  have nothing : tokenize text = .ok [] := scanFrom_of_all_isBlank blank 0
  have stray := hostile.exists_strayName nothing
  contradiction

end IsHostile

end IncentivePay.Formula
