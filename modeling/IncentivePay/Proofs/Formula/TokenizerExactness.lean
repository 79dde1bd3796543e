import IncentivePay.Payout.Config
import IncentivePay.Proofs.Formula.LongestLexemes

/-!
# The tokens of a text are its lexemes

The scanner succeeds on exactly the texts that can be read from the left to
the right as blank characters and longest lexemes, and delivers the tokens of
that reading.  `Covers` says where the lexemes stand: each at the position of
its token, none before the end of the one before it, and no character is
outside of them unless it is blank.

A text without any token is a blank one, so the tests for blank texts that are
made elsewhere agree with the scanner.
-/

namespace IncentivePay.Formula

/-! ## The scanner and the readings -/

/-- What is scanned is a reading of the characters. -/
theorem reads_of_scanFrom
    {position : Nat}
    {characters : List Char}
    {tokens : List Located}
    (scanned : scanFrom position characters = .ok tokens) :
    Reads position characters tokens := by
  fun_induction scanFrom position characters generalizing tokens with
  | case1 position =>
      obtain rfl := Except.ok.inj scanned
      exact .finished
  | case2 position character rest blank ih => exact .blank blank (ih scanned)
  | case3 => simp at scanned
  | case4 => simp at scanned
  | case5 position character rest _ token width found others othersScanned ih =>
      obtain rfl := Except.ok.inj scanned
      obtain ⟨lexeme, after, spelled, rfl, isLexeme, mayFollow⟩ :=
        exists_lexeme found
      have longest := isLongest_of_firstToken found
      have remaining := drop_length_pred_of_append spelled isLexeme.length_pos
      have othersRead := ih othersScanned
      rw [remaining] at othersRead
      rw [spelled] at longest ⊢
      exact .lexeme isLexeme longest mayFollow othersRead

/-- Every reading of the characters is scanned. -/
theorem scanFrom_of_reads
    {position : Nat}
    {characters : List Char}
    {tokens : List Located}
    (reads : Reads position characters tokens) :
    scanFrom position characters = .ok tokens := by
  induction reads with
  | finished => simp [scanFrom]
  | blank isBlank _ ih =>
      rw [scanFrom_blank isBlank]
      exact ih
  | @lexeme position lexeme rest token tokens isLexeme longest mayFollow _ ih =>
      obtain ⟨first, others, rfl, notBlank, found⟩ :=
        firstToken_of_isLongest isLexeme longest mayFollow position
      exact scanFrom_lexeme notBlank found ih

/-! ## Where the lexemes stand -/

/-- The characters of a token, and the token with its position. -/
structure Stretch where
  lexeme : List Char
  located : Located

/-- The position after the last character of a stretch. -/
def Stretch.finish (stretch : Stretch) : Nat :=
  stretch.located.position + stretch.lexeme.length

/--
Every stretch is a lexeme of its token and stands at the position of it among
the characters, the first of which has a position too; the stretches follow
one after the other; and every character outside of them is blank.
-/
structure Covers
    (position : Nat)
    (characters : List Char)
    (stretches : List Stretch) :
    Prop where
  denote :
    ∀ stretch ∈ stretches, IsLexeme stretch.lexeme stretch.located.token
  stand :
    ∀ stretch ∈ stretches,
      position ≤ stretch.located.position ∧
        stretch.lexeme <+:
          characters.drop (stretch.located.position - position)
  apart :
    stretches.Pairwise fun first second =>
      first.finish ≤ second.located.position
  blank :
    ∀ index character,
      characters[index]? = some character →
      isBlank character = false →
      ∃ stretch ∈ stretches,
        stretch.located.position ≤ position + index ∧
          position + index < stretch.finish

namespace Covers

variable
  {position : Nat}
  {characters : List Char}
  {stretches : List Stretch}

theorem nil : Covers position [] [] where
  denote := by simp
  stand := by simp
  apart := .nil
  blank := by simp

section Append

variable
  {front : List Char}
  (covers : Covers (position + front.length) characters stretches)

include covers

/-- The stretches stand where they stood after more characters come first. -/
theorem stand_append
    {stretch : Stretch}
    (member : stretch ∈ stretches) :
    position ≤ stretch.located.position ∧
      stretch.lexeme <+:
        (front ++ characters).drop (stretch.located.position - position) := by
  obtain ⟨behind, stands⟩ := covers.stand stretch member
  obtain ⟨offset, same⟩ := Nat.exists_eq_add_of_le behind
  refine ⟨by omega, ?_⟩
  rw [same, Nat.add_sub_cancel_left] at stands
  rwa [same, Nat.add_assoc, Nat.add_sub_cancel_left,
    List.drop_length_add_append]

/--
Behind the characters that come first, the stretches hold what is not blank.
-/
theorem blank_append
    {index : Nat}
    {character : Char}
    (behind : front.length ≤ index)
    (present : (front ++ characters)[index]? = some character)
    (notBlank : isBlank character = false) :
    ∃ stretch ∈ stretches,
      stretch.located.position ≤ position + index ∧
        position + index < stretch.finish := by
  obtain ⟨offset, rfl⟩ := Nat.exists_eq_add_of_le behind
  rw [List.getElem?_append_right behind, Nat.add_sub_cancel_left] at present
  rw [← Nat.add_assoc]
  exact covers.blank offset character present notBlank

end Append

theorem blankFirst
    {character : Char}
    (covers : Covers (position + 1) characters stretches)
    (blankFirst : isBlank character = true) :
    Covers position (character :: characters) stretches where
  denote := covers.denote
  stand _ member := @stand_append _ _ _ [character] covers _ member
  apart := covers.apart
  blank := by
    intro index other present notBlank
    cases index with
    | zero =>
        obtain rfl : character = other := by simpa using present
        simp [blankFirst] at notBlank
    | succ index =>
        exact
          @blank_append _ _ _ [character] covers _ _ (by simp) present notBlank

theorem lexemeFirst
    {lexeme : List Char}
    {token : Token}
    (covers : Covers (position + lexeme.length) characters stretches)
    (isLexeme : IsLexeme lexeme token) :
    Covers position (lexeme ++ characters)
      (⟨lexeme, ⟨token, position⟩⟩ :: stretches) where
  denote := List.forall_mem_cons.2 ⟨isLexeme, covers.denote⟩
  stand := by
    refine List.forall_mem_cons.2 ⟨⟨Nat.le_refl _, ?_⟩, ?_⟩
    · rw [Nat.sub_self]
      exact List.prefix_append _ _
    · intro stretch member
      exact covers.stand_append member
  apart := by
    refine .cons ?_ covers.apart
    intro stretch member
    exact (covers.stand stretch member).1
  blank := by
    intro index character present notBlank
    rcases Nat.lt_or_ge index lexeme.length with within | behind
    · refine ⟨_, List.mem_cons_self, Nat.le_add_right _ _, ?_⟩
      exact Nat.add_lt_add_left within position
    · obtain ⟨stretch, member, holds⟩ :=
        covers.blank_append behind present notBlank
      exact ⟨stretch, List.mem_cons_of_mem _ member, holds⟩

/-- Each stretch starts before the next one, because a lexeme is not empty. -/
theorem increasing (covers : Covers position characters stretches) :
    (stretches.map Stretch.located).Pairwise fun first second =>
      first.position < second.position := by
  rw [List.pairwise_map]
  refine covers.apart.imp_of_mem ?_
  intro first second isFirst _ apart
  have nonempty := (covers.denote first isFirst).length_pos
  simp only [Stretch.finish] at apart
  omega

/-- Each stretch starts at one of the characters. -/
theorem position_lt
    (covers : Covers position characters stretches)
    {located : Located}
    (member : located ∈ stretches.map Stretch.located) :
    located.position < position + characters.length := by
  obtain ⟨stretch, isStretch, rfl⟩ := List.mem_map.1 member
  obtain ⟨behind, stands⟩ := covers.stand stretch isStretch
  have nonempty := (covers.denote stretch isStretch).length_pos
  have fits := stands.length_le
  rw [List.length_drop] at fits
  omega

end Covers

/-- The lexemes of a reading cover the characters. -/
theorem Reads.exists_covers
    {position : Nat}
    {characters : List Char}
    {tokens : List Located}
    (reads : Reads position characters tokens) :
    ∃ stretches,
      stretches.map Stretch.located = tokens ∧
        Covers position characters stretches := by
  induction reads with
  | finished => exact ⟨[], rfl, .nil⟩
  | blank isBlank _ ih =>
      obtain ⟨stretches, rfl, covers⟩ := ih
      exact ⟨stretches, rfl, covers.blankFirst isBlank⟩
  | lexeme isLexeme _ _ _ ih =>
      obtain ⟨stretches, rfl, covers⟩ := ih
      exact ⟨_ :: stretches, rfl, covers.lexemeFirst isLexeme⟩

/-! ## Blank texts -/

theorem tokenize_eq_nil_iff (text : String) :
    tokenize text = .ok [] ↔ isBlankText text = true := by
  constructor
  · intro scanned
    obtain ⟨stretches, none, covers⟩ :=
      (reads_of_scanFrom scanned).exists_covers
    rw [List.map_eq_nil_iff] at none
    subst none
    refine List.all_eq_true.2 fun character member => ?_
    obtain ⟨index, present⟩ := List.mem_iff_getElem?.1 member
    cases blank : isBlank character with
    | true => rfl
    | false =>
        obtain ⟨stretch, isStretch, -⟩ := covers.blank index _ present blank
        contradiction
  · intro blank
    exact scanFrom_of_all_isBlank blank 0

/-- The check before the reading calls exactly the short blank texts empty. -/
theorem checkBounds_eq_empty_iff (text : String) :
    checkBounds text = .error ⟨.empty, 0⟩ ↔
      text.length ≤ maxLength ∧ isBlankText text = true := by
  unfold checkBounds
  by_cases long : maxLength < text.length
  · have notShort := Nat.not_le.2 long
    simp [long, notShort]
  · have short := Nat.le_of_not_lt long
    cases blank : isBlankText text with
    | true => simp [long, short]
    | false =>
        simp only [long, if_false, Bool.false_eq_true, and_false, iff_false]
        split <;> simp

theorem formula?_eq_none_iff
    {config : Config}
    {text : String}
    (hasText : config.customFormula = some text) :
    config.formula? = none ↔ isBlankText text = true := by
  simp [Config.formula?, hasText, Option.filter_some]

/-! ## Exactness -/

/--
The scanner succeeds on exactly the texts that have a reading, with its tokens.
Their lexemes cover the text, so the tokens are at increasing positions inside
of it and no more than its characters.  There are none exactly in a blank text,
which the parser calls empty and a configuration does not call a formula.
-/
theorem tokenize_exact (text : String) :
    (∀ tokens, tokenize text = .ok tokens ↔ Reads 0 text.toList tokens) ∧
    (∀ tokens,
      tokenize text = .ok tokens →
      (∃ stretches,
        stretches.map Stretch.located = tokens ∧
          Covers 0 text.toList stretches) ∧
      (tokens.Pairwise fun first second => first.position < second.position) ∧
      (∀ located ∈ tokens, located.position < text.length) ∧
      tokens.length ≤ text.length) ∧
    (tokenize text = .ok [] ↔ isBlankText text = true) ∧
    (checkBounds text = .error ⟨.empty, 0⟩ ↔
      text.length ≤ maxLength ∧ tokenize text = .ok []) ∧
    (∀ config : Config,
      config.customFormula = some text →
      (config.formula? = none ↔ tokenize text = .ok [])) := by
  refine ⟨?_, ?_, tokenize_eq_nil_iff text, ?_, ?_⟩
  · intro tokens
    exact ⟨reads_of_scanFrom, scanFrom_of_reads⟩
  · intro tokens scanned
    obtain ⟨stretches, rfl, covers⟩ := (reads_of_scanFrom scanned).exists_covers
    refine ⟨⟨stretches, rfl, covers⟩, covers.increasing, ?_, ?_⟩
    · intro located member
      have inside := covers.position_lt member
      rwa [Nat.zero_add, String.length_toList] at inside
    · have spelled := (spells_of_scanFrom scanned).length_le
      rwa [List.length_map, String.length_toList] at spelled
  · rw [checkBounds_eq_empty_iff, tokenize_eq_nil_iff]
  · intro config hasText
    rw [formula?_eq_none_iff hasText, tokenize_eq_nil_iff]

/--
The text `x >= y` has one reading; with a third equals sign there is none.
-/
theorem tokenize_exact_comparison :
    Reads 0 "x >= y".toList
        [⟨.identifier "x", 0⟩, ⟨.operator .greaterOrEqual, 2⟩,
         ⟨.identifier "y", 5⟩] ∧
      (∀ tokens, ¬ Reads 0 "x == = y".toList tokens ∧
        ¬ Reads 0 "x === y".toList tokens) := by
  have nothing : scanFrom 6 [] = .ok [] := by simp [scanFrom]
  have right : scanFrom 5 ['y'] = .ok [⟨.identifier "y", 5⟩] :=
    scanFrom_cons (by decide) rfl nothing
  have beforeRight : scanFrom 4 [' ', 'y'] = .ok [⟨.identifier "y", 5⟩] := by
    rw [scanFrom_blank (by decide), right]
  have sign :
      scanFrom 2 ['>', '=', ' ', 'y'] =
        .ok [⟨.operator .greaterOrEqual, 2⟩, ⟨.identifier "y", 5⟩] :=
    scanFrom_cons (by decide) rfl beforeRight
  have beforeSign :
      scanFrom 1 [' ', '>', '=', ' ', 'y'] =
        .ok [⟨.operator .greaterOrEqual, 2⟩, ⟨.identifier "y", 5⟩] := by
    rw [scanFrom_blank (by decide), sign]
  have scanned :
      tokenize "x >= y" =
        .ok [⟨.identifier "x", 0⟩, ⟨.operator .greaterOrEqual, 2⟩,
          ⟨.identifier "y", 5⟩] :=
    scanFrom_cons (by decide) rfl beforeSign
  refine ⟨((tokenize_exact "x >= y").1 _).1 scanned, fun tokens => ⟨?_, ?_⟩⟩
  · intro reads
    have accepted := ((tokenize_exact "x == = y").1 tokens).2 reads
    have loose : hasLooseEquals "x == = y".toList = true := by decide
    have tame := (isTame_of_scanFrom accepted).equals
    exact Bool.false_ne_true (tame.symm.trans loose)
  · intro reads
    have accepted := ((tokenize_exact "x === y").1 tokens).2 reads
    have loose : hasLooseEquals "x === y".toList = true := by decide
    have tame := (isTame_of_scanFrom accepted).equals
    exact Bool.false_ne_true (tame.symm.trans loose)

end IncentivePay.Formula
