import IncentivePay.Proofs.Formula.NumberTexts
import IncentivePay.Wire.Json.Reader
import IncentivePay.Wire.Json.Writer

/-!
# What the JSON reader takes off the characters

`Takes taking value rest` says that a reading function delivers a value and
leaves the characters after it.  There is one lemma for each form that a value
starts with, and one for each mark that may follow an item or a member; space
in front changes nothing.
-/

namespace IncentivePay.Json

open Formula

/-- A value is delivered, and these characters are left. -/
def Takes
    {Value : Type}
    {bound : Nat}
    (taking : Option (Taken Value bound))
    (value : Value)
    (rest : List Char) :
    Prop :=
  ∃ taken, taking = some taken ∧ taken.value = value ∧ taken.rest = rest

theorem Takes.widen
    {Value Other : Type}
    {bound larger : Nat}
    {taking : Option (Taken Value bound)}
    {value : Value}
    {rest : List Char}
    (takes : Takes taking value rest)
    (read : Value → Other)
    (atMost : bound ≤ larger) :
    Takes (taking.map fun taken => taken.widen read atMost) (read value)
      rest := by
  obtain ⟨taken, rfl, rfl, rfl⟩ := takes
  exact ⟨_, rfl, rfl, rfl⟩

theorem Takes.of_widen
    {Value Other : Type}
    {bound larger : Nat}
    {taking : Option (Taken Value bound)}
    {read : Value → Other}
    {atMost : bound ≤ larger}
    {other : Other}
    {rest : List Char}
    (takes :
      Takes (taking.map fun taken => taken.widen read atMost) other rest) :
    ∃ value, Takes taking value rest ∧ read value = other := by
  obtain ⟨taken, delivered, rfl, rfl⟩ := takes
  obtain ⟨within, found, rfl⟩ := Option.map_eq_some_iff.1 delivered
  exact ⟨within.value, ⟨within, found, rfl, rfl⟩, rfl⟩

theorem Takes.of_some
    {Value : Type}
    {bound : Nat}
    {taken : Taken Value bound}
    {value : Value}
    {rest : List Char}
    (takes : Takes (some taken) value rest) :
    taken.value = value ∧ taken.rest = rest := by
  obtain ⟨same, delivered, rfl, rfl⟩ := takes
  rw [Option.some.inj delivered]
  exact ⟨rfl, rfl⟩

/-- A text holds a value when nothing but space is left after it. -/
theorem read?_iff
    {text : String}
    {json : Json} :
    read? text = some json ↔
      ∃ rest,
        Takes (takeValue? text.toList) json rest ∧
          ∀ character ∈ rest, isSpace character = true := by
  unfold read?
  split
  · rename_i taken delivered
    simp [Takes, delivered, and_assoc, and_comm]
  · rename_i nothing
    simp [Takes, nothing]

/-! ## Space -/

theorem skipSpace_cons
    {character : Char}
    (notSpace : isSpace character = false)
    (rest : List Char) :
    skipSpace (character :: rest) = character :: rest := by
  simp [skipSpace, notSpace]

theorem skipSpace_append
    {space : List Char}
    (isBlank : ∀ character ∈ space, isSpace character = true)
    (rest : List Char) :
    skipSpace (space ++ rest) = skipSpace rest := by
  rw [skipSpace, List.dropWhile_append_of_pos isBlank, skipSpace]

theorem isSpace_of_isDigit
    {digit : Char}
    (isDigit : isDigit digit = true) :
    isSpace digit = false := by
  have extension := isBlank_of_extendsNumber (extendsNumber_of_isDigit isDigit)
  rw [Bool.eq_false_iff]
  intro space
  simp only [isSpace, Bool.or_eq_true, decide_eq_true_eq] at space
  rcases space with ((rfl | rfl) | rfl) | rfl <;>
    exact absurd extension (by decide)

/-! ## Numbers -/

section Numbers

variable
  {negative : Bool}
  {characters rest : List Char}

/-- A number is its numeral, an integer when nothing follows its whole part. -/
theorem takes_number_iff {number : Json} :
    Takes (takeNumber? negative characters) number rest ↔
      isWholePart (Numeral.split characters).1.whole = true ∧
        ((characters.dropWhile isDigit).head? = some '.' →
          (Numeral.split characters).1.fraction ≠ []) ∧
        (rest.head? ≠ some 'e' ∧ rest.head? ≠ some 'E') ∧
        (Numeral.split characters).2 = rest ∧
        number =
          if rest.length = (characters.dropWhile isDigit).length then
            ofWhole negative (Numeral.split characters).1
          else
            .real ((Numeral.split characters).1.scaled negative) := by
  unfold takeNumber? Takes
  dsimp only
  split
  · rename_i whole
    simp only [whole, true_and]
    split
    · simp_all
    split
    · rename_i hasLetter
      constructor
      · simp
      · rintro ⟨-, noLetter, rfl, -⟩
        simp [noLetter] at hasLetter
    · constructor
      · rintro ⟨taken, delivered, rfl, rfl⟩
        cases delivered
        simp_all
      · rintro ⟨-, -, rfl, rfl⟩
        exact ⟨_, rfl, rfl, rfl⟩
  · rename_i notWhole
    simp [notWhole]

/-- A whole part starts with a digit, so it starts a number. -/
theorem exists_digit_of_isWholePart
    (whole : isWholePart (Numeral.split characters).1.whole = true) :
    ∃ digit others,
      characters = digit :: others ∧
        isDigit digit = true ∧
        startsNumber digit others = true := by
  cases characters with
  | nil => simp [Numeral.split, isWholePart] at whole
  | cons digit others =>
      cases isDigit : isDigit digit with
      | true =>
          exact
            ⟨digit, others, rfl, isDigit, by simp [startsNumber, isDigit]⟩
      | false => simp [Numeral.split, isDigit, isWholePart] at whole

end Numbers

/-! ## Values -/

/-- A value is taken by the characters that it starts with. -/
inductive ReadsValue : List Char → Json → List Char → Prop
  | word {json : Json} {rest : List Char} :
      json = .null ∨ (∃ value, json = .boolean value) →
      ReadsValue (json.scalarText.toList ++ rest) json rest
  | text {characters rest : List Char} {text : Option (List Char)} :
      Takes (takeText? characters) text rest →
      ReadsValue ('\x22' :: characters) (.text (text.map String.ofList)) rest
  | array {characters rest : List Char} {items : List Json} :
      Takes (takeItems? characters) items rest →
      ReadsValue ('[' :: characters) (.array items) rest
  | object {characters rest : List Char}
      {members : List (Option String × Json)} :
      Takes (takeMembers? characters) members rest →
      ReadsValue ('\x7b' :: characters) (.object members) rest
  | negative {characters rest : List Char} {number : Json} :
      Takes (takeNumber? true characters) number rest →
      ReadsValue ('-' :: characters) number rest
  | positive {characters rest : List Char} {number : Json} :
      Takes (takeNumber? false characters) number rest →
      ReadsValue characters number rest

section Values

variable {characters rest after : List Char}

theorem readsValue_of_takes
    {json : Json}
    (takes : Takes (takeValue? characters) json rest) :
    ReadsValue (skipSpace characters) json rest := by
  rw [takeValue?] at takes
  split at takes <;> try rename_i shape
  · obtain ⟨text, found, rfl⟩ := takes.of_widen
    rw [shape]
    exact .text found
  · obtain ⟨items, found, rfl⟩ := takes.of_widen
    rw [shape]
    exact .array found
  · obtain ⟨members, found, rfl⟩ := takes.of_widen
    rw [shape]
    exact .object found
  · obtain ⟨number, found, rfl⟩ := takes.of_widen
    rw [shape]
    exact .negative found
  · rw [shape]
    obtain ⟨rfl, rfl⟩ := takes.of_some
    exact .word (.inl rfl)
  · rw [shape]
    obtain ⟨rfl, rfl⟩ := takes.of_some
    exact .word (.inr ⟨true, rfl⟩)
  · rw [shape]
    obtain ⟨rfl, rfl⟩ := takes.of_some
    exact .word (.inr ⟨false, rfl⟩)
  · obtain ⟨number, found, rfl⟩ := takes.of_widen
    exact .positive found

theorem takes_of_readsValue
    {json : Json}
    (reads : ReadsValue (skipSpace characters) json rest) :
    Takes (takeValue? characters) json rest := by
  generalize shape : skipSpace characters = start at reads
  rw [takeValue?]
  cases reads with
  | word isWord =>
      rcases isWord with rfl | ⟨value, rfl⟩
      · simp only [scalarText, String.reduceToList, List.cons_append,
          List.nil_append] at shape
        split <;> simp_all [Takes]
      · cases value <;>
          simp only [scalarText, String.reduceToList, List.cons_append,
            List.nil_append] at shape <;>
          split <;> simp_all [Takes]
  | text takes =>
      split
      case h_1 =>
        rename_i same
        obtain rfl := (List.cons.inj (shape.symm.trans same)).2
        exact takes.widen _ _
      all_goals simp_all
  | array takes =>
      split
      case h_2 =>
        rename_i same
        obtain rfl := (List.cons.inj (shape.symm.trans same)).2
        exact takes.widen _ _
      all_goals simp_all
  | object takes =>
      split
      case h_3 =>
        rename_i same
        obtain rfl := (List.cons.inj (shape.symm.trans same)).2
        exact takes.widen _ _
      all_goals simp_all
  | negative takes =>
      split
      case h_4 =>
        rename_i same
        obtain rfl := (List.cons.inj (shape.symm.trans same)).2
        exact takes.widen _ _
      all_goals simp_all
  | positive takes =>
      -- The first digit tells a number from every other form.
      obtain ⟨digit, others, starts, isDigit, -⟩ :=
        exists_digit_of_isWholePart (takes_number_iff.1 takes).1
      rw [starts] at shape
      have noMark
          (mark : Char)
          (notDigit : IncentivePay.isDigit mark = false)
          (rest : List Char)
          (marked : skipSpace characters = mark :: rest) :
          False := by
        obtain rfl := (List.cons.inj (shape.symm.trans marked)).1
        rw [isDigit] at notDigit
        contradiction
      split
      · exact (noMark '\x22' (by decide) _ ‹_›).elim
      · exact (noMark '[' (by decide) _ ‹_›).elim
      · exact (noMark '\x7b' (by decide) _ ‹_›).elim
      · exact (noMark '-' (by decide) _ ‹_›).elim
      · exact (noMark 'n' (by decide) _ ‹_›).elim
      · exact (noMark 't' (by decide) _ ‹_›).elim
      · exact (noMark 'f' (by decide) _ ‹_›).elim
      · rw [starts, ← shape] at takes
        exact takes.widen _ _

/-- A value is taken by what comes after the space in front. -/
theorem takes_value_iff {json : Json} :
    Takes (takeValue? characters) json rest ↔
      ReadsValue (skipSpace characters) json rest :=
  ⟨readsValue_of_takes, takes_of_readsValue⟩

/-- Space in front of a value changes nothing. -/
theorem Takes.of_skipSpace
    {json : Json}
    (takes : Takes (takeValue? characters) json rest)
    {spaced : List Char}
    (same : skipSpace spaced = skipSpace characters) :
    Takes (takeValue? spaced) json rest := by
  rw [takes_value_iff, same]
  exact takes_value_iff.1 takes

/-- No value starts with a closing bracket. -/
theorem not_takes_of_bracket
    {json : Json}
    (shape : skipSpace characters = ']' :: rest) :
    ¬ Takes (takeValue? characters) json after := by
  rw [takes_value_iff, shape]
  intro reads
  generalize start : ']' :: rest = characters at reads
  cases reads with
  | word isWord =>
      rcases isWord with rfl | ⟨value, rfl⟩
      · simp [scalarText] at start
      · cases value <;> simp [scalarText] at start
  | positive takes =>
      subst start
      exact absurd (takes_number_iff.1 takes).1
        (by simp [Numeral.split, isDigit, isWholePart])
  | text | array | object | negative => simp at start

end Values

/-! ## Items -/

section Items

variable
  {characters rest : List Char}
  {items : List Json}

/-- Items end with a bracket; each but the last has a comma after it. -/
theorem takes_moreItems_iff :
    Takes (takeMoreItems? characters) items rest ↔
      ∃ item between,
        Takes (takeValue? characters) item between ∧
          ((skipSpace between = ']' :: rest ∧ items = [item]) ∨
            ∃ more others,
              skipSpace between = ',' :: more ∧
                Takes (takeMoreItems? more) others rest ∧
                items = item :: others) := by
  rw [takeMoreItems?]
  constructor
  · rintro ⟨taken, delivered, rfl, rfl⟩
    obtain ⟨item, found, delivered⟩ := Option.bind_eq_some_iff.1 delivered
    refine ⟨item.value, item.rest, ⟨item, found, rfl, rfl⟩, ?_⟩
    split at delivered
    · cases delivered
      exact .inl ⟨‹_›, rfl⟩
    · obtain ⟨more, moreFound, delivered⟩ :=
        Option.bind_eq_some_iff.1 delivered
      cases delivered
      exact
        .inr ⟨_, more.value, ‹_›, ⟨more, moreFound, rfl, rfl⟩, rfl⟩
    · cases delivered
  · rintro
      ⟨item, between, ⟨taken, delivered, rfl, rfl⟩,
        ⟨shape, rfl⟩ |
          ⟨more, others, shape, ⟨moreTaken, moreDelivered, rfl, rfl⟩, rfl⟩⟩
    · rw [delivered]
      simp only [bind, Option.bind_some]
      split <;> simp_all [Takes]
    · rw [delivered]
      simp only [bind, Option.bind_some]
      split
      case h_2 =>
        rename_i same
        obtain rfl := (List.cons.inj (shape.symm.trans same)).2
        rw [moreDelivered]
        exact ⟨_, rfl, rfl, rfl⟩
      all_goals simp_all

theorem takes_items_iff :
    Takes (takeItems? characters) items rest ↔
      (skipSpace characters = ']' :: rest ∧ items = []) ∨
        Takes (takeMoreItems? characters) items rest := by
  rw [takeItems?]
  split
  · rename_i shape
    constructor
    · intro takes
      obtain ⟨rfl, rfl⟩ := takes.of_some
      exact .inl ⟨shape, rfl⟩
    · rintro (⟨same, rfl⟩ | takes)
      · obtain rfl := (List.cons.inj (shape.symm.trans same)).2
        exact ⟨_, rfl, rfl, rfl⟩
      · obtain ⟨item, between, first, -⟩ := takes_moreItems_iff.1 takes
        exact (not_takes_of_bracket shape first).elim
  · rename_i noBracket
    constructor
    · exact .inr
    · rintro (⟨shape, -⟩ | takes)
      · exact (noBracket rest shape).elim
      · exact takes

end Items

/-! ## Members -/

section Members

variable
  {characters between rest : List Char}
  {members : List (Option String × Json)}

/-- A key is a text with a colon after it. -/
theorem takes_key_iff {key : Option String} :
    Takes (takeKey? characters) key rest ↔
      ∃ afterQuote text between,
        skipSpace characters = '\x22' :: afterQuote ∧
          Takes (takeText? afterQuote) text between ∧
          skipSpace between = ':' :: rest ∧
          text.map String.ofList = key := by
  rw [takeKey?.eq_def]
  constructor
  · intro takes
    split at takes
    · rename_i afterQuote shape
      obtain ⟨taken, delivered, rfl, rfl⟩ := takes
      obtain ⟨text, found, delivered⟩ := Option.bind_eq_some_iff.1 delivered
      dsimp only at delivered
      split at delivered
      · cases delivered
        exact
          ⟨afterQuote, text.value, text.rest, shape, ⟨text, found, rfl, rfl⟩,
            ‹_›, rfl⟩
      · cases delivered
    · obtain ⟨taken, delivered, -⟩ := takes
      cases delivered
  · rintro
      ⟨afterQuote, text, between, shape, ⟨taken, delivered, rfl, rfl⟩, colon,
        rfl⟩
    split
    · rename_i other same
      obtain rfl := (List.cons.inj (shape.symm.trans same)).2
      rw [delivered]
      simp only [bind, Option.bind_some]
      split <;> simp_all [Takes]
    · simp_all

/-- Members end with a brace; each but the last has a comma after it. -/
theorem takes_moreMembers_iff :
    Takes (takeMoreMembers? characters) members rest ↔
      ∃ key afterKey value between,
        Takes (takeKey? characters) key afterKey ∧
          Takes (takeValue? afterKey) value between ∧
          ((skipSpace between = '\x7d' :: rest ∧ members = [(key, value)]) ∨
            ∃ more others,
              skipSpace between = ',' :: more ∧
                Takes (takeMoreMembers? more) others rest ∧
                members = (key, value) :: others) := by
  rw [takeMoreMembers?]
  constructor
  · rintro ⟨taken, delivered, rfl, rfl⟩
    obtain ⟨key, keyFound, delivered⟩ := Option.bind_eq_some_iff.1 delivered
    obtain ⟨value, found, delivered⟩ := Option.bind_eq_some_iff.1 delivered
    refine
      ⟨key.value, key.rest, value.value, value.rest,
        ⟨key, keyFound, rfl, rfl⟩, ⟨value, found, rfl, rfl⟩, ?_⟩
    split at delivered
    · cases delivered
      exact .inl ⟨‹_›, rfl⟩
    · obtain ⟨more, moreFound, delivered⟩ :=
        Option.bind_eq_some_iff.1 delivered
      cases delivered
      exact
        .inr ⟨_, more.value, ‹_›, ⟨more, moreFound, rfl, rfl⟩, rfl⟩
    · cases delivered
  · rintro
      ⟨key, afterKey, value, between, ⟨keyTaken, keyDelivered, rfl, rfl⟩,
        ⟨taken, delivered, rfl, rfl⟩,
        ⟨shape, rfl⟩ |
          ⟨more, others, shape, ⟨moreTaken, moreDelivered, rfl, rfl⟩, rfl⟩⟩
    · rw [keyDelivered]
      simp only [bind, Option.bind_some, delivered]
      split <;> simp_all [Takes]
    · rw [keyDelivered]
      simp only [bind, Option.bind_some, delivered]
      split
      case h_2 =>
        rename_i same
        obtain rfl := (List.cons.inj (shape.symm.trans same)).2
        rw [moreDelivered]
        exact ⟨_, rfl, rfl, rfl⟩
      all_goals simp_all

theorem takes_members_iff :
    Takes (takeMembers? characters) members rest ↔
      (skipSpace characters = '\x7d' :: rest ∧ members = []) ∨
        Takes (takeMoreMembers? characters) members rest := by
  rw [takeMembers?]
  split
  · rename_i shape
    constructor
    · intro takes
      obtain ⟨rfl, rfl⟩ := takes.of_some
      exact .inl ⟨shape, rfl⟩
    · rintro (⟨same, rfl⟩ | takes)
      · obtain rfl := (List.cons.inj (shape.symm.trans same)).2
        exact ⟨_, rfl, rfl, rfl⟩
      · obtain ⟨key, afterKey, -, -, first, -⟩ := takes_moreMembers_iff.1 takes
        obtain ⟨_, -, -, same, -⟩ := takes_key_iff.1 first
        exact absurd (shape.symm.trans same) (by simp)
  · rename_i noBrace
    constructor
    · exact .inr
    · rintro (⟨shape, -⟩ | takes)
      · exact (noBrace rest shape).elim
      · exact takes

end Members

end IncentivePay.Json
