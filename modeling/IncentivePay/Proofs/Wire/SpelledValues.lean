import IncentivePay.Proofs.Wire.ScalarTexts

/-!
# What the JSON writers write is read back

`IsSpelled json characters` describes how a value may be written: with any
space in front of the items and members, before a closing mark and after a
colon.  Such characters are read as the value where nothing extends a number.
Both writers keep to that form for a legible value: one whose integers are
held by sixty-four bits, whose real numbers read back, and whose texts and
keys are texts.
-/

namespace IncentivePay.Json

open Formula

/-! ## Values inside values -/

/-- The values one level down. -/
def children : Json → List Json
  | .array items => items
  | .object members => members.map fun member => member.2
  | _ => []

/-- A property of a value and of every value inside it. -/
inductive Throughout (holds : Json → Prop) : Json → Prop
  | intro {json : Json} :
      holds json →
      (∀ child ∈ json.children, Throughout holds child) →
      Throughout holds json

/-- What holds of a value without others inside holds throughout. -/
theorem Throughout.of_scalar
    {holds : Json → Prop}
    {json : Json}
    (here : holds json)
    (noChildren : json.children = []) :
    Throughout holds json :=
  .intro here fun child within => by
    rw [noChildren] at within
    cases within

/-- What the writers need of a value, apart from the values inside it. -/
def IsLegibleNode : Json → Prop
  | .integer value => IsShortInteger value
  | .real number => number.ReadsBack
  | .text content => content ≠ none
  | .object members => ∀ member ∈ members, member.1 ≠ none
  | _ => True

/-- Every integer is short, every number reads back and every text is one. -/
abbrev IsLegible : Json → Prop :=
  Throughout IsLegibleNode

/-! ## Spellings -/

/-- Texts with space before each and a comma between two. -/
def separated
    (space : List Char) :
    List (List Char) →
    List Char
  | [] => []
  | [last] => space ++ last
  | first :: next :: others =>
      space ++ first ++ ',' :: separated space (next :: others)

/-- A member with space after its colon. -/
def memberText
    (blank : List Char)
    (write : Json → List Char)
    (member : Option String × Json) :
    List Char :=
  (textOf member.1).toList ++ ':' :: (blank ++ write member.2)

/-- There is nothing but space among the characters. -/
def AreSpace (characters : List Char) : Prop :=
  ∀ character ∈ characters, isSpace character = true

/-- A value is written with these characters. -/
inductive IsSpelled : Json → List Char → Prop
  | word {json : Json} :
      json = .null ∨ (∃ value, json = .boolean value) →
      IsSpelled json json.scalarText.toList
  | integer {value : Int} :
      IsShortInteger value →
      IsSpelled (.integer value) (toString value).toList
  | real {number : Binary64} :
      number.ReadsBack →
      IsSpelled (.real number) number.jsonText.toList
  | text {content : String} :
      IsSpelled (.text (some content)) (quote content).toList
  | array {items : List Json} {space closing : List Char}
      {write : Json → List Char} :
      AreSpace space →
      AreSpace closing →
      (∀ item ∈ items, IsSpelled item (write item)) →
      IsSpelled (.array items)
        ('[' :: (separated space (items.map write) ++ closing ++ [']']))
  | object {members : List (Option String × Json)}
      {space blank closing : List Char} {write : Json → List Char} :
      AreSpace space →
      AreSpace blank →
      AreSpace closing →
      (∀ member ∈ members, member.1 ≠ none) →
      (∀ member ∈ members, IsSpelled member.2 (write member.2)) →
      IsSpelled (.object members)
        ('\x7b' ::
          (separated space (members.map (memberText blank write)) ++ closing ++
            ['\x7d']))

/-- A value is read off characters, whatever may follow them. -/
def IsReadOff
    (json : Json)
    (characters : List Char) :
    Prop :=
  ∀ rest,
    Stops extendsNumber rest →
    Takes (takeValue? (characters ++ rest)) json rest

section Reading

variable {space closing rest : List Char}

/-- Space in front of a value that is read off is skipped. -/
theorem IsReadOff.takes
    {json : Json}
    {text characters : List Char}
    (isReadOff : IsReadOff json text)
    (areSpace : AreSpace space)
    (stops : Stops extendsNumber rest)
    (spelled : characters = space ++ (text ++ rest)) :
    Takes (takeValue? characters) json rest := by
  apply (isReadOff rest stops).of_skipSpace
  rw [spelled, skipSpace_append areSpace]

/-- Space and a mark after a value end it. -/
theorem stops_space_append
    {mark : Char}
    (areSpace : AreSpace space)
    (isMark : extendsNumber mark = false) :
    Stops extendsNumber (space ++ mark :: rest) := by
  cases space with
  | nil => exact stops_cons isMark
  | cons character others =>
      have isSpace := areSpace character List.mem_cons_self
      apply stops_cons
      simp only [IncentivePay.Json.isSpace, Bool.or_eq_true,
        decide_eq_true_eq] at isSpace
      rcases isSpace with ((rfl | rfl) | rfl) | rfl <;> decide

/-- Items are read up to their bracket. -/
theorem takes_separatedItems
    {write : Json → List Char}
    (areSpace : AreSpace space)
    (isClosing : AreSpace closing)
    {items : List Json}
    (areRead : ∀ item ∈ items, IsReadOff item (write item)) :
    Takes
      (takeItems?
        (separated space (items.map write) ++ closing ++ ']' :: rest))
      items rest := by
  rw [takes_items_iff]
  cases items with
  | nil =>
      refine .inl ⟨?_, rfl⟩
      rw [List.map_nil, separated, List.nil_append, skipSpace_append isClosing,
        skipSpace_cons rfl]
  | cons item items =>
      right
      induction items generalizing item with
      | nil =>
          have first := areRead item List.mem_cons_self
          rw [takes_moreItems_iff]
          refine ⟨item, closing ++ ']' :: rest, ?_, .inl ⟨?_, rfl⟩⟩
          · exact
              first.takes areSpace (stops_space_append isClosing rfl)
                (by simp [separated])
          · rw [skipSpace_append isClosing, skipSpace_cons rfl]
      | cons next items ih =>
          obtain ⟨first, others⟩ := List.forall_mem_cons.1 areRead
          rw [takes_moreItems_iff]
          refine
            ⟨item, _, ?_, .inr ⟨_, next :: items, skipSpace_cons rfl _,
              ih next others, rfl⟩⟩
          have isMark : extendsNumber ',' = false := rfl
          exact first.takes areSpace (stops_cons isMark) (by simp [separated])

/-- A key is read with its colon. -/
theorem takes_spelledKey
    (areSpace : AreSpace space)
    {key : String}
    {characters : List Char}
    (spelled :
      characters = space ++ ((textOf (some key)).toList ++ ':' :: rest)) :
    Takes (takeKey? characters) (some key) rest := by
  have quoted :
      (textOf (some key)).toList ++ ':' :: rest =
        '\x22' :: (key.toList.flatMap escape ++ '\x22' :: ':' :: rest) := by
    simp [textOf, quote]
  rw [takes_key_iff]
  refine
    ⟨_, some key.toList, ':' :: rest, ?_, takes_escapedText key.toList _,
      skipSpace_cons rfl rest, by simp⟩
  rw [spelled, skipSpace_append areSpace, quoted, skipSpace_cons rfl]

/-- Members are read up to their brace. -/
theorem takes_separatedMembers
    {blank : List Char}
    {write : Json → List Char}
    (areSpace : AreSpace space)
    (isBlank : AreSpace blank)
    (isClosing : AreSpace closing)
    {members : List (Option String × Json)}
    (haveKeys : ∀ member ∈ members, member.1 ≠ none)
    (areRead : ∀ member ∈ members, IsReadOff member.2 (write member.2)) :
    Takes
      (takeMembers?
        (separated space (members.map (memberText blank write)) ++ closing ++
          '\x7d' :: rest))
      members rest := by
  rw [takes_members_iff]
  cases members with
  | nil =>
      refine .inl ⟨?_, rfl⟩
      rw [List.map_nil, separated, List.nil_append, skipSpace_append isClosing,
        skipSpace_cons rfl]
  | cons member members =>
      right
      induction members generalizing member with
      | nil =>
          obtain ⟨key, value⟩ := member
          have only := areRead _ List.mem_cons_self
          obtain ⟨key, rfl⟩ :=
            Option.ne_none_iff_exists'.1 (haveKeys _ List.mem_cons_self)
          rw [takes_moreMembers_iff]
          refine
            ⟨some key, blank ++ (write value ++ (closing ++ '\x7d' :: rest)),
              value, closing ++ '\x7d' :: rest, ?_, ?_, .inl ⟨?_, rfl⟩⟩
          · exact
              takes_spelledKey areSpace (by simp [separated, memberText])
          · exact
              only.takes isBlank (stops_space_append isClosing rfl) rfl
          · rw [skipSpace_append isClosing, skipSpace_cons rfl]
      | cons next members ih =>
          obtain ⟨key, value⟩ := member
          obtain ⟨first, others⟩ := List.forall_mem_cons.1 areRead
          obtain ⟨hasKey, othersHaveKeys⟩ := List.forall_mem_cons.1 haveKeys
          obtain ⟨key, rfl⟩ := Option.ne_none_iff_exists'.1 hasKey
          have isMark : extendsNumber ',' = false := rfl
          rw [takes_moreMembers_iff]
          refine
            ⟨some key, _, value, _, ?_,
              first.takes isBlank (stops_cons isMark) rfl,
              .inr ⟨_, next :: members, skipSpace_cons rfl _,
                ih next othersHaveKeys others, rfl⟩⟩
          exact takes_spelledKey areSpace (by simp [separated, memberText])

theorem skipSpace_word
    {json : Json}
    (isWord : json = .null ∨ ∃ value, json = .boolean value) :
    skipSpace (json.scalarText.toList ++ rest) =
      json.scalarText.toList ++ rest := by
  rcases isWord with rfl | ⟨value, rfl⟩
  · simp [scalarText, skipSpace_cons, isSpace]
  · cases value <;> simp [scalarText, skipSpace_cons, isSpace]

end Reading

/-- A spelled value is read back. -/
theorem IsSpelled.isReadOff
    {json : Json}
    {characters : List Char}
    (spelled : IsSpelled json characters) :
    IsReadOff json characters := by
  induction spelled with
  | word isWord =>
      intro rest stops
      rw [takes_value_iff, skipSpace_word isWord]
      exact .word isWord
  | integer isShort => exact fun rest => takes_integer isShort
  | real readsBack => exact fun rest => takes_real readsBack
  | text =>
      rename_i content
      intro rest stops
      have quoted :
          (quote content).toList ++ rest =
            '\x22' :: (content.toList.flatMap escape ++ '\x22' :: rest) := by
        simp [quote]
      have reads := ReadsValue.text (takes_escapedText content.toList rest)
      rw [Option.map_some, String.ofList_toList] at reads
      rw [takes_value_iff, quoted, skipSpace_cons rfl]
      exact reads
  | array areSpace isClosing _ ih =>
      intro rest stops
      rw [takes_value_iff, List.cons_append, skipSpace_cons rfl,
        List.append_assoc]
      exact .array (takes_separatedItems areSpace isClosing ih)
  | object areSpace isBlank isClosing haveKeys _ ih =>
      intro rest stops
      rw [takes_value_iff, List.cons_append, skipSpace_cons rfl,
        List.append_assoc]
      exact
        .object (takes_separatedMembers areSpace isBlank isClosing haveKeys ih)

/-! ## The writers -/

theorem compactItems_eq (items : List Json) :
    (compactItems items).toList =
      separated [] (items.map fun item => item.compact.toList) := by
  induction items with
  | nil => simp [compactItems, separated]
  | cons item items ih =>
      cases items with
      | nil => simp [compactItems, separated]
      | cons next items => simpa [compactItems, separated] using ih

theorem compactMembers_eq (members : List (Option String × Json)) :
    (compactMembers members).toList =
      separated []
        (members.map (memberText [] fun value => value.compact.toList)) := by
  induction members with
  | nil => simp [compactMembers, separated]
  | cons member members ih =>
      cases members with
      | nil => simp [compactMembers, separated, memberText]
      | cons next members =>
          simpa [compactMembers, separated, memberText] using ih

theorem prettyItems_eq
    (level : Nat)
    (items : List Json) :
    (prettyItems level items).toList =
      separated (newLine level).toList
        (items.map fun item => (item.prettyAt level).toList) := by
  induction items with
  | nil => simp [prettyItems, separated]
  | cons item items ih =>
      cases items with
      | nil => simp [prettyItems, separated]
      | cons next items => simpa [prettyItems, separated] using ih

theorem prettyMembers_eq
    (level : Nat)
    (members : List (Option String × Json)) :
    (prettyMembers level members).toList =
      separated (newLine level).toList
        (members.map
          (memberText [' '] fun value => (value.prettyAt level).toList)) := by
  induction members with
  | nil => simp [prettyMembers, separated]
  | cons member members ih =>
      cases members with
      | nil => simp [prettyMembers, separated, memberText]
      | cons next members =>
          simpa [prettyMembers, separated, memberText] using ih

theorem areSpace_nil : AreSpace [] := by
  simp [AreSpace]

theorem areSpace_blank : AreSpace [' '] := by
  simp [AreSpace, isSpace]

theorem areSpace_newLine (level : Nat) :
    AreSpace (newLine level).toList := by
  simp [AreSpace, newLine, isSpace]

/-- A legible value that holds no others is spelled. -/
theorem isSpelled_scalarText
    {json : Json}
    (here : json.IsLegibleNode)
    (noArray : ∀ items, json ≠ .array items)
    (noObject : ∀ members, json ≠ .object members) :
    IsSpelled json json.scalarText.toList := by
  cases json with
  | null => exact .word (.inl rfl)
  | boolean value => exact .word (.inr ⟨value, rfl⟩)
  | integer value => exact .integer here
  | real number => exact .real here
  | text content =>
      obtain ⟨content, rfl⟩ := Option.ne_none_iff_exists'.1 here
      exact .text
  | array items => exact absurd rfl (noArray items)
  | object members => exact absurd rfl (noObject members)

/-- A legible value is spelled without space. -/
theorem isSpelled_compact
    {json : Json}
    (legible : json.IsLegible) :
    IsSpelled json json.compact.toList := by
  induction legible with
  | @intro json here _ ih =>
      cases json with
      | array items =>
          have each : ∀ item ∈ items, IsSpelled item item.compact.toList := ih
          simpa [compact, compactItems_eq] using
            IsSpelled.array areSpace_nil areSpace_nil each
      | object members =>
          have each :
              ∀ member ∈ members,
                IsSpelled member.2 member.2.compact.toList :=
            fun member within => ih _ (List.mem_map_of_mem within)
          simpa [compact, compactMembers_eq] using
            IsSpelled.object areSpace_nil areSpace_nil areSpace_nil here each
      | null | boolean | integer | real | text =>
          simpa [compact] using
            isSpelled_scalarText here (by simp) (by simp)

/-- A legible value is spelled with an item or a member a line. -/
theorem isSpelled_prettyAt
    {json : Json}
    (legible : json.IsLegible)
    (level : Nat) :
    IsSpelled json (json.prettyAt level).toList := by
  induction legible generalizing level with
  | @intro json here _ ih =>
      cases json with
      | array items =>
          have each :
              ∀ item ∈ items,
                IsSpelled item (item.prettyAt (level + 1)).toList :=
            fun item within => ih item within (level + 1)
          cases items with
          | nil =>
              simpa [prettyAt, separated] using
                IsSpelled.array areSpace_nil areSpace_nil each
          | cons item items =>
              simpa [prettyAt, prettyItems_eq] using
                IsSpelled.array (areSpace_newLine (level + 1))
                  (areSpace_newLine level) each
      | object members =>
          have each :
              ∀ member ∈ members,
                IsSpelled member.2 (member.2.prettyAt (level + 1)).toList :=
            fun member within => ih _ (List.mem_map_of_mem within) (level + 1)
          cases members with
          | nil =>
              simpa [prettyAt, separated] using
                @IsSpelled.object [] [] [] []
                  (fun value => (value.prettyAt (level + 1)).toList)
                  areSpace_nil areSpace_nil areSpace_nil here each
          | cons member members =>
              simpa [prettyAt, prettyMembers_eq] using
                IsSpelled.object (areSpace_newLine (level + 1)) areSpace_blank
                  (areSpace_newLine level) here each
      | null | boolean | integer | real | text =>
          simpa [prettyAt] using
            isSpelled_scalarText here (by simp) (by simp)

/-- What is read off a text without anything after it is what the text holds. -/
theorem IsSpelled.read?
    {json : Json}
    {text : String}
    (spelled : IsSpelled json text.toList) :
    read? text = some json := by
  have takes := spelled.isReadOff [] stops_nil
  rw [List.append_nil] at takes
  exact read?_iff.2 ⟨[], takes, by simp⟩

/-- A legible value is read back from either of its texts. -/
theorem read?_of_isLegible
    {json : Json}
    (legible : json.IsLegible) :
    read? json.compact = some json ∧ read? json.pretty = some json :=
  ⟨(isSpelled_compact legible).read?, (isSpelled_prettyAt legible 0).read?⟩

end IncentivePay.Json
