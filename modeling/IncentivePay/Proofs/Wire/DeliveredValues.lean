import IncentivePay.Proofs.Wire.SpelledValues

/-!
# What the JSON reader delivers

Sixty-four bits hold every integer in a value that a text holds; larger whole
numbers are delivered as real ones.
-/

namespace IncentivePay.Json

/-- Sixty-four bits hold the value if it is an integer. -/
def IsShortNode : Json → Prop
  | .integer value => IsShortInteger value
  | _ => True

/-- Sixty-four bits hold every integer. -/
abbrev HasShortIntegers : Json → Prop :=
  Throughout IsShortNode

theorem Takes.length_lt
    {Value : Type}
    {bound : Nat}
    {taking : Option (Taken Value bound)}
    {value : Value}
    {rest : List Char}
    (takes : Takes taking value rest) :
    rest.length < bound := by
  obtain ⟨taken, -, -, rfl⟩ := takes
  exact taken.shorter

/-- The reading of a whole number is short or real. -/
theorem hasShortIntegers_ofWhole
    (negative : Bool)
    (numeral : Numeral) :
    (ofWhole negative numeral).HasShortIntegers := by
  unfold ofWhole
  dsimp only
  split
  · split
    · rename_i fits
      refine .of_scalar ⟨?_, ?_⟩ rfl <;> omega
    · exact .of_scalar trivial rfl
  · split
    · rename_i fits
      refine .of_scalar ⟨?_, ?_⟩ rfl <;> omega
    · exact .of_scalar trivial rfl

section Delivery

variable
  {bound : Nat}
  {characters rest : List Char}

/-- The values that are read off fewer characters have short integers. -/
def DeliversShort (bound : Nat) : Prop :=
  ∀ characters json rest,
    characters.length < bound →
    Takes (takeValue? characters) json rest →
    json.HasShortIntegers

theorem hasShortIntegers_number
    {negative : Bool}
    {number : Json}
    (takes : Takes (takeNumber? negative characters) number rest) :
    number.HasShortIntegers := by
  obtain ⟨-, -, -, -, rfl⟩ := takes_number_iff.1 takes
  split
  · exact hasShortIntegers_ofWhole negative _
  · exact .of_scalar trivial rfl

theorem hasShortIntegers_items
    (delivers : DeliversShort bound)
    {items : List Json}
    (takes : Takes (takeMoreItems? characters) items rest)
    (fewer : characters.length < bound) :
    ∀ item ∈ items, item.HasShortIntegers := by
  induction items generalizing characters with
  | nil => simp
  | cons item items ih =>
      obtain ⟨first, between, takesFirst, ends⟩ := takes_moreItems_iff.1 takes
      have short := delivers characters first between fewer takesFirst
      have left := takesFirst.length_lt
      rcases ends with ⟨-, same⟩ | ⟨more, others, shape, takesMore, same⟩
      · rw [same]
        simpa using short
      · obtain ⟨rfl, rfl⟩ := List.cons.inj same
        have trimmed := length_skipSpace_le between
        rw [shape, List.length_cons] at trimmed
        exact List.forall_mem_cons.2 ⟨short, ih takesMore (by omega)⟩

theorem hasShortIntegers_members
    (delivers : DeliversShort bound)
    {members : List (Option String × Json)}
    (takes : Takes (takeMoreMembers? characters) members rest)
    (fewer : characters.length < bound) :
    ∀ member ∈ members, member.2.HasShortIntegers := by
  induction members generalizing characters with
  | nil => simp
  | cons member members ih =>
      obtain ⟨key, afterKey, value, between, takesKey, takesFirst, ends⟩ :=
        takes_moreMembers_iff.1 takes
      have afterKeyLeft := takesKey.length_lt
      have left := takesFirst.length_lt
      have short := delivers afterKey value between (by omega) takesFirst
      rcases ends with ⟨-, same⟩ | ⟨more, others, shape, takesMore, same⟩
      · rw [same]
        simpa using short
      · obtain ⟨rfl, rfl⟩ := List.cons.inj same
        have trimmed := length_skipSpace_le between
        rw [shape, List.length_cons] at trimmed
        exact List.forall_mem_cons.2 ⟨short, ih takesMore (by omega)⟩

theorem deliversShort (bound : Nat) : DeliversShort bound := by
  induction bound with
  | zero =>
      intro characters json rest fewer
      cases fewer
  | succ bound ih =>
      intro characters json rest fewer takes
      have reads := takes_value_iff.1 takes
      have trimmed := length_skipSpace_le characters
      generalize skipSpace characters = start at reads trimmed
      cases reads with
      | word isWord =>
          rcases isWord with rfl | ⟨value, rfl⟩ <;>
            exact .of_scalar trivial rfl
      | text => exact .of_scalar trivial rfl
      | negative takes => exact hasShortIntegers_number takes
      | positive takes => exact hasShortIntegers_number takes
      | array takes =>
          rw [List.length_cons] at trimmed
          refine .intro trivial ?_
          rcases takes_items_iff.1 takes with ⟨-, rfl⟩ | takes
          · simp [children]
          · exact hasShortIntegers_items ih takes (by omega)
      | object takes =>
          rw [List.length_cons] at trimmed
          refine .intro trivial ?_
          rcases takes_members_iff.1 takes with ⟨-, rfl⟩ | takes
          · simp [children]
          · exact
              List.forall_mem_map.2
                (hasShortIntegers_members ih takes (by omega))

end Delivery

/-- Sixty-four bits hold every integer that a text holds. -/
theorem hasShortIntegers_of_read?
    {text : String}
    {json : Json}
    (isRead : read? text = some json) :
    json.HasShortIntegers := by
  obtain ⟨rest, takes, -⟩ := read?_iff.1 isRead
  exact deliversShort _ _ _ _ (Nat.lt_succ_self _) takes

end IncentivePay.Json
