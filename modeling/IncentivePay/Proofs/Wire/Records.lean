import IncentivePay.Proofs.Wire.DeliveredValues
import IncentivePay.Wire.Record

/-!
# Records are read back

The reader of a record finds in `Json.record members` the members that are
present, each under its name, when no two have the same.  `Fields.get?_of_mem`
says so of one field, and the lemmas after it what the three kinds of fields
make of it.  In the other direction every field of a record that was read is a
value inside it, which is how a property of everything that the JSON reader
delivers reaches the numbers of a record: `Establishes read holds` carries it
from the value of a field to the field.
-/

namespace IncentivePay.Json

/-! ## Written records -/

/-- The fields of a written record. -/
def Fields.ofMembers (members : List (String × Option Json)) : Fields where
  present :=
    members.filterMap fun member =>
      member.2.map fun value => (member.1, value)

theorem mapM_namedMember? (members : List (String × Option Json)) :
    (members.filterMap fun member =>
        member.2.map fun value => (some member.1, value)).mapM namedMember? =
      some (Fields.ofMembers members).present := by
  induction members with
  | nil => rfl
  | cons member members ih =>
      obtain ⟨name, value?⟩ := member
      cases value? with
      | none => simpa [Fields.ofMembers] using ih
      | some value => simp [Fields.ofMembers, ih, namedMember?]

theorem mem_names_of_mem_present
    {members : List (String × Option Json)}
    {field : String × Json}
    (member : field ∈ (Fields.ofMembers members).present) :
    field.1 ∈ members.map fun member => member.1 := by
  obtain ⟨⟨name, value?⟩, within, present⟩ := List.mem_filterMap.1 member
  obtain ⟨value, -, rfl⟩ := Option.map_eq_some_iff.1 present
  exact List.mem_map_of_mem within

theorem nodup_present
    {members : List (String × Option Json)}
    (distinct : (members.map fun member => member.1).Nodup) :
    ((Fields.ofMembers members).present.map fun field => field.1).Nodup := by
  induction members with
  | nil => exact List.nodup_nil
  | cons member members ih =>
      obtain ⟨name, value?⟩ := member
      obtain ⟨isNew, othersDistinct⟩ := List.nodup_cons.1 distinct
      cases value? with
      | none => exact ih othersDistinct
      | some value =>
          refine List.nodup_cons.2 ⟨?_, ih othersDistinct⟩
          intro again
          obtain ⟨field, present, rfl⟩ := List.mem_map.1 again
          exact isNew (mem_names_of_mem_present present)

/-- A written record has the fields that its members have. -/
theorem fields?_record
    {members : List (String × Option Json)}
    (distinct : (members.map fun member => member.1).Nodup) :
    (record members).fields? (members.map fun member => member.1) =
      some (.ofMembers members) := by
  have known :
      (Fields.ofMembers members).present.filter
          (fun member =>
            (members.map fun member => member.1).contains member.1) =
        (Fields.ofMembers members).present := by
    rw [List.filter_eq_self]
    intro field present
    simpa using mem_names_of_mem_present present
  rw [record, fields?, mapM_namedMember?]
  simp only [bind, Option.bind_some, known, nodup_present distinct, if_true]

/-- A member of a written record is the field under its name. -/
theorem Fields.get?_of_mem
    {members : List (String × Option Json)}
    (distinct : (members.map fun member => member.1).Nodup)
    {name : String}
    {value? : Option Json}
    (member : (name, value?) ∈ members) :
    (Fields.ofMembers members).get? name = value? := by
  induction members with
  | nil => cases member
  | cons first members ih =>
      obtain ⟨isNew, othersDistinct⟩ := List.nodup_cons.1 distinct
      rcases List.mem_cons.1 member with rfl | later
      · cases value? with
        | none =>
            have absent :
                (Fields.ofMembers members).present.find?
                    (fun field => field.1 = name) = none := by
              rw [List.find?_eq_none]
              intro field present isName
              rw [← of_decide_eq_true isName] at isNew
              exact isNew (mem_names_of_mem_present present)
            exact congrArg (Option.map _) absent
        | some value => simp [get?, ofMembers]
      · have other : first.1 ≠ name := by
          rintro rfl
          exact isNew (List.mem_map.2 ⟨_, later, rfl⟩)
        obtain ⟨otherName, other?⟩ := first
        cases other? with
        | none => exact ih othersDistinct later
        | some value =>
            have found := ih othersDistinct later
            simpa [get?, ofMembers, other] using found

/-- What is made of the members of a written record is made of the record. -/
theorem reads_record
    {Value : Type}
    {members : List (String × Option Json)}
    {names : List String}
    {readFields : Fields → Option Value}
    {value : Value}
    (areNames : members.map (fun member => member.1) = names)
    (distinct : names.Nodup)
    (reads :
      ∀ fields : Fields,
        (∀ member ∈ members, fields.get? member.1 = member.2) →
        readFields fields = some value) :
    ((record members).fields? names).bind readFields = some value := by
  subst areNames
  rw [fields?_record distinct, Option.bind_some]
  exact reads _ fun member within => Fields.get?_of_mem distinct within

/-- Every key of a written record is a text. -/
theorem key_ne_none_of_record
    {members : List (String × Option Json)} :
    ∀ member ∈ members.filterMap fun member =>
        member.2.map fun value => (some member.1, value),
      member.1 ≠ none := by
  intro member within
  obtain ⟨⟨name, value?⟩, -, present⟩ := List.mem_filterMap.1 within
  obtain ⟨value, -, rfl⟩ := Option.map_eq_some_iff.1 present
  exact Option.some_ne_none name

/-- The values in a written record are those of its members. -/
theorem forall_children_record
    {members : List (String × Option Json)}
    {property : Json → Prop}
    (each : ∀ member ∈ members, ∀ value ∈ member.2, property value) :
    ∀ child ∈ (record members).children, property child := by
  refine List.forall_mem_map.2 fun member within => ?_
  obtain ⟨⟨name, value?⟩, among, present⟩ := List.mem_filterMap.1 within
  obtain ⟨value, isValue, rfl⟩ := Option.map_eq_some_iff.1 present
  exact each _ among value isValue

/-- A record is legible when the values of its members are. -/
theorem isLegible_record
    {members : List (String × Option Json)}
    (areLegible :
      ∀ member ∈ members, ∀ value ∈ member.2, value.IsLegible) :
    (record members).IsLegible :=
  .intro key_ne_none_of_record (forall_children_record areLegible)

namespace Fields

variable
  {Value : Type}
  {fields : Fields}
  {name : String}
  {read : Json → Option Value}

theorem required_of_get?
    {json : Json}
    {value : Value}
    (found : fields.get? name = some json)
    (isRead : read json = some value) :
    fields.required name read = some value := by
  rw [required, found, Option.bind_some, isRead]

theorem withDefault_of_get?
    {json : Json}
    {absent value : Value}
    (found : fields.get? name = some json)
    (isRead : read json = some value) :
    fields.withDefault name absent read = some value := by
  rw [withDefault, found]
  exact isRead

/-- An optional field is there with what each value is read back as. -/
theorem optional_map_of_get?
    {Written : Type}
    {value? : Option Written}
    {write : Written → Json}
    {result : Written → Value}
    (found : fields.get? name = value?.map write)
    (notNull : read .null = none)
    (isRead : ∀ value ∈ value?, read (write value) = some (result value)) :
    fields.optional name read = some (value?.map result) := by
  cases value? with
  | none =>
      rw [optional, found]
      rfl
  | some value =>
      have readsBack := isRead value rfl
      rw [optional, found, Option.map_some]
      split
      · contradiction
      · rename_i isNull
        rw [Option.some.inj isNull, notNull] at readsBack
        contradiction
      · rename_i same
        rw [← Option.some.inj same, readsBack]
        rfl

theorem optional_of_get?
    {value? : Option Value}
    {write : Value → Json}
    (found : fields.get? name = value?.map write)
    (notNull : read .null = none)
    (isRead : ∀ value ∈ value?, read (write value) = some value) :
    fields.optional name read = some value? := by
  rw [optional_map_of_get? found notNull isRead, Option.map_id']

end Fields

/-! ## Records that were read -/

/-- Each result of a reading of several comes from one that was read. -/
theorem exists_of_mem_mapM
    {Value Result : Type}
    {read : Value → Option Result}
    {values : List Value}
    {results : List Result}
    (areRead : values.mapM read = some results)
    {result : Result}
    (member : result ∈ results) :
    ∃ value ∈ values, read value = some result := by
  induction values generalizing results with
  | nil =>
      obtain rfl : [] = results := by simpa using areRead
      cases member
  | cons value values ih =>
      rw [List.mapM_cons] at areRead
      obtain ⟨first, isFirst, areRead⟩ := Option.bind_eq_some_iff.1 areRead
      obtain ⟨others, areOthers, areRead⟩ := Option.bind_eq_some_iff.1 areRead
      obtain rfl := Option.some.inj areRead
      rcases List.mem_cons.1 member with rfl | later
      · exact ⟨value, List.mem_cons_self, isFirst⟩
      · obtain ⟨other, within, isRead⟩ := ih areOthers later
        exact ⟨other, List.mem_cons_of_mem _ within, isRead⟩

/-- A field of a record is a value inside it. -/
theorem mem_children_of_get?
    {json value : Json}
    {names : List String}
    {fields : Fields}
    {name : String}
    (areFields : json.fields? names = some fields)
    (found : fields.get? name = some value) :
    value ∈ json.children := by
  obtain ⟨field, present, rfl⟩ := Option.map_eq_some_iff.1 found
  have within := List.mem_of_find?_eq_some present
  unfold fields? at areFields
  split at areFields
  · split at areFields
    · obtain rfl := Option.some.inj areFields
      exact (List.of_mem_zip within).2
    · contradiction
  · rename_i members
    obtain ⟨named, areNamed, areFields⟩ := Option.bind_eq_some_iff.1 areFields
    dsimp only at areFields
    split at areFields
    · obtain rfl := Option.some.inj areFields
      obtain ⟨member, among, isNamed⟩ :=
        exists_of_mem_mapM areNamed (List.mem_filter.1 within).1
      obtain ⟨key, -, rfl⟩ := Option.map_eq_some_iff.1 isNamed
      exact List.mem_map.2 ⟨member, among, rfl⟩
    · contradiction
  · contradiction

/--
What a reader makes of a value with a property throughout has another
property.
-/
def Establishes
    {Value : Type}
    (inside : Json → Prop)
    (read : Json → Option Value)
    (holds : Value → Prop) :
    Prop :=
  ∀ json value, Throughout inside json → read json = some value → holds value

namespace Fields

variable
  {Value : Type}
  {inside : Json → Prop}
  {holds : Value → Prop}
  {json : Json}
  {names : List String}
  {fields : Fields}
  {name : String}
  {read : Json → Option Value}

theorem exists_of_required
    (areFields : json.fields? names = some fields)
    {value : Value}
    (isRead : fields.required name read = some value) :
    ∃ child ∈ json.children, read child = some value := by
  obtain ⟨child, found, isRead⟩ := Option.bind_eq_some_iff.1 isRead
  exact ⟨child, mem_children_of_get? areFields found, isRead⟩

theorem holds_of_required
    (establishes : Establishes inside read holds)
    (throughout : Throughout inside json)
    (areFields : json.fields? names = some fields)
    {value : Value}
    (isRead : fields.required name read = some value) :
    holds value := by
  obtain ⟨child, within, isRead⟩ := exists_of_required areFields isRead
  obtain ⟨-, below⟩ := throughout
  exact establishes child value (below child within) isRead

theorem holds_of_withDefault
    (establishes : Establishes inside read holds)
    (throughout : Throughout inside json)
    (areFields : json.fields? names = some fields)
    {absent value : Value}
    (holdsAbsent : holds absent)
    (isRead : fields.withDefault name absent read = some value) :
    holds value := by
  unfold withDefault at isRead
  split at isRead
  · exact Option.some.inj isRead ▸ holdsAbsent
  · rename_i field found
    exact
      holds_of_required establishes throughout areFields
        (by rw [required, found]; exact isRead)

theorem holds_of_optional
    (establishes : Establishes inside read holds)
    (throughout : Throughout inside json)
    (areFields : json.fields? names = some fields)
    {value? : Option Value}
    (isRead : fields.optional name read = some value?) :
    ∀ value ∈ value?, holds value := by
  intro value isValue
  unfold optional at isRead
  split at isRead
  · rw [← Option.some.inj isRead] at isValue
    cases isValue
  · rw [← Option.some.inj isRead] at isValue
    cases isValue
  · rename_i field _ found
    obtain ⟨same, fieldIsRead, rfl⟩ := Option.map_eq_some_iff.1 isRead
    obtain rfl := Option.some.inj isValue
    exact
      holds_of_required establishes throughout areFields
        (by rw [required, found]; exact fieldIsRead)

end Fields

end IncentivePay.Json
