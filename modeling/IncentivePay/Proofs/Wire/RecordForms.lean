import IncentivePay.Proofs.Binary64.Boundedness
import IncentivePay.Proofs.Wire.CalendarTexts
import IncentivePay.Proofs.Wire.Records
import IncentivePay.Wire.Payout

/-!
# The JSON forms of records

`Json.FormLaws` says what the writer and the reader of a type have to do with
each other: a value that the form can hold is read back from its JSON form,
the form is legible when its numbers are, and what the reader makes of a value
that was read off a text is something the form can hold.  The laws of a record
follow from those of its fields.  What a record can hold are finite numbers.
-/

namespace IncentivePay

open Json

namespace Binary64

theorem representable_shortBound :
    Representable (UInt64.size * unitsPerOne) :=
  ⟨by decide +kernel, by decide +kernel⟩

/-- The number nearest to an integer of sixty-four bits is finite. -/
theorem isFinite_ofInt
    {value : Int}
    (isShort : IsShortInteger value) :
    (ofInt value).isFinite = true := by
  have small : value.natAbs ≤ UInt64.size := by
    have lower := isShort.1
    have upper := isShort.2
    omega
  have atMost :
      value.natAbs * unitsPerOne ≤ UInt64.size * unitsPerOne * 1 := by
    rw [Nat.mul_one]
    exact Nat.mul_le_mul_right _ small
  rw [ofInt, ofUnits]
  exact isFinite_ofRatio _ Nat.one_pos representable_shortBound atMost

end Binary64

namespace Json

/-! ## Laws of a form -/

/-- How the writer of a type and its reader belong together. -/
structure FormLaws
    {Value : Type}
    (write : Value → Json)
    (read : Json → Option Value)
    (isHeld isLegible : Value → Prop) :
    Prop where
  rejectsNull : read .null = none
  readsBack : ∀ value, isHeld value → read (write value) = some value
  legible : ∀ value, isLegible value → (write value).IsLegible
  delivers : Establishes IsShortNode read isHeld

namespace FormLaws

variable
  {Value : Type}
  {write : Value → Json}
  {read : Json → Option Value}
  {isHeld isLegible : Value → Prop}

/-- What is held may be described in other words. -/
theorem congr
    (laws : FormLaws write read isHeld isLegible)
    {other : Value → Prop}
    (same : ∀ value, isHeld value ↔ other value) :
    FormLaws write read other isLegible where
  rejectsNull := laws.rejectsNull
  readsBack value held := laws.readsBack value ((same value).2 held)
  legible := laws.legible
  delivers json value throughout isRead :=
    (same value).1 (laws.delivers json value throughout isRead)

variable
  {fields : Fields}
  {name : String}
  {value : Value}
  {value? : Option Value}

theorem required
    (laws : FormLaws write read isHeld isLegible)
    (found : fields.get? name = some (write value))
    (held : isHeld value) :
    fields.required name read = some value :=
  Fields.required_of_get? found (laws.readsBack value held)

theorem withDefault
    (laws : FormLaws write read isHeld isLegible)
    (found : fields.get? name = some (write value))
    (held : isHeld value)
    (absent : Value) :
    fields.withDefault name absent read = some value :=
  Fields.withDefault_of_get? found (laws.readsBack value held)

theorem optional
    (laws : FormLaws write read isHeld isLegible)
    (found : fields.get? name = value?.map write)
    (held : ∀ value ∈ value?, isHeld value) :
    fields.optional name read = some value? :=
  Fields.optional_of_get? found laws.rejectsNull fun value isValue =>
    laws.readsBack value (held value isValue)

theorem legible_some
    (laws : FormLaws write read isHeld isLegible)
    (legible : isLegible value) :
    ∀ json ∈ some (write value), json.IsLegible := by
  rintro json ⟨⟩
  exact laws.legible value legible

theorem legible_map
    (laws : FormLaws write read isHeld isLegible)
    (legible : ∀ value ∈ value?, isLegible value) :
    ∀ json ∈ value?.map write, json.IsLegible := by
  intro json isJson
  obtain ⟨value, isValue, rfl⟩ := Option.map_eq_some_iff.1 isJson
  exact laws.legible value (legible value isValue)

section Delivered

variable
  {json : Json}
  {names : List String}

theorem held_required
    (laws : FormLaws write read isHeld isLegible)
    (throughout : json.HasShortIntegers)
    (areFields : json.fields? names = some fields)
    (isRead : fields.required name read = some value) :
    isHeld value :=
  Fields.holds_of_required laws.delivers throughout areFields isRead

theorem held_withDefault
    (laws : FormLaws write read isHeld isLegible)
    (throughout : json.HasShortIntegers)
    (areFields : json.fields? names = some fields)
    {absent : Value}
    (heldAbsent : isHeld absent)
    (isRead : fields.withDefault name absent read = some value) :
    isHeld value :=
  Fields.holds_of_withDefault laws.delivers throughout areFields heldAbsent
    isRead

theorem held_optional
    (laws : FormLaws write read isHeld isLegible)
    (throughout : json.HasShortIntegers)
    (areFields : json.fields? names = some fields)
    (isRead : fields.optional name read = some value?) :
    ∀ value ∈ value?, isHeld value :=
  Fields.holds_of_optional laws.delivers throughout areFields isRead

end Delivered

end FormLaws

/-! ## Forms without values inside -/

/-- Any value of a type. -/
abbrev Anything {Value : Type} : Value → Prop :=
  fun _ => True

theorem anything
    {Value : Type}
    {value? : Option Value} :
    ∀ value ∈ value?, Anything value :=
  fun _ _ => trivial

theorem isLegible_ofString (content : String) :
    (ofString content).IsLegible :=
  .of_scalar (Option.some_ne_none content) rfl

theorem children_ofNumber (number : Binary64) :
    (ofNumber number).children = [] := by
  unfold ofNumber
  split <;> rfl

theorem isLegibleNode_ofNumber
    {number : Binary64}
    (readsBack : number.isFinite = true → number.ReadsBack) :
    (ofNumber number).IsLegibleNode := by
  unfold ofNumber
  split
  · rename_i isFinite
    exact readsBack isFinite
  · trivial

/-- Numbers are held while they are finite. -/
theorem numberLaws :
    FormLaws ofNumber number? (fun number => number.isFinite = true)
      Binary64.ReadsBack where
  rejectsNull := rfl
  readsBack number isFinite := by
    simp [ofNumber, number?, isFinite]
  legible number readsBack :=
    .of_scalar (isLegibleNode_ofNumber fun _ => readsBack)
      (children_ofNumber number)
  delivers json number throughout isRead := by
    obtain ⟨here, -⟩ := throughout
    unfold number? at isRead
    split at isRead
    · obtain rfl := Option.some.inj isRead
      exact Binary64.isFinite_ofInt here
    · split at isRead
      · rename_i isFinite
        exact Option.some.inj isRead ▸ isFinite
      · contradiction
    · contradiction

theorem stringLaws : FormLaws ofString string? Anything Anything where
  rejectsNull := rfl
  readsBack _ _ := rfl
  legible content _ := isLegible_ofString content
  delivers _ _ _ _ := trivial

theorem booleanLaws : FormLaws Json.boolean boolean? Anything Anything where
  rejectsNull := rfl
  readsBack _ _ := rfl
  legible _ _ := .of_scalar trivial rfl
  delivers _ _ _ _ := trivial

theorem int64Laws :
    FormLaws (fun amount : Int64 => .integer amount.toInt) int64? Anything
      Anything where
  rejectsNull := rfl
  readsBack amount _ := by
    have isShort :
        Int64.minValue.toInt ≤ amount.toInt ∧
          amount.toInt ≤ Int64.maxValue.toInt :=
      ⟨amount.minValue_le_toInt, amount.toInt_le⟩
    rw [int64?, if_pos isShort, Int64.ofInt_toInt]
  legible amount _ := by
    have atLeast := amount.le_toInt
    have below := amount.toInt_lt
    have size : UInt64.size = 2 ^ 64 := rfl
    refine .of_scalar ⟨?_, ?_⟩ rfl <;> omega
  delivers _ _ _ _ := trivial

/-- A type with texts has the laws when it is read back from them. -/
theorem textLaws
    {Value : Type}
    {text : Value → String}
    {readText : String → Option Value}
    {isHeld : Value → Prop}
    (readsBack : ∀ value, isHeld value → readText (text value) = some value)
    (delivers : ∀ content value, readText content = some value → isHeld value) :
    FormLaws (fun value => ofString (text value))
      (fun json => json.string?.bind readText) isHeld Anything where
  rejectsNull := rfl
  readsBack := readsBack
  legible value _ := isLegible_ofString (text value)
  delivers json value _ isRead := by
    obtain ⟨content, -, isRead⟩ := Option.bind_eq_some_iff.1 isRead
    exact delivers content value isRead

end Json

theorem Date.formLaws :
    FormLaws Date.toJson Date.ofJson? Anything Anything :=
  textLaws (fun date _ => Date.read?_text date) fun _ _ _ => trivial

theorem Instant.formLaws :
    FormLaws Instant.toJson Instant.ofJson? Anything Anything :=
  textLaws (fun instant _ => Instant.read?_text instant) fun _ _ _ => trivial

/-- Periods are held while four digits hold their years. -/
theorem Period.formLaws :
    FormLaws Period.toJson Period.ofJson? Period.IsWritable Anything := by
  refine textLaws (fun period isWritable => ?_) fun content period isRead => ?_
  · rw [Period.read?, Period.parse_text isWritable]
    rfl
  · unfold Period.read? at isRead
    cases isParsed : Period.parse content with
    | ok parsed =>
        rw [isParsed] at isRead
        obtain rfl := Option.some.inj isRead
        exact Period.isWritable_of_parse isParsed
    | error reason =>
        rw [isParsed] at isRead
        contradiction

theorem PlanType.formLaws :
    FormLaws PlanType.toJson PlanType.ofJson? Anything Anything where
  rejectsNull := rfl
  readsBack planType _ := PlanType.ofName?_name planType
  legible planType _ := isLegible_ofString planType.name
  delivers _ _ _ _ := trivial

/-! ## Records -/

section Records

variable (property : Binary64 → Prop)

/-- A property holds of every number of parameters. -/
def Parameters.NumbersSatisfy (parameters : Parameters) : Prop :=
  (∀ number ∈ parameters.rate, property number) ∧
    (∀ number ∈ parameters.threshold, property number) ∧
    (∀ number ∈ parameters.minAmount, property number) ∧
    ∀ number ∈ parameters.maxAmount, property number

/-- A property holds of every number of sales. -/
def Sales.NumbersSatisfy (sales : Sales) : Prop :=
  property sales.personal ∧
    property sales.total ∧
    ∀ number ∈ sales.team, property number

/-- A property holds of every number of a profile. -/
def Profile.NumbersSatisfy (profile : Profile) : Prop :=
  (∀ number ∈ profile.baseSalary, property number) ∧
    (∀ number ∈ profile.years, property number) ∧
    ∀ number ∈ profile.performance, property number

/-- A property holds of every number that a calculation was given. -/
def Details.InputsSatisfy (details : Details) : Prop :=
  details.parameters.NumbersSatisfy property ∧
    (∀ sales ∈ details.salesData, sales.NumbersSatisfy property) ∧
    ∀ profile ∈ details.profile, profile.NumbersSatisfy property

/-- A property holds of every number of details. -/
def Details.NumbersSatisfy (details : Details) : Prop :=
  details.parameters.NumbersSatisfy property ∧
    (∀ sales ∈ details.salesData, sales.NumbersSatisfy property) ∧
    (∀ profile ∈ details.profile, profile.NumbersSatisfy property) ∧
    ∀ number ∈ details.rawAmount, property number

end Records

theorem Parameters.numbersSatisfy_empty {property : Binary64 → Prop} :
    empty.NumbersSatisfy property := by
  refine ⟨?_, ?_, ?_, ?_⟩ <;> rintro number ⟨⟩

theorem Parameters.formLaws :
    FormLaws Parameters.toJson Parameters.ofJson?
      (NumbersSatisfy fun number => number.isFinite = true)
      (NumbersSatisfy Binary64.ReadsBack) where
  rejectsNull := rfl
  readsBack parameters held := by
    obtain ⟨heldRate, heldThreshold, heldMin, heldMax⟩ := held
    refine reads_record rfl (by decide) fun fields found => ?_
    simp only [List.forall_mem_cons] at found
    obtain ⟨rate, threshold, minAmount, maxAmount, -⟩ := found
    simp only [numberLaws.optional rate heldRate,
      numberLaws.optional threshold heldThreshold,
      numberLaws.optional minAmount heldMin,
      numberLaws.optional maxAmount heldMax, bind, Option.bind_some]
  legible parameters legible := by
    obtain ⟨rate, threshold, minAmount, maxAmount⟩ := legible
    apply isLegible_record
    simp only [List.forall_mem_cons]
    exact
      ⟨numberLaws.legible_map rate, numberLaws.legible_map threshold,
        numberLaws.legible_map minAmount, numberLaws.legible_map maxAmount,
        List.forall_mem_nil _⟩
  delivers json parameters throughout isRead := by
    obtain ⟨fields, areFields, isRead⟩ := Option.bind_eq_some_iff.1 isRead
    obtain ⟨rate, isRate, isRead⟩ := Option.bind_eq_some_iff.1 isRead
    obtain ⟨threshold, isThreshold, isRead⟩ := Option.bind_eq_some_iff.1 isRead
    obtain ⟨minAmount, isMin, isRead⟩ := Option.bind_eq_some_iff.1 isRead
    obtain ⟨maxAmount, isMax, isRead⟩ := Option.bind_eq_some_iff.1 isRead
    obtain rfl := Option.some.inj isRead
    exact
      ⟨numberLaws.held_optional throughout areFields isRate,
        numberLaws.held_optional throughout areFields isThreshold,
        numberLaws.held_optional throughout areFields isMin,
        numberLaws.held_optional throughout areFields isMax⟩

theorem Sales.formLaws :
    FormLaws Sales.toJson Sales.ofJson?
      (NumbersSatisfy fun number => number.isFinite = true)
      (NumbersSatisfy Binary64.ReadsBack) where
  rejectsNull := rfl
  readsBack sales held := by
    obtain ⟨heldPersonal, heldTotal, heldTeam⟩ := held
    refine reads_record rfl (by decide) fun fields found => ?_
    simp only [List.forall_mem_cons] at found
    obtain ⟨personal, total, team, -⟩ := found
    simp only [numberLaws.required personal heldPersonal,
      numberLaws.required total heldTotal,
      numberLaws.optional team heldTeam, bind, Option.bind_some]
  legible sales legible := by
    obtain ⟨personal, total, team⟩ := legible
    apply isLegible_record
    simp only [List.forall_mem_cons]
    exact
      ⟨numberLaws.legible_some personal, numberLaws.legible_some total,
        numberLaws.legible_map team, List.forall_mem_nil _⟩
  delivers json sales throughout isRead := by
    obtain ⟨fields, areFields, isRead⟩ := Option.bind_eq_some_iff.1 isRead
    obtain ⟨personal, isPersonal, isRead⟩ := Option.bind_eq_some_iff.1 isRead
    obtain ⟨total, isTotal, isRead⟩ := Option.bind_eq_some_iff.1 isRead
    obtain ⟨team, isTeam, isRead⟩ := Option.bind_eq_some_iff.1 isRead
    obtain rfl := Option.some.inj isRead
    exact
      ⟨numberLaws.held_required throughout areFields isPersonal,
        numberLaws.held_required throughout areFields isTotal,
        numberLaws.held_optional throughout areFields isTeam⟩

theorem Profile.formLaws :
    FormLaws Profile.toJson Profile.ofJson?
      (NumbersSatisfy fun number => number.isFinite = true)
      (NumbersSatisfy Binary64.ReadsBack) where
  rejectsNull := rfl
  readsBack profile held := by
    obtain ⟨heldSalary, heldYears, heldPerformance⟩ := held
    refine reads_record rfl (by decide) fun fields found => ?_
    simp only [List.forall_mem_cons] at found
    obtain ⟨baseSalary, years, performance, -⟩ := found
    simp only [numberLaws.optional baseSalary heldSalary,
      numberLaws.optional years heldYears,
      numberLaws.optional performance heldPerformance, bind, Option.bind_some]
  legible profile legible := by
    obtain ⟨baseSalary, years, performance⟩ := legible
    apply isLegible_record
    simp only [List.forall_mem_cons]
    exact
      ⟨numberLaws.legible_map baseSalary, numberLaws.legible_map years,
        numberLaws.legible_map performance, List.forall_mem_nil _⟩
  delivers json profile throughout isRead := by
    obtain ⟨fields, areFields, isRead⟩ := Option.bind_eq_some_iff.1 isRead
    obtain ⟨baseSalary, isSalary, isRead⟩ := Option.bind_eq_some_iff.1 isRead
    obtain ⟨years, areYears, isRead⟩ := Option.bind_eq_some_iff.1 isRead
    obtain ⟨performance, isPerformance, isRead⟩ :=
      Option.bind_eq_some_iff.1 isRead
    obtain rfl := Option.some.inj isRead
    exact
      ⟨numberLaws.held_optional throughout areFields isSalary,
        numberLaws.held_optional throughout areFields areYears,
        numberLaws.held_optional throughout areFields isPerformance⟩

/-- What is left out of details when it is false is false when it is absent. -/
theorem Details.readsBack_salesAssumedZero
    {fields : Fields}
    {name : String}
    {flag : Bool}
    (found :
      fields.get? name = if flag then some (.boolean true) else none) :
    fields.withDefault name false boolean? = some flag := by
  cases flag with
  | true => exact booleanLaws.withDefault found trivial false
  | false => rw [Fields.withDefault, found]; rfl

/--
An optional number that is not finite is written as null and read as absent.
-/
theorem optional_ofNumber
    {fields : Fields}
    {name : String}
    {number? : Option Binary64}
    (found : fields.get? name = number?.map ofNumber) :
    fields.optional name Json.number? =
      some (number?.filter Binary64.isFinite) := by
  cases number? with
  | none =>
      rw [Fields.optional, found]
      rfl
  | some number =>
      cases isFinite : number.isFinite with
      | true =>
          have held : ∀ same ∈ some number, same.isFinite = true := by
            rintro same ⟨⟩
            exact isFinite
          rw [numberLaws.optional found held, Option.filter_some, if_pos isFinite]
      | false =>
          rw [Fields.optional, found, Option.filter_some, isFinite]
          simp [ofNumber, isFinite]

namespace Details

/-- The details that are read back: a raw amount that is not finite is lost. -/
def asWritten (details : Details) : Details :=
  { details with rawAmount := details.rawAmount.filter Binary64.isFinite }

theorem asWritten_of_finite
    {details : Details}
    (finite : ∀ raw ∈ details.rawAmount, raw.isFinite = true) :
    details.asWritten = details := by
  have kept :
      details.rawAmount.filter Binary64.isFinite = details.rawAmount := by
    cases given : details.rawAmount with
    | none => rfl
    | some raw => rw [Option.filter_some, if_pos (finite raw given)]
  rw [asWritten, kept]

theorem ofJson?_toJson
    {details : Details}
    (finite : details.InputsSatisfy fun number => number.isFinite = true) :
    ofJson? details.toJson = some details.asWritten := by
  obtain ⟨heldParameters, heldSales, heldProfile⟩ := finite
  refine reads_record rfl (by decide) fun fields found => ?_
  simp only [List.forall_mem_cons] at found
  obtain
    ⟨template, formula, parameters, sales, profile, raw, assumed, error, -⟩ :=
    found
  simp only [PlanType.formLaws.optional template anything,
    stringLaws.optional formula anything,
    Parameters.formLaws.withDefault parameters heldParameters,
    Sales.formLaws.optional sales heldSales,
    Profile.formLaws.optional profile heldProfile, optional_ofNumber raw,
    readsBack_salesAssumedZero assumed,
    stringLaws.optional error anything, bind, Option.bind_some]
  rfl

/--
The numbers read back from their texts; a raw amount has to if it is finite.
-/
structure IsLegible (details : Details) : Prop where
  inputs : details.InputsSatisfy Binary64.ReadsBack
  rawAmount :
    ∀ raw ∈ details.rawAmount, raw.isFinite = true → raw.ReadsBack

theorem isLegible_toJson
    {details : Details}
    (legible : details.IsLegible) :
    details.toJson.IsLegible := by
  obtain ⟨⟨parameters, sales, profile⟩, raw⟩ := legible
  have rawLegible :
      ∀ json ∈ details.rawAmount.map ofNumber, json.IsLegible := by
    intro json isJson
    obtain ⟨number, isNumber, rfl⟩ := Option.map_eq_some_iff.1 isJson
    exact
      .of_scalar (isLegibleNode_ofNumber (raw number isNumber))
        (children_ofNumber number)
  apply isLegible_record
  simp only [List.forall_mem_cons]
  refine
    ⟨PlanType.formLaws.legible_map anything, stringLaws.legible_map anything,
      Parameters.formLaws.legible_some parameters,
      Sales.formLaws.legible_map sales, Profile.formLaws.legible_map profile,
      rawLegible, ?_, stringLaws.legible_map anything, List.forall_mem_nil _⟩
  split
  · exact booleanLaws.legible_some trivial
  · rintro json ⟨⟩

end Details

theorem Details.formLaws :
    FormLaws Details.toJson Details.ofJson?
      (NumbersSatisfy fun number => number.isFinite = true)
      (NumbersSatisfy Binary64.ReadsBack) where
  rejectsNull := rfl
  readsBack details held := by
    obtain ⟨parameters, sales, profile, raw⟩ := held
    rw [ofJson?_toJson ⟨parameters, sales, profile⟩, asWritten_of_finite raw]
  legible details legible := by
    obtain ⟨parameters, sales, profile, raw⟩ := legible
    exact
      isLegible_toJson
        ⟨⟨parameters, sales, profile⟩, fun number isRaw _ => raw number isRaw⟩
  delivers json details throughout isRead := by
    obtain ⟨fields, areFields, isRead⟩ := Option.bind_eq_some_iff.1 isRead
    obtain ⟨template, -, isRead⟩ := Option.bind_eq_some_iff.1 isRead
    obtain ⟨formula, -, isRead⟩ := Option.bind_eq_some_iff.1 isRead
    obtain ⟨parameters, areParameters, isRead⟩ :=
      Option.bind_eq_some_iff.1 isRead
    obtain ⟨sales, areSales, isRead⟩ := Option.bind_eq_some_iff.1 isRead
    obtain ⟨profile, isProfile, isRead⟩ := Option.bind_eq_some_iff.1 isRead
    obtain ⟨raw, isRaw, isRead⟩ := Option.bind_eq_some_iff.1 isRead
    obtain ⟨assumed, -, isRead⟩ := Option.bind_eq_some_iff.1 isRead
    obtain ⟨error, -, isRead⟩ := Option.bind_eq_some_iff.1 isRead
    obtain rfl := Option.some.inj isRead
    exact
      ⟨Parameters.formLaws.held_withDefault throughout areFields
          Parameters.numbersSatisfy_empty areParameters,
        Sales.formLaws.held_optional throughout areFields areSales,
        Profile.formLaws.held_optional throughout areFields isProfile,
        numberLaws.held_optional throughout areFields isRaw⟩

theorem Config.formLaws :
    FormLaws Config.toJson Config.ofJson?
      (fun config =>
        config.parameters.NumbersSatisfy fun number => number.isFinite = true)
      (fun config => config.parameters.NumbersSatisfy Binary64.ReadsBack) where
  rejectsNull := rfl
  readsBack config held := by
    refine reads_record rfl (by decide) fun fields found => ?_
    simp only [List.forall_mem_cons] at found
    obtain
      ⟨planType, parameters, formula, active, effective, modified, author, -⟩ :=
      found
    simp only [PlanType.formLaws.required planType trivial,
      Parameters.formLaws.withDefault parameters held,
      stringLaws.optional formula anything,
      booleanLaws.withDefault active trivial,
      Date.formLaws.optional effective anything,
      Instant.formLaws.optional modified anything,
      stringLaws.optional author anything, bind, Option.bind_some]
  legible config legible := by
    apply isLegible_record
    simp only [List.forall_mem_cons]
    exact
      ⟨PlanType.formLaws.legible_some trivial,
        Parameters.formLaws.legible_some legible,
        stringLaws.legible_map anything, booleanLaws.legible_some trivial,
        Date.formLaws.legible_map anything,
        Instant.formLaws.legible_map anything,
        stringLaws.legible_map anything, List.forall_mem_nil _⟩
  delivers json config throughout isRead := by
    obtain ⟨fields, areFields, isRead⟩ := Option.bind_eq_some_iff.1 isRead
    obtain ⟨planType, -, isRead⟩ := Option.bind_eq_some_iff.1 isRead
    obtain ⟨parameters, areParameters, isRead⟩ :=
      Option.bind_eq_some_iff.1 isRead
    obtain ⟨formula, -, isRead⟩ := Option.bind_eq_some_iff.1 isRead
    obtain ⟨active, -, isRead⟩ := Option.bind_eq_some_iff.1 isRead
    obtain ⟨effective, -, isRead⟩ := Option.bind_eq_some_iff.1 isRead
    obtain ⟨modified, -, isRead⟩ := Option.bind_eq_some_iff.1 isRead
    obtain ⟨author, -, isRead⟩ := Option.bind_eq_some_iff.1 isRead
    obtain rfl := Option.some.inj isRead
    exact
      Parameters.formLaws.held_withDefault throughout areFields
        Parameters.numbersSatisfy_empty areParameters

namespace StampedPayout

/-- The stamped payout that is read back. -/
def asWritten (stamped : StampedPayout) : StampedPayout :=
  { stamped with
    payout :=
      { stamped.payout with details := stamped.payout.details.asWritten } }

theorem ofJson?_toJson
    {stamped : StampedPayout}
    (finite :
      stamped.payout.details.InputsSatisfy fun number =>
        number.isFinite = true) :
    ofJson? stamped.toJson = some stamped.asWritten := by
  unfold ofJson? toJson
  refine reads_record rfl (by decide) fun fields found => ?_
  simp only [List.forall_mem_cons] at found
  obtain ⟨amount, planType, details, calculatedAt, -⟩ := found
  simp only [int64Laws.required amount trivial,
    PlanType.formLaws.required planType trivial,
    Fields.required_of_get? details (Details.ofJson?_toJson finite),
    Instant.formLaws.required calculatedAt trivial, bind, Option.bind_some]
  rfl

theorem isLegible_toJson
    {stamped : StampedPayout}
    (legible : stamped.payout.details.IsLegible) :
    stamped.toJson.IsLegible := by
  have details :
      ∀ json ∈ some stamped.payout.details.toJson, json.IsLegible := by
    rintro json ⟨⟩
    exact Details.isLegible_toJson legible
  apply isLegible_record
  simp only [List.forall_mem_cons]
  exact
    ⟨int64Laws.legible_some trivial, PlanType.formLaws.legible_some trivial,
      details, Instant.formLaws.legible_some trivial, List.forall_mem_nil _⟩

end StampedPayout

theorem StampedPayout.formLaws :
    FormLaws StampedPayout.toJson StampedPayout.ofJson?
      (fun stamped =>
        stamped.payout.details.NumbersSatisfy fun number =>
          number.isFinite = true)
      (fun stamped =>
        stamped.payout.details.NumbersSatisfy Binary64.ReadsBack) where
  rejectsNull := rfl
  readsBack stamped held := by
    obtain ⟨parameters, sales, profile, raw⟩ := held
    rw [ofJson?_toJson ⟨parameters, sales, profile⟩, asWritten,
      Details.asWritten_of_finite raw]
  legible stamped legible := by
    obtain ⟨parameters, sales, profile, raw⟩ := legible
    exact
      isLegible_toJson
        ⟨⟨parameters, sales, profile⟩, fun number isRaw _ => raw number isRaw⟩
  delivers json stamped throughout isRead := by
    obtain ⟨fields, areFields, isRead⟩ := Option.bind_eq_some_iff.1 isRead
    obtain ⟨amount, -, isRead⟩ := Option.bind_eq_some_iff.1 isRead
    obtain ⟨planType, -, isRead⟩ := Option.bind_eq_some_iff.1 isRead
    obtain ⟨details, areDetails, isRead⟩ := Option.bind_eq_some_iff.1 isRead
    obtain ⟨calculatedAt, -, isRead⟩ := Option.bind_eq_some_iff.1 isRead
    obtain rfl := Option.some.inj isRead
    exact Details.formLaws.held_required throughout areFields areDetails

end IncentivePay
