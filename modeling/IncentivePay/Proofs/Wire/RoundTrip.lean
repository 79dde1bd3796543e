import IncentivePay.Proofs.Wire.TreeForms

/-!
# Decoding undoes encoding

A value of any of the types that are written as JSON is read back from its
JSON form when its numbers are finite, its year has four digits if it is a
period, and it is not nested too deep if it is a tree.  It is read back from
the texts of that form when the texts of its numbers are, and whatever was
decoded from a text is such a value.
-/

namespace IncentivePay

open Formula
open Json

/-- The types that are written as JSON and read from it. -/
inductive WireType
  | config
  | parameters
  | sales
  | profile
  | planType
  | details
  | payout
  | period
  | tree
deriving DecidableEq

namespace WireType

/-- The values of a type. -/
abbrev Value : WireType → Type
  | .config => Config
  | .parameters => Parameters
  | .sales => Sales
  | .profile => Profile
  | .planType => PlanType
  | .details => Details
  | .payout => StampedPayout
  | .period => Period
  | .tree => Expr

/-- The JSON form of a value. -/
def toJson : (type : WireType) → type.Value → Json
  | .config => Config.toJson
  | .parameters => Parameters.toJson
  | .sales => Sales.toJson
  | .profile => Profile.toJson
  | .planType => PlanType.toJson
  | .details => Details.toJson
  | .payout => StampedPayout.toJson
  | .period => Period.toJson
  | .tree => Expr.toJson

/-- The value in a JSON value. -/
def ofJson? : (type : WireType) → Json → Option type.Value
  | .config => Config.ofJson?
  | .parameters => Parameters.ofJson?
  | .sales => Sales.ofJson?
  | .profile => Profile.ofJson?
  | .planType => PlanType.ofJson?
  | .details => Details.ofJson?
  | .payout => StampedPayout.ofJson?
  | .period => Period.ofJson?
  | .tree => Expr.ofJson?

variable (type : WireType)

/-- The value that a text holds. -/
def decode? (text : String) : Option type.Value :=
  (Json.read? text).bind type.ofJson?

/-- A property holds of every number of a value. -/
def NumbersSatisfy
    (property : Binary64 → Prop) :
    (type : WireType) →
    type.Value →
    Prop
  | .config => fun config => config.parameters.NumbersSatisfy property
  | .parameters => Parameters.NumbersSatisfy property
  | .sales => Sales.NumbersSatisfy property
  | .profile => Profile.NumbersSatisfy property
  | .planType => Anything
  | .details => Details.NumbersSatisfy property
  | .payout => fun stamped => stamped.payout.details.NumbersSatisfy property
  | .period => Anything
  | .tree => Expr.LiteralsSatisfy property

/-- Four digits hold the year, and the reader goes down as deep as the tree. -/
def IsWithinReach : (type : WireType) → type.Value → Prop
  | .period => Period.IsWritable
  | .tree => fun tree => tree.toJson.depth ≤ Expr.maxTreeDepth
  | .config | .parameters | .sales | .profile | .planType | .details
  | .payout => Anything

/-- A value with finite numbers that the reader can get to the end of. -/
structure IsWritable (value : type.Value) : Prop where
  finite : NumbersSatisfy (fun number => number.isFinite = true) type value
  withinReach : type.IsWithinReach value

variable {type} in
/-- Where everything is within reach, finite numbers are all that is needed. -/
theorem formLaws_of_finite
    (reachable : ∀ value, type.IsWithinReach value)
    (laws :
      FormLaws type.toJson type.ofJson?
        (NumbersSatisfy (fun number => number.isFinite = true) type)
        (NumbersSatisfy Binary64.ReadsBack type)) :
    FormLaws type.toJson type.ofJson? type.IsWritable
      (NumbersSatisfy Binary64.ReadsBack type) :=
  laws.congr fun value =>
    ⟨fun finite => ⟨finite, reachable value⟩, fun writable => writable.finite⟩

/-- Every type has the laws of a form. -/
theorem formLaws :
    (type : WireType) →
    FormLaws type.toJson type.ofJson? type.IsWritable
      (NumbersSatisfy Binary64.ReadsBack type)
  | .config => formLaws_of_finite (fun _ => trivial) Config.formLaws
  | .parameters => formLaws_of_finite (fun _ => trivial) Parameters.formLaws
  | .sales => formLaws_of_finite (fun _ => trivial) Sales.formLaws
  | .profile => formLaws_of_finite (fun _ => trivial) Profile.formLaws
  | .planType => formLaws_of_finite (fun _ => trivial) PlanType.formLaws
  | .details => formLaws_of_finite (fun _ => trivial) Details.formLaws
  | .payout => formLaws_of_finite (fun _ => trivial) StampedPayout.formLaws
  | .period =>
      Period.formLaws.congr fun _ =>
        ⟨fun isWritable => ⟨trivial, isWritable⟩,
          fun writable => writable.withinReach⟩
  | .tree =>
      Expr.formLaws.congr fun _ =>
        ⟨fun held => ⟨held.finite, held.shallow⟩,
          fun writable => ⟨writable.finite, writable.withinReach⟩⟩

variable {type}

/-- What is decoded from a text can be written. -/
theorem isWritable_of_decode?
    {text : String}
    {value : type.Value}
    (decoded : type.decode? text = some value) :
    type.IsWritable value := by
  obtain ⟨json, isRead, isValue⟩ := Option.bind_eq_some_iff.1 decoded
  exact
    type.formLaws.delivers json value (hasShortIntegers_of_read? isRead) isValue

/-- A value whose numbers read back is decoded from its text, however spaced. -/
theorem decode?_of_readsBack
    {value : type.Value}
    (writable : type.IsWritable value)
    (readsBack : NumbersSatisfy Binary64.ReadsBack type value) :
    type.decode? (type.toJson value).compact = some value ∧
      type.decode? (type.toJson value).pretty = some value := by
  have isValue := type.formLaws.readsBack value writable
  obtain ⟨compact, pretty⟩ :=
    read?_of_isLegible (type.formLaws.legible value readsBack)
  constructor
  · rw [decode?, compact, Option.bind_some, isValue]
  · rw [decode?, pretty, Option.bind_some, isValue]

variable (type)

/--
Decoding undoes encoding.  A value with finite numbers that is within reach is
read back from its JSON form, and when the texts of its numbers read back also
from the text of that form: both from the one without space and from the one
with an item or a member a line.  Whatever was decoded from a text is such a
value, and decoding its texts and encoding once more gives the same texts.

That the text of a number reads back is asked of the numbers of the value at
hand.  The reader of texts misses some numbers by a unit, so it cannot be
asked of all: `Binary64.exists_not_readsBack` shows one.
-/
theorem decode_encode :
    (∀ value : type.Value,
      type.IsWritable value →
      type.ofJson? (type.toJson value) = some value ∧
        (NumbersSatisfy Binary64.ReadsBack type value →
          type.decode? (type.toJson value).compact = some value ∧
            type.decode? (type.toJson value).pretty = some value)) ∧
    ∀ (text : String) (value : type.Value),
      type.decode? text = some value →
      type.IsWritable value ∧
        type.ofJson? (type.toJson value) = some value ∧
        (NumbersSatisfy Binary64.ReadsBack type value →
          (type.decode? (type.toJson value).compact = some value ∧
            type.decode? (type.toJson value).pretty = some value) ∧
          ((type.decode? (type.toJson value).compact).map fun again =>
              (type.toJson again).compact) =
            some (type.toJson value).compact ∧
          ((type.decode? (type.toJson value).pretty).map fun again =>
              (type.toJson again).pretty) =
            some (type.toJson value).pretty) := by
  refine ⟨fun value writable => ?_, fun text value decoded => ?_⟩
  · exact
      ⟨type.formLaws.readsBack value writable, decode?_of_readsBack writable⟩
  · have writable := isWritable_of_decode? decoded
    refine
      ⟨writable, type.formLaws.readsBack value writable, fun readsBack => ?_⟩
    have decodes := decode?_of_readsBack writable readsBack
    refine ⟨decodes, ?_, ?_⟩
    · rw [decodes.1, Option.map_some]
    · rw [decodes.2, Option.map_some]

/--
A plan with a rate and a least amount, and a formula that it does not use.
-/
def percentPlan (rate : Binary64) : Config where
  planType := .personalPercent
  parameters := ⟨some rate, none, some rate, none⟩
  customFormula := some "personalSales * 0.5"
  isActive := true
  effectiveDate := none
  lastModified := none
  modifiedBy := none

/-- A part of the sales, rounded. -/
def roundedPart (factor : Binary64) : Expr :=
  .call "Math.round"
    [.binary .multiply (.reference "personalSales") (.literal factor)]

theorem numbersSatisfy_percentPlan
    {property : Binary64 → Prop}
    {rate : Binary64}
    (holds : property rate) :
    NumbersSatisfy property config (percentPlan rate) := by
  refine ⟨?_, ?_, ?_, ?_⟩ <;> rintro number ⟨⟩ <;> exact holds

/-- With one half, both are decoded from their texts and encoded as before. -/
theorem decode_encode_half :
    config.decode? (config.toJson (percentPlan .half)).compact =
        some (percentPlan .half) ∧
      config.decode? (config.toJson (percentPlan .half)).pretty =
        some (percentPlan .half) ∧
      tree.decode? (roundedPart .half).toJson.compact =
        some (roundedPart .half) ∧
      ((tree.decode? (roundedPart .half).toJson.compact).map fun again =>
          again.toJson.compact) =
        some (roundedPart .half).toJson.compact := by
  have finite : Binary64.half.isFinite = true := by decide +kernel
  have planFinite :
      NumbersSatisfy (fun number => number.isFinite = true) config
        (percentPlan .half) :=
    numbersSatisfy_percentPlan finite
  have planReadsBack := numbersSatisfy_percentPlan Binary64.readsBack_half
  have treeReadsBack :
      NumbersSatisfy Binary64.ReadsBack tree (roundedPart .half) :=
    ⟨⟨trivial, Binary64.readsBack_half⟩, trivial⟩
  have shallow :
      (roundedPart .half).toJson.depth ≤ Expr.maxTreeDepth := by
    decide +kernel
  obtain ⟨compact, pretty⟩ :=
    ((decode_encode config).1 _ ⟨planFinite, trivial⟩).2 planReadsBack
  have isTree :=
    ((decode_encode tree).1 (roundedPart .half)
      ⟨⟨⟨trivial, finite⟩, trivial⟩, shallow⟩).2 treeReadsBack
  have again := ((decode_encode tree).2 _ _ isTree.1).2.2 treeReadsBack
  exact ⟨compact, pretty, isTree.1, again.2.1⟩

end WireType

end IncentivePay
