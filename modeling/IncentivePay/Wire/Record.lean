import IncentivePay.Binary64.Rounding
import IncentivePay.Wire.Json.Basic

/-!
# Reading records from JSON

A record has named fields in a fixed order.  It is read from an object, whose
unknown members are ignored and whose known members stand once, or from an
array of the fields in their order, which may end early but not run over.

What an absent field means is said by the reader of the field: a required
field has to be there, an optional one may be absent or null, and one with a
default may be absent but not null.
-/

namespace IncentivePay

namespace Json

/-- The fields of a record that are there, each once. -/
structure Fields where
  present : List (String × Json)

/-- The member of an object with its key as a text. -/
def namedMember? (member : Option String × Json) : Option (String × Json) :=
  member.1.map fun key => (key, member.2)

/-- The fields of a record with these names. -/
def fields?
    (names : List String) :
    Json →
    Option Fields
  | .array items =>
      if items.length ≤ names.length then
        some ⟨names.zip items⟩
      else
        none
  | .object members => do
      let named ← members.mapM namedMember?
      let known := named.filter fun member => names.contains member.1
      if (known.map fun member => member.1).Nodup then
        some ⟨known⟩
      else
        none
  | _ => none

namespace Fields

/-- The value of a field. -/
def get?
    (fields : Fields)
    (name : String) :
    Option Json :=
  (fields.present.find? fun field => field.1 = name).map fun field => field.2

/-- A field that has to be there. -/
def required
    {Value : Type}
    (fields : Fields)
    (name : String)
    (read : Json → Option Value) :
    Option Value :=
  (fields.get? name).bind read

/-- A field that may be absent or null. -/
def optional
    {Value : Type}
    (fields : Fields)
    (name : String)
    (read : Json → Option Value) :
    Option (Option Value) :=
  match fields.get? name with
  | none => some none
  | some .null => some none
  | some value => (read value).map some

/-- A field that has a value of its own when it is absent. -/
def withDefault
    {Value : Type}
    (fields : Fields)
    (name : String)
    (absent : Value)
    (read : Json → Option Value) :
    Option Value :=
  match fields.get? name with
  | none => some absent
  | some value => read value

end Fields

/-- A number; an integer is taken to the nearest one. -/
def number? : Json → Option Binary64
  | .integer value => some (.ofInt value)
  | .real value => if value.isFinite then some value else none
  | _ => none

/-- A truth value. -/
def boolean? : Json → Option Bool
  | .boolean value => some value
  | _ => none

/-- A text. -/
def string? : Json → Option String
  | .text value => value
  | _ => none

/-- An integer of sixty-four bits with a sign. -/
def int64? : Json → Option Int64
  | .integer value =>
      if Int64.minValue.toInt ≤ value ∧ value ≤ Int64.maxValue.toInt then
        some (Int64.ofInt value)
      else
        none
  | _ => none

/-- An integer of sixty-four bits without a sign. -/
def uint64? : Json → Option UInt64
  | .integer value =>
      if 0 ≤ value ∧ value < UInt64.size then
        some (UInt64.ofNat value.toNat)
      else
        none
  | _ => none

/-- The name of a constant: a text, or an object with the name and null. -/
def constantName? : Json → Option String
  | .text name => name
  | .object [(name, .null)] => name
  | _ => none

/-- The members of an object whose keys are texts. -/
def dictionary? : Json → Option (List (String × Json))
  | .object members => members.mapM namedMember?
  | _ => none

end Json

end IncentivePay
