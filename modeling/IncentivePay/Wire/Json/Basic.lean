import IncentivePay.Binary64.Basic

/-!
# JSON values

A JSON number that is written without a point or an exponent, and fits into
sixty-four bits with or without a sign, is an integer; any other number is
real, and one that runs beyond the range of binary64 numbers is an infinity.
A JSON text may hold half of a surrogate pair and then denotes no text, which
is written `none`.  An object keeps its members in their order, repeated keys
included.
-/

namespace IncentivePay

/-- A JSON value. -/
inductive Json
  | null
  | boolean (value : Bool)
  | integer (value : Int)
  | real (value : Binary64)
  | text (value : Option String)
  | array (items : List Json)
  | object (members : List (Option String × Json))

namespace Json

instance : Inhabited Json :=
  ⟨.null⟩

/-- The JSON value of a text. -/
def ofString (value : String) : Json :=
  .text (some value)

/-- The JSON value of a number: null when the number is not finite. -/
def ofNumber (value : Binary64) : Json :=
  if value.isFinite then .real value else .null

/-- An object with the members that are present, in their order. -/
def record (members : List (String × Option Json)) : Json :=
  .object
    (members.filterMap fun member =>
      member.2.map fun value => (some member.1, value))

mutual

/-- The number of arrays and objects that are open at the deepest place. -/
def depth : Json → Nat
  | .array items => depthOfItems items + 1
  | .object members => depthOfMembers members + 1
  | _ => 0

/-- The greatest depth of an item. -/
def depthOfItems : List Json → Nat
  | [] => 0
  | item :: items => max item.depth (depthOfItems items)

/-- The greatest depth of a member. -/
def depthOfMembers : List (Option String × Json) → Nat
  | [] => 0
  | (_, value) :: members => max value.depth (depthOfMembers members)

end

mutual

/-- Every number is finite and every text, keys included, is one. -/
def isSound : Json → Bool
  | .real value => value.isFinite
  | .text value => value.isSome
  | .array items => areSoundItems items
  | .object members => areSoundMembers members
  | _ => true

/-- Every item is sound. -/
def areSoundItems : List Json → Bool
  | [] => true
  | item :: items => item.isSound && areSoundItems items

/-- Every key and every member is sound. -/
def areSoundMembers : List (Option String × Json) → Bool
  | [] => true
  | (key, value) :: members =>
      key.isSome && value.isSound && areSoundMembers members

end

end Json

end IncentivePay
