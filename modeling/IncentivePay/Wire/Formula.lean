import IncentivePay.Formula.Expr
import IncentivePay.Wire.Record

/-!
# The JSON form of formula trees

A node is an object with its kind under `node` and its parts under their
names, or an array that starts with the kind and lists the parts in their
order.  Below the root, a kind may also be given by its index.  Unlike other
records, a tree is read as a whole before its parts are looked at, so every
number in it has to be finite and every text has to be one, and it may not be
nested deeper than `maxTreeDepth`.
-/

namespace IncentivePay.Formula

/-- The kinds of nodes, in the order of their indices. -/
def nodeKinds : List String :=
  ["literal", "variable", "binary_op", "unary_op", "ternary", "call"]

namespace Expr

mutual

/-- The JSON form of a tree. -/
def toJson : Expr → Json
  | .literal value =>
      .record
        [("node", some (.ofString "literal")),
         ("value", some (.ofNumber value))]
  | .reference name =>
      .record
        [("node", some (.ofString "variable")),
         ("name", some (.ofString name))]
  | .binary operator left right =>
      .record
        [("node", some (.ofString "binary_op")),
         ("op", some (.ofString operator.symbol)),
         ("left", some left.toJson),
         ("right", some right.toJson)]
  | .negate operand =>
      .record
        [("node", some (.ofString "unary_op")),
         ("op", some (.ofString "-")),
         ("expr", some operand.toJson)]
  | .choice condition whenTrue whenFalse =>
      .record
        [("node", some (.ofString "ternary")),
         ("condition", some condition.toJson),
         ("then_expr", some whenTrue.toJson),
         ("else_expr", some whenFalse.toJson)]
  | .call name arguments =>
      .record
        [("node", some (.ofString "call")),
         ("name", some (.ofString name)),
         ("args", some (.array (argumentsToJson arguments)))]

/-- The JSON forms of arguments. -/
def argumentsToJson : List Expr → List Json
  | [] => []
  | argument :: arguments => argument.toJson :: argumentsToJson arguments

end

/-- The deepest nesting of a tree that is read. -/
def maxTreeDepth : Nat :=
  127

/-- The kind that a JSON value gives; by its index below the root only. -/
def kind?
    (isRoot : Bool) :
    Json →
    Option String
  | .text kind => kind.filter nodeKinds.contains
  | .integer index =>
      if isRoot || index < 0 then none else nodeKinds[index.toNat]?
  | _ => none

/-- A member under the key `node`. -/
def isKindMember (member : Option String × Json) : Bool :=
  member.1 = some "node"

/-- The kind of a node, and its parts as a record without the kind. -/
def split?
    (isRoot : Bool) :
    Json →
    Option (String × Json)
  | .array (tag :: parts) => do
      let kind ← kind? isRoot tag
      some (kind, .array parts)
  | .object members =>
      match members.filter isKindMember with
      | [(_, tag)] => do
          let kind ← kind? isRoot tag
          some (kind, .object (members.filter fun member => !isKindMember member))
      | _ => none
  | _ => none

/-- The symbol of an operator: a text, or an object with it and nothing. -/
def symbol? : Json → Option String
  | .object [(symbol, .object [])] => symbol
  | other => other.constantName?

/-- The operator in a JSON value. -/
def operator? (json : Json) : Option Operator :=
  (symbol? json).bind Operator.ofSymbol?

/-- The items of an array. -/
def items? : Json → Option (List Json)
  | .array items => some items
  | _ => none

/-- The tree in a JSON value that is nested to so many levels at most. -/
def readLevels? :
    (levels : Nat) →
    (isRoot : Bool) →
    (json : Json) →
    Option Expr
  | 0, _, _ => none
  | levels + 1, isRoot, json => do
      let (kind, parts) ← split? isRoot json
      let readPart := readLevels? levels false
      match kind with
      | "literal" => do
          let fields ← parts.fields? ["value"]
          let value ← fields.required "value" Json.number?
          some (.literal value)
      | "variable" => do
          let fields ← parts.fields? ["name"]
          let name ← fields.required "name" Json.string?
          some (.reference name)
      | "binary_op" => do
          let fields ← parts.fields? ["op", "left", "right"]
          let operator ← fields.required "op" operator?
          let left ← fields.required "left" readPart
          let right ← fields.required "right" readPart
          some (.binary operator left right)
      | "unary_op" => do
          let fields ← parts.fields? ["op", "expr"]
          let symbol ← fields.required "op" symbol?
          let operand ← fields.required "expr" readPart
          if symbol = "-" then some (.negate operand) else none
      | "ternary" => do
          let fields ← parts.fields? ["condition", "then_expr", "else_expr"]
          let condition ← fields.required "condition" readPart
          let whenTrue ← fields.required "then_expr" readPart
          let whenFalse ← fields.required "else_expr" readPart
          some (.choice condition whenTrue whenFalse)
      | "call" => do
          let fields ← parts.fields? ["name", "args"]
          let name ← fields.required "name" Json.string?
          let items ← fields.required "args" items?
          let arguments ← items.mapM readPart
          some (.call name arguments)
      | _ => none

/-- The tree in a JSON value. -/
def ofJson? (json : Json) : Option Expr :=
  if json.isSound && json.depth ≤ maxTreeDepth then
    readLevels? (json.depth + 1) true json
  else
    none

end Expr

end IncentivePay.Formula
