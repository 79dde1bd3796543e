import IncentivePay.Formula.WellFormed
import IncentivePay.Proofs.Wire.RecordForms
import IncentivePay.Wire.Formula

/-!
# The JSON form of formula trees

A tree whose literals are finite is read back from its JSON form when that is
not nested too deep; the reader goes down one level of nesting with each level
of the tree.  A tree that was read is never nested deeper in its JSON form
than in the value that it was read from, so what the reader delivers can be
written and read again.
-/

namespace IncentivePay

open Json

namespace Json

/-! ## Depth and soundness -/

theorem depth_le_of_mem_items
    {items : List Json}
    {item : Json}
    (within : item ∈ items) :
    item.depth ≤ depthOfItems items := by
  induction within with
  | head => exact Nat.le_max_left _ _
  | tail _ _ ih => exact Nat.le_trans ih (Nat.le_max_right _ _)

theorem depth_le_of_mem_members
    {members : List (Option String × Json)}
    {member : Option String × Json}
    (within : member ∈ members) :
    member.2.depth ≤ depthOfMembers members := by
  induction within with
  | head => exact Nat.le_max_left _ _
  | tail _ _ ih => exact Nat.le_trans ih (Nat.le_max_right _ _)

theorem depth_lt_of_mem_children
    {json child : Json}
    (within : child ∈ json.children) :
    child.depth < json.depth := by
  cases json with
  | array items => exact Nat.lt_succ_of_le (depth_le_of_mem_items within)
  | object members =>
      obtain ⟨member, among, rfl⟩ := List.mem_map.1 within
      exact Nat.lt_succ_of_le (depth_le_of_mem_members among)
  | _ => cases within

theorem depthOfItems_lt
    {items : List Json}
    {bound : Nat}
    (positive : 0 < bound)
    (each : ∀ item ∈ items, item.depth < bound) :
    depthOfItems items < bound := by
  induction items with
  | nil => exact positive
  | cons item items ih =>
      obtain ⟨first, others⟩ := List.forall_mem_cons.1 each
      exact Nat.max_lt.2 ⟨first, ih others⟩

theorem depthOfMembers_lt
    {members : List (Option String × Json)}
    {bound : Nat}
    (positive : 0 < bound)
    (each : ∀ member ∈ members, member.2.depth < bound) :
    depthOfMembers members < bound := by
  induction members with
  | nil => exact positive
  | cons member members ih =>
      obtain ⟨first, others⟩ := List.forall_mem_cons.1 each
      exact Nat.max_lt.2 ⟨first, ih others⟩

/-- A value is nested at most one level deeper than the values inside it. -/
theorem depth_le_of_children
    {json : Json}
    {bound : Nat}
    (positive : 0 < bound)
    (each : ∀ child ∈ json.children, child.depth < bound) :
    json.depth ≤ bound := by
  cases json with
  | array items => exact depthOfItems_lt positive each
  | object members =>
      exact depthOfMembers_lt positive fun member within =>
        each member.2 (List.mem_map_of_mem within)
  | _ => exact Nat.zero_le bound

/-- A number is finite and a text is one, apart from the values inside. -/
def IsSoundNode : Json → Prop
  | .real number => number.isFinite = true
  | .text content => content ≠ none
  | .object members => ∀ member ∈ members, member.1 ≠ none
  | _ => True

theorem areSoundItems_of_forall
    {items : List Json}
    (each : ∀ item ∈ items, item.isSound = true) :
    areSoundItems items = true := by
  induction items with
  | nil => rfl
  | cons item items ih =>
      obtain ⟨first, others⟩ := List.forall_mem_cons.1 each
      exact Bool.and_eq_true_iff.2 ⟨first, ih others⟩

theorem areSoundMembers_of_forall
    {members : List (Option String × Json)}
    (named : ∀ member ∈ members, member.1 ≠ none)
    (each : ∀ member ∈ members, member.2.isSound = true) :
    areSoundMembers members = true := by
  induction members with
  | nil => rfl
  | cons member members ih =>
      obtain ⟨firstNamed, othersNamed⟩ := List.forall_mem_cons.1 named
      obtain ⟨first, others⟩ := List.forall_mem_cons.1 each
      have hasKey := Option.isSome_iff_ne_none.2 firstNamed
      exact
        Bool.and_eq_true_iff.2
          ⟨Bool.and_eq_true_iff.2 ⟨hasKey, first⟩, ih othersNamed others⟩

theorem isSound_of_throughout
    {json : Json}
    (throughout : Throughout IsSoundNode json) :
    json.isSound = true := by
  induction throughout with
  | @intro json here _ ih =>
      cases json with
      | null | boolean | integer => rfl
      | real number => exact here
      | text content => exact Option.isSome_iff_ne_none.2 here
      | array items => exact areSoundItems_of_forall ih
      | object members =>
          exact areSoundMembers_of_forall here fun member within =>
            ih member.2 (List.mem_map_of_mem within)

theorem isSoundNode_ofNumber (number : Binary64) :
    (ofNumber number).IsSoundNode := by
  unfold ofNumber
  split
  · assumption
  · trivial

end Json

namespace Formula.Expr

/-! ## Written trees -/

/-- What the values in the JSON form of a tree are apart from its numbers. -/
structure HoldsOfNodes (holds : Json → Prop) : Prop where
  texts : ∀ content, holds (ofString content)
  arrays : ∀ items, holds (.array items)
  records : ∀ members, holds (record members)

section Throughout

variable
  {holds : Json → Prop}

theorem throughout_ofString
    (ofNodes : HoldsOfNodes holds)
    (content : String) :
    Throughout holds (ofString content) :=
  .of_scalar (ofNodes.texts content) rfl

theorem throughout_record
    (ofNodes : HoldsOfNodes holds)
    {members : List (String × Option Json)}
    (each : ∀ member ∈ members, ∀ value ∈ member.2, Throughout holds value) :
    Throughout holds (record members) :=
  .intro (ofNodes.records members) (forall_children_record each)

mutual

/-- What holds of every value that a tree is written with holds throughout. -/
theorem throughout_toJson
    (ofNodes : HoldsOfNodes holds) :
    (tree : Expr) →
    tree.LiteralsSatisfy (fun number => holds (ofNumber number)) →
    Throughout holds tree.toJson
  | .literal value, ofLiterals => by
      have number : Throughout holds (ofNumber value) :=
        .of_scalar ofLiterals (children_ofNumber value)
      refine throughout_record ofNodes ?_
      simp [throughout_ofString ofNodes, number]
  | .reference name, _ => by
      refine throughout_record ofNodes ?_
      simp [throughout_ofString ofNodes]
  | .binary operator left right, ofLiterals => by
      have leftHolds := throughout_toJson ofNodes left ofLiterals.1
      have rightHolds := throughout_toJson ofNodes right ofLiterals.2
      refine throughout_record ofNodes ?_
      simp [throughout_ofString ofNodes, leftHolds, rightHolds]
  | .negate operand, ofLiterals => by
      have operandHolds := throughout_toJson ofNodes operand ofLiterals
      refine throughout_record ofNodes ?_
      simp [throughout_ofString ofNodes, operandHolds]
  | .choice condition whenTrue whenFalse, ofLiterals => by
      have conditionHolds := throughout_toJson ofNodes condition ofLiterals.1
      have trueHolds := throughout_toJson ofNodes whenTrue ofLiterals.2.1
      have falseHolds := throughout_toJson ofNodes whenFalse ofLiterals.2.2
      refine throughout_record ofNodes ?_
      simp [throughout_ofString ofNodes, conditionHolds, trueHolds, falseHolds]
  | .call name arguments, ofLiterals => by
      have argumentsHold : Throughout holds (.array (argumentsToJson arguments)) :=
        .intro (ofNodes.arrays _)
          (throughout_argumentsToJson ofNodes arguments ofLiterals)
      refine throughout_record ofNodes ?_
      simp [throughout_ofString ofNodes, argumentsHold]

theorem throughout_argumentsToJson
    (ofNodes : HoldsOfNodes holds) :
    (trees : List Expr) →
    AllLiteralsSatisfy (fun number => holds (ofNumber number)) trees →
    ∀ json ∈ argumentsToJson trees, Throughout holds json
  | [], _ => fun _ within => nomatch within
  | tree :: trees, ofLiterals =>
      List.forall_mem_cons.2
        ⟨throughout_toJson ofNodes tree ofLiterals.1,
          throughout_argumentsToJson ofNodes trees ofLiterals.2⟩

end

end Throughout

/-! ## Written trees are read back -/

/-- The kind of a written node is found, and its other members are its parts. -/
theorem split?_record
    {isRoot : Bool}
    {kind : String}
    {members : List (String × Option Json)}
    (isKind : kind ∈ nodeKinds)
    (others : ∀ member ∈ members, member.1 ≠ "node") :
    split? isRoot (record (("node", some (ofString kind)) :: members)) =
      some (kind, record members) := by
  have notKind :
      ∀ member ∈ members.filterMap fun member =>
          member.2.map fun value => (some member.1, value),
        isKindMember member = false := by
    intro member within
    obtain ⟨⟨name, value?⟩, among, present⟩ := List.mem_filterMap.1 within
    obtain ⟨value, -, rfl⟩ := Option.map_eq_some_iff.1 present
    simpa [isKindMember] using others _ among
  have noKind :
      (members.filterMap fun member =>
        member.2.map fun value => (some member.1, value)).filter
          isKindMember = [] :=
    List.filter_eq_nil_iff.2 fun member within => by simp [notKind member within]
  have allParts :
      (members.filterMap fun member =>
          member.2.map fun value => (some member.1, value)).filter
            (fun member => !isKindMember member) =
        members.filterMap fun member =>
          member.2.map fun value => (some member.1, value) :=
    List.filter_eq_self.2 fun member within => by simp [notKind member within]
  have isTag : isKindMember (some "node", ofString kind) = true := rfl
  have known : kind? isRoot (ofString kind) = some kind := by
    simpa [kind?, ofString] using isKind
  simp only [record, List.filterMap_cons, Option.map_some, split?,
    List.filter_cons, isTag, noKind, allParts, if_true, Bool.not_true,
    Bool.false_eq_true, if_false, known, bind, Option.bind_some]

theorem operator?_ofString (operator : Operator) :
    operator? (ofString operator.symbol) = some operator :=
  Operator.ofSymbol?_symbol operator

/-- The values inside a value need one level less than the value. -/
theorem exists_levels
    {json : Json}
    {levels : Nat}
    (shallow : json.depth < levels) :
    ∃ fewer, levels = fewer + 1 ∧
      ∀ child ∈ json.children, child.depth < fewer := by
  obtain ⟨fewer, rfl⟩ :=
    Nat.exists_eq_add_one_of_ne_zero (Nat.ne_zero_of_lt shallow)
  refine ⟨fewer, rfl, fun child within => ?_⟩
  exact
    Nat.lt_of_lt_of_le (depth_lt_of_mem_children within)
      (Nat.le_of_lt_succ shallow)

mutual

/-- So many levels are enough to read a tree that is nested less deep. -/
theorem readLevels?_toJson
    {levels : Nat}
    {isRoot : Bool} :
    (tree : Expr) →
    tree.LiteralsSatisfy (fun number => number.isFinite = true) →
    tree.toJson.depth < levels →
    readLevels? levels isRoot tree.toJson = some tree
  | .literal value, finite, shallow => by
      obtain ⟨fewer, rfl, -⟩ := exists_levels shallow
      rw [readLevels?, toJson, split?_record (by decide) (by simp),
        Option.bind_eq_bind, Option.bind_some]
      refine reads_record rfl (by decide) fun fields found => ?_
      simp only [List.forall_mem_cons] at found
      rw [numberLaws.required found.1 finite]
      rfl
  | .reference name, _, shallow => by
      obtain ⟨fewer, rfl, -⟩ := exists_levels shallow
      rw [readLevels?, toJson, split?_record (by decide) (by simp),
        Option.bind_eq_bind, Option.bind_some]
      refine reads_record rfl (by decide) fun fields found => ?_
      simp only [List.forall_mem_cons] at found
      rw [stringLaws.required found.1 trivial]
      rfl
  | .binary operator left right, finite, shallow => by
      obtain ⟨fewer, rfl, inside⟩ := exists_levels shallow
      have readsLeft :=
        @readLevels?_toJson fewer false left finite.1
          (inside left.toJson (by simp [toJson, record, children]))
      have readsRight :=
        @readLevels?_toJson fewer false right finite.2
          (inside right.toJson (by simp [toJson, record, children]))
      rw [readLevels?, toJson, split?_record (by decide) (by simp),
        Option.bind_eq_bind, Option.bind_some]
      refine reads_record rfl (by decide) fun fields found => ?_
      simp only [List.forall_mem_cons] at found
      obtain ⟨foundOperator, foundLeft, foundRight, -⟩ := found
      rw [Fields.required_of_get? foundOperator (operator?_ofString operator),
        Fields.required_of_get? foundLeft readsLeft,
        Fields.required_of_get? foundRight readsRight]
      rfl
  | .negate operand, finite, shallow => by
      obtain ⟨fewer, rfl, inside⟩ := exists_levels shallow
      have readsOperand :=
        @readLevels?_toJson fewer false operand finite
          (inside operand.toJson (by simp [toJson, record, children]))
      have isMinus : symbol? (ofString "-") = some "-" := rfl
      rw [readLevels?, toJson, split?_record (by decide) (by simp),
        Option.bind_eq_bind, Option.bind_some]
      refine reads_record rfl (by decide) fun fields found => ?_
      simp only [List.forall_mem_cons] at found
      obtain ⟨foundMinus, foundOperand, -⟩ := found
      rw [Fields.required_of_get? foundMinus isMinus,
        Fields.required_of_get? foundOperand readsOperand]
      rfl
  | .choice condition whenTrue whenFalse, finite, shallow => by
      obtain ⟨fewer, rfl, inside⟩ := exists_levels shallow
      have readsCondition :=
        @readLevels?_toJson fewer false condition finite.1
          (inside condition.toJson (by simp [toJson, record, children]))
      have readsTrue :=
        @readLevels?_toJson fewer false whenTrue finite.2.1
          (inside whenTrue.toJson (by simp [toJson, record, children]))
      have readsFalse :=
        @readLevels?_toJson fewer false whenFalse finite.2.2
          (inside whenFalse.toJson (by simp [toJson, record, children]))
      rw [readLevels?, toJson, split?_record (by decide) (by simp),
        Option.bind_eq_bind, Option.bind_some]
      refine reads_record rfl (by decide) fun fields found => ?_
      simp only [List.forall_mem_cons] at found
      obtain ⟨foundCondition, foundTrue, foundFalse, -⟩ := found
      rw [Fields.required_of_get? foundCondition readsCondition,
        Fields.required_of_get? foundTrue readsTrue,
        Fields.required_of_get? foundFalse readsFalse]
      rfl
  | .call name arguments, finite, shallow => by
      obtain ⟨fewer, rfl, inside⟩ := exists_levels shallow
      have itemsAreInside :=
        inside (.array (argumentsToJson arguments))
          (by simp [toJson, record, children])
      have readsArguments :=
        mapM_readLevels?_argumentsToJson arguments finite fun json within =>
          Nat.lt_trans
            (@depth_lt_of_mem_children (.array (argumentsToJson arguments)) json
              within)
            itemsAreInside
      have areItems :
          items? (.array (argumentsToJson arguments)) =
            some (argumentsToJson arguments) :=
        rfl
      rw [readLevels?, toJson, split?_record (by decide) (by simp),
        Option.bind_eq_bind, Option.bind_some]
      refine reads_record rfl (by decide) fun fields found => ?_
      simp only [List.forall_mem_cons] at found
      obtain ⟨foundName, foundItems, -⟩ := found
      rw [stringLaws.required foundName trivial,
        Fields.required_of_get? foundItems areItems, Option.bind_eq_bind,
        Option.bind_some, Option.bind_eq_bind, Option.bind_some, readsArguments]
      rfl

theorem mapM_readLevels?_argumentsToJson
    {levels : Nat} :
    (trees : List Expr) →
    AllLiteralsSatisfy (fun number => number.isFinite = true) trees →
    (∀ json ∈ argumentsToJson trees, json.depth < levels) →
    (argumentsToJson trees).mapM (readLevels? levels false) = some trees
  | [], _, _ => rfl
  | tree :: trees, finite, shallow => by
      obtain ⟨first, others⟩ := List.forall_mem_cons.1 shallow
      rw [argumentsToJson, List.mapM_cons,
        readLevels?_toJson tree finite.1 first,
        mapM_readLevels?_argumentsToJson trees finite.2 others]
      rfl

end

/-! ## Trees that were read -/

/-- The parts of a node are values inside it. -/
theorem split?_inside
    {isRoot : Bool}
    {json parts : Json}
    {kind : String}
    (isSplit : split? isRoot json = some (kind, parts)) :
    ∀ child ∈ parts.children, child ∈ json.children := by
  unfold split? at isSplit
  split at isSplit
  · obtain ⟨found, -, same⟩ := Option.bind_eq_some_iff.1 isSplit
    obtain ⟨-, rfl⟩ := Prod.mk.inj (Option.some.inj same)
    exact fun child => List.mem_cons_of_mem _
  · split at isSplit
    · obtain ⟨found, -, same⟩ := Option.bind_eq_some_iff.1 isSplit
      obtain ⟨-, rfl⟩ := Prod.mk.inj (Option.some.inj same)
      intro child within
      obtain ⟨member, among, rfl⟩ := List.mem_map.1 within
      exact List.mem_map_of_mem (List.mem_filter.1 among).1
    · contradiction
  · contradiction

/-- Every literal is finite, and the JSON form is nested no deeper than that. -/
structure IsHeldWithin
    (depth : Nat)
    (tree : Expr) :
    Prop where
  finite : tree.LiteralsSatisfy fun number => number.isFinite = true
  shallow : tree.toJson.depth ≤ depth

/-- The JSON form of a node is one level deeper than its deepest part. -/
theorem depth_record_le
    {members : List (String × Option Json)}
    {bound : Nat}
    (positive : 0 < bound)
    (each : ∀ member ∈ members, ∀ value ∈ member.2, value.depth < bound) :
    (record members).depth ≤ bound :=
  depth_le_of_children positive (forall_children_record each)

theorem depth_ofNumber (number : Binary64) : (ofNumber number).depth = 0 := by
  unfold ofNumber
  split <;> rfl

theorem depth_ofString (content : String) : (ofString content).depth = 0 :=
  rfl

theorem eq_array_of_items?
    {json : Json}
    {items : List Json}
    (areItems : items? json = some items) :
    json = .array items := by
  cases json with
  | array found => rw [Option.some.inj areItems]
  | _ => contradiction

theorem areHeld_of_mapM
    {read : Json → Option Expr}
    {items : List Json}
    {trees : List Expr}
    {bound : Nat}
    (areRead : items.mapM read = some trees)
    (held :
      ∀ item ∈ items, ∀ tree, read item = some tree →
        IsHeldWithin item.depth tree)
    (below : ∀ item ∈ items, item.depth < bound) :
    AllLiteralsSatisfy (fun number => number.isFinite = true) trees ∧
      ∀ json ∈ argumentsToJson trees, json.depth < bound := by
  induction items generalizing trees with
  | nil =>
      obtain rfl : [] = trees := by simpa using areRead
      exact ⟨trivial, fun _ within => nomatch within⟩
  | cons item items ih =>
      rw [List.mapM_cons] at areRead
      obtain ⟨tree, isRead, areRead⟩ := Option.bind_eq_some_iff.1 areRead
      obtain ⟨others, othersRead, areRead⟩ := Option.bind_eq_some_iff.1 areRead
      obtain rfl := Option.some.inj areRead
      obtain ⟨heldFirst, heldOthers⟩ := List.forall_mem_cons.1 held
      obtain ⟨belowFirst, belowOthers⟩ := List.forall_mem_cons.1 below
      obtain ⟨finite, shallow⟩ := ih othersRead heldOthers belowOthers
      have first := heldFirst tree isRead
      exact
        ⟨⟨first.finite, finite⟩,
          List.forall_mem_cons.2
            ⟨Nat.lt_of_le_of_lt first.shallow belowFirst, shallow⟩⟩

/-- A value inside is read as a tree. -/
def IsPart
    (json : Json)
    (readPart : Json → Option Expr)
    (tree : Expr) :
    Prop :=
  ∃ child ∈ json.children, readPart child = some tree

/-- The trees that a value can be read as, by what is read inside it. -/
inductive IsReadNode
    (json : Json)
    (readPart : Json → Option Expr) :
    Expr →
    Prop
  | literal {value : Binary64} :
      (∃ child ∈ json.children, child.number? = some value) →
      IsReadNode json readPart (.literal value)
  | reference {name : String} :
      (∃ child ∈ json.children, child.string? = some name) →
      IsReadNode json readPart (.reference name)
  | binary {operator : Operator} {left right : Expr} :
      IsPart json readPart left →
      IsPart json readPart right →
      IsReadNode json readPart (.binary operator left right)
  | negate {operand : Expr} :
      IsPart json readPart operand →
      IsReadNode json readPart (.negate operand)
  | choice {condition whenTrue whenFalse : Expr} :
      IsPart json readPart condition →
      IsPart json readPart whenTrue →
      IsPart json readPart whenFalse →
      IsReadNode json readPart (.choice condition whenTrue whenFalse)
  | call {name : String} {items : List Json} {arguments : List Expr} :
      .array items ∈ json.children →
      items.mapM readPart = some arguments →
      IsReadNode json readPart (.call name arguments)

/-- The six ways in which one level of a tree is read. -/
theorem isReadNode_of_readLevels?
    {levels : Nat}
    {isRoot : Bool}
    {json : Json}
    {tree : Expr}
    (isRead : readLevels? (levels + 1) isRoot json = some tree) :
    IsReadNode json (readLevels? levels false) tree := by
  obtain ⟨⟨kind, parts⟩, isSplit, isRead⟩ := Option.bind_eq_some_iff.1 isRead
  have inside := split?_inside isSplit
  have part
      {Value : Type}
      {names : List String}
      {fields : Fields}
      {name : String}
      {read : Json → Option Value}
      {value : Value}
      (areFields : parts.fields? names = some fields)
      (partIsRead : fields.required name read = some value) :
      ∃ child ∈ json.children, read child = some value := by
    obtain ⟨child, within, childIsRead⟩ :=
      Fields.exists_of_required areFields partIsRead
    exact ⟨child, inside child within, childIsRead⟩
  dsimp only at isRead
  split at isRead
  · obtain ⟨fields, areFields, isRead⟩ := Option.bind_eq_some_iff.1 isRead
    obtain ⟨value, isValue, isRead⟩ := Option.bind_eq_some_iff.1 isRead
    obtain rfl := Option.some.inj isRead
    exact .literal (part areFields isValue)
  · obtain ⟨fields, areFields, isRead⟩ := Option.bind_eq_some_iff.1 isRead
    obtain ⟨name, isName, isRead⟩ := Option.bind_eq_some_iff.1 isRead
    obtain rfl := Option.some.inj isRead
    exact .reference (part areFields isName)
  · obtain ⟨fields, areFields, isRead⟩ := Option.bind_eq_some_iff.1 isRead
    obtain ⟨operator, -, isRead⟩ := Option.bind_eq_some_iff.1 isRead
    obtain ⟨left, isLeft, isRead⟩ := Option.bind_eq_some_iff.1 isRead
    obtain ⟨right, isRight, isRead⟩ := Option.bind_eq_some_iff.1 isRead
    obtain rfl := Option.some.inj isRead
    exact .binary (part areFields isLeft) (part areFields isRight)
  · obtain ⟨fields, areFields, isRead⟩ := Option.bind_eq_some_iff.1 isRead
    obtain ⟨symbol, -, isRead⟩ := Option.bind_eq_some_iff.1 isRead
    obtain ⟨operand, isOperand, isRead⟩ := Option.bind_eq_some_iff.1 isRead
    split at isRead
    · obtain rfl := Option.some.inj isRead
      exact .negate (part areFields isOperand)
    · contradiction
  · obtain ⟨fields, areFields, isRead⟩ := Option.bind_eq_some_iff.1 isRead
    obtain ⟨condition, isCondition, isRead⟩ := Option.bind_eq_some_iff.1 isRead
    obtain ⟨whenTrue, isTrue, isRead⟩ := Option.bind_eq_some_iff.1 isRead
    obtain ⟨whenFalse, isFalse, isRead⟩ := Option.bind_eq_some_iff.1 isRead
    obtain rfl := Option.some.inj isRead
    exact
      .choice (part areFields isCondition) (part areFields isTrue)
        (part areFields isFalse)
  · obtain ⟨fields, areFields, isRead⟩ := Option.bind_eq_some_iff.1 isRead
    obtain ⟨name, -, isRead⟩ := Option.bind_eq_some_iff.1 isRead
    obtain ⟨items, areItems, isRead⟩ := Option.bind_eq_some_iff.1 isRead
    obtain ⟨arguments, areArguments, isRead⟩ := Option.bind_eq_some_iff.1 isRead
    obtain rfl := Option.some.inj isRead
    obtain ⟨child, within, isArray⟩ := part areFields areItems
    exact .call (eq_array_of_items? isArray ▸ within) areArguments
  · contradiction

/-- A tree that was read is nested no deeper than what it was read from. -/
theorem isHeldWithin_of_readLevels?
    {levels : Nat}
    {isRoot : Bool}
    {json : Json}
    {tree : Expr}
    (throughout : json.HasShortIntegers)
    (isRead : readLevels? levels isRoot json = some tree) :
    IsHeldWithin json.depth tree := by
  induction levels generalizing isRoot json tree with
  | zero => contradiction
  | succ levels ih =>
      obtain ⟨-, below⟩ := throughout
      have part
          {tree : Expr}
          (isPart : IsPart json (readLevels? levels false) tree) :
          tree.LiteralsSatisfy (fun number => number.isFinite = true) ∧
            tree.toJson.depth < json.depth := by
        obtain ⟨child, within, childIsRead⟩ := isPart
        have held := ih (below child within) childIsRead
        exact
          ⟨held.finite,
            Nat.lt_of_le_of_lt held.shallow (depth_lt_of_mem_children within)⟩
      cases isReadNode_of_readLevels? isRead with
      | literal isNumber =>
          obtain ⟨child, within, isNumber⟩ := isNumber
          have positive := Nat.zero_lt_of_lt (depth_lt_of_mem_children within)
          have finite := numberLaws.delivers child _ (below child within) isNumber
          refine ⟨finite, depth_record_le positive ?_⟩
          simp [depth_ofString, depth_ofNumber, positive]
      | reference isText =>
          obtain ⟨child, within, -⟩ := isText
          have positive := Nat.zero_lt_of_lt (depth_lt_of_mem_children within)
          refine ⟨trivial, depth_record_le positive ?_⟩
          simp [depth_ofString, positive]
      | binary isLeft isRight =>
          obtain ⟨leftFinite, leftShallow⟩ := part isLeft
          obtain ⟨rightFinite, rightShallow⟩ := part isRight
          have positive := Nat.zero_lt_of_lt leftShallow
          refine ⟨⟨leftFinite, rightFinite⟩, depth_record_le positive ?_⟩
          simp [depth_ofString, positive, leftShallow, rightShallow]
      | negate isOperand =>
          obtain ⟨finite, shallow⟩ := part isOperand
          have positive := Nat.zero_lt_of_lt shallow
          refine ⟨finite, depth_record_le positive ?_⟩
          simp [depth_ofString, positive, shallow]
      | choice isCondition isTrue isFalse =>
          obtain ⟨conditionFinite, conditionShallow⟩ := part isCondition
          obtain ⟨trueFinite, trueShallow⟩ := part isTrue
          obtain ⟨falseFinite, falseShallow⟩ := part isFalse
          have positive := Nat.zero_lt_of_lt conditionShallow
          refine
            ⟨⟨conditionFinite, trueFinite, falseFinite⟩,
              depth_record_le positive ?_⟩
          simp [depth_ofString, positive, conditionShallow, trueShallow,
            falseShallow]
      | @call name items arguments within areArguments =>
          obtain ⟨-, itemsAreShort⟩ := below _ within
          have arrayIsInside := depth_lt_of_mem_children within
          have positive := Nat.zero_lt_of_lt arrayIsInside
          obtain ⟨finite, shallow⟩ :=
            areHeld_of_mapM areArguments
              (fun item among tree itemIsRead =>
                ih (itemsAreShort item among) itemIsRead)
              fun item => @depth_lt_of_mem_children (.array items) item
          have argumentsShallow :
              (Json.array (argumentsToJson arguments)).depth < json.depth :=
            Nat.lt_of_le_of_lt
              (depth_le_of_children (Nat.succ_pos _) shallow) arrayIsInside
          refine ⟨finite, depth_record_le positive ?_⟩
          simp [depth_ofString, positive, argumentsShallow]

/-! ## The laws of the form -/

theorem holdsOfNodes_sound : HoldsOfNodes IsSoundNode where
  texts content := Option.some_ne_none content
  arrays _ := trivial
  records _ := key_ne_none_of_record

theorem holdsOfNodes_legible : HoldsOfNodes IsLegibleNode where
  texts content := Option.some_ne_none content
  arrays _ := trivial
  records _ := key_ne_none_of_record

/-- Trees are held while their literals are finite and they are not too deep. -/
theorem formLaws :
    FormLaws toJson ofJson? (IsHeldWithin maxTreeDepth)
      (LiteralsSatisfy Binary64.ReadsBack) where
  rejectsNull := by
    unfold ofJson? readLevels? split?
    split <;> rfl
  readsBack tree held := by
    have ofNumbers := held.finite.mono fun value _ => isSoundNode_ofNumber value
    have isSound :=
      isSound_of_throughout (throughout_toJson holdsOfNodes_sound tree ofNumbers)
    have accepted :
        (tree.toJson.isSound && tree.toJson.depth ≤ maxTreeDepth) = true := by
      simp [isSound, held.shallow]
    rw [ofJson?, if_pos accepted]
    exact readLevels?_toJson tree held.finite (Nat.lt_succ_self _)
  legible tree readsBack :=
    throughout_toJson holdsOfNodes_legible tree
      (readsBack.mono fun _ literal => isLegibleNode_ofNumber fun _ => literal)
  delivers json tree throughout isRead := by
    unfold ofJson? at isRead
    split at isRead
    · rename_i accepted
      have held := isHeldWithin_of_readLevels? throughout isRead
      obtain ⟨-, shallow⟩ := Bool.and_eq_true_iff.1 accepted
      exact
        ⟨held.finite,
          Nat.le_trans held.shallow (of_decide_eq_true shallow)⟩
    · contradiction

end Formula.Expr

end IncentivePay
