import IncentivePay.Formula.LazyEvaluation
import IncentivePay.Formula.WellFormed

/-!
# The bound on the depth

The evaluation with a bound stops at the first node that stands `maxDepth`
levels below the root, and does otherwise what the evaluation without a bound
does.  `AgreesUnless` relates two results in this way; it passes from the parts
of an evaluation to the whole, and what has to be known of the visited nodes
is one equivalence for each kind of node.

A branch that a choice does not select is not visited.  `DifferUnselected`
relates two trees that differ in such a branch, whatever stands in it.
-/

namespace IncentivePay.Formula

/-! ## Results that agree -/

/--
The results agree, unless an evaluation goes too deep and the first one says
so.
-/
def AgreesUnless
    {Value : Type}
    (goesTooDeep : Prop)
    (bounded unbounded : Except EvaluationError Value) :
    Prop :=
  (goesTooDeep ∧ bounded = .error (.tooDeep maxDepth)) ∨
    (¬ goesTooDeep ∧ bounded = unbounded)

namespace AgreesUnless

variable
  {Value Next : Type}
  {goesTooDeep : Prop}
  {bounded unbounded : Except EvaluationError Value}

theorem refl (result : Except EvaluationError Value) :
    AgreesUnless False result result :=
  .inr ⟨not_false, rfl⟩

theorem congr
    {other : Prop}
    (agrees : AgreesUnless other bounded unbounded)
    (same : goesTooDeep ↔ other) :
    AgreesUnless goesTooDeep bounded unbounded := by
  rwa [AgreesUnless, same]

/-- What is done with a value makes nothing deeper. -/
theorem map
    (agrees : AgreesUnless goesTooDeep bounded unbounded)
    (result : Value → Next) :
    AgreesUnless goesTooDeep
      (bounded >>= fun value => .ok (result value))
      (unbounded >>= fun value => .ok (result value)) := by
  rcases agrees with ⟨tooDeep, rfl⟩ | ⟨fits, rfl⟩
  · exact .inl ⟨tooDeep, rfl⟩
  · exact .inr ⟨fits, rfl⟩

/--
Of two parts the first goes too deep, or it has a value and the second does.
-/
theorem bind
    {laterGoesTooDeep : Value → Prop}
    {next nextUnbounded : Value → Except EvaluationError Next}
    (agrees : AgreesUnless goesTooDeep bounded unbounded)
    (later :
      ∀ value,
        AgreesUnless (laterGoesTooDeep value) (next value)
          (nextUnbounded value)) :
    AgreesUnless
      (goesTooDeep ∨
        ∃ value, unbounded = .ok value ∧ laterGoesTooDeep value)
      (bounded >>= next) (unbounded >>= nextUnbounded) := by
  rcases agrees with ⟨tooDeep, rfl⟩ | ⟨fits, rfl⟩
  · exact .inl ⟨.inl tooDeep, rfl⟩
  · cases bounded with
    | error error => exact .inr ⟨by simp [fits], rfl⟩
    | ok value =>
        apply (later value).congr
        simp [fits]

theorem eq_unbounded
    (agrees : AgreesUnless goesTooDeep bounded unbounded)
    (fits : ¬ goesTooDeep) :
    bounded = unbounded := by
  rcases agrees with ⟨tooDeep, -⟩ | ⟨-, same⟩
  · contradiction
  · exact same

/-- An evaluation that has a value was not stopped. -/
theorem unbounded_eq_ok
    {value : Value}
    (agrees : AgreesUnless goesTooDeep bounded unbounded)
    (succeeds : bounded = .ok value) :
    unbounded = .ok value := by
  rcases agrees with ⟨-, rfl⟩ | ⟨-, rfl⟩
  · contradiction
  · exact succeeds

end AgreesUnless

/-! ## Nodes that are visited -/

/--
The evaluation of a list of trees visits a node so many levels below one of
them.
-/
def VisitsAmong
    (bindings : Bindings)
    (depth : Nat) :
    List Expr →
    Prop
  | [] => False
  | tree :: trees =>
      Visits bindings depth tree ∨
        ∃ value,
          tree.value bindings = .ok value ∧ VisitsAmong bindings depth trees

section Visits

variable
  {bindings : Bindings}
  {depth : Nat}

theorem visits_binary_iff
    {operator : Operator}
    {left right : Expr} :
    Visits bindings (depth + 1) (.binary operator left right) ↔
      Visits bindings depth left ∨
        ∃ value,
          left.value bindings = .ok value ∧ Visits bindings depth right := by
  constructor
  · intro visits
    cases visits with
    | left inLeft => exact .inl inLeft
    | right hasValue inRight =>
        obtain ⟨value, has⟩ := hasValue
        exact .inr ⟨value, has, inRight⟩
  · rintro (inLeft | ⟨value, has, inRight⟩)
    · exact .left inLeft
    · exact .right ⟨value, has⟩ inRight

theorem visits_negate_iff {operand : Expr} :
    Visits bindings (depth + 1) (.negate operand) ↔
      Visits bindings depth operand := by
  constructor
  · intro visits
    cases visits with
    | operand inOperand => exact inOperand
  · exact .operand

theorem visits_choice_iff {condition whenTrue whenFalse : Expr} :
    Visits bindings (depth + 1) (.choice condition whenTrue whenFalse) ↔
      Visits bindings depth condition ∨
        ∃ selector,
          condition.value bindings = .ok selector ∧
            Visits bindings depth
              (if isTruthy selector then whenTrue else whenFalse) := by
  constructor
  · intro visits
    cases visits with
    | condition inCondition => exact .inl inCondition
    | whenTrue has selects inBranch =>
        exact .inr ⟨_, has, by rwa [if_pos selects]⟩
    | whenFalse has selects inBranch =>
        exact .inr ⟨_, has, by rwa [if_neg (by simp [selects])]⟩
  · rintro (inCondition | ⟨selector, has, inBranch⟩)
    · exact .condition inCondition
    · split at inBranch
      · rename_i selects
        exact .whenTrue has selects inBranch
      · rename_i selects
        exact .whenFalse has (by simpa using selects) inBranch

/--
The node stands below one argument, and all arguments before it have values.
-/
theorem visitsAmong_iff_exists {trees : List Expr} :
    VisitsAmong bindings depth trees ↔
      ∃ earlier tree later,
        trees = earlier ++ tree :: later ∧
          (∀ other ∈ earlier, HasValue bindings other) ∧
          Visits bindings depth tree := by
  constructor
  · intro visits
    induction trees with
    | nil => exact visits.elim
    | cons first others ih =>
        rcases visits with inFirst | ⟨value, has, inOthers⟩
        · exact ⟨[], first, others, rfl, by simp, inFirst⟩
        · obtain ⟨earlier, tree, later, rfl, haveValues, inTree⟩ := ih inOthers
          refine ⟨first :: earlier, tree, later, rfl, ?_, inTree⟩
          exact List.forall_mem_cons.2 ⟨⟨value, has⟩, haveValues⟩
  · rintro ⟨earlier, tree, later, rfl, haveValues, inTree⟩
    induction earlier with
    | nil => exact .inl inTree
    | cons first earlier ih =>
        obtain ⟨⟨value, has⟩, others⟩ := List.forall_mem_cons.1 haveValues
        exact .inr ⟨value, has, ih others⟩

theorem visits_call_iff
    {name : String}
    {arguments : List Expr} :
    Visits bindings (depth + 1) (.call name arguments) ↔
      TakesArguments name arguments.length ∧
        VisitsAmong bindings depth arguments := by
  constructor
  · intro visits
    cases visits with
    | argument known complete haveValues inArgument =>
        exact
          ⟨⟨_, known, complete⟩,
            visitsAmong_iff_exists.2
              ⟨_, _, _, rfl, haveValues, inArgument⟩⟩
  · rintro ⟨⟨function, known, complete⟩, among⟩
    obtain ⟨earlier, argument, later, rfl, haveValues, inArgument⟩ :=
      visitsAmong_iff_exists.1 among
    exact .argument known complete haveValues inArgument

end Visits

/-! ## Both evaluations -/

mutual

/--
With so much room left, the evaluation stops if a node beyond it is visited.
-/
theorem evaluateAt_agrees
    (bindings : Bindings)
    {depth room : Nat}
    (fits : depth + room = maxDepth)
    (tree : Expr) :
    AgreesUnless (Visits bindings room tree)
      (evaluateAt bindings depth tree) (tree.value bindings) := by
  cases room with
  | zero =>
      have tooDeep : maxDepth ≤ depth := by omega
      exact .inl ⟨.root, by rw [evaluateAt.eq_def, if_pos tooDeep]⟩
  | succ room =>
      have notTooDeep : ¬ maxDepth ≤ depth := by omega
      have below : depth + 1 + room = maxDepth := by omega
      rw [evaluateAt.eq_def, if_neg notTooDeep]
      match tree with
      | .literal value =>
          exact (AgreesUnless.refl _).congr (iff_false_intro nofun)
      | .reference name =>
          exact (AgreesUnless.refl _).congr (iff_false_intro nofun)
      | .binary operator left right =>
          apply AgreesUnless.congr _ visits_binary_iff
          exact
            (evaluateAt_agrees bindings below left).bind fun leftValue =>
              (evaluateAt_agrees bindings below right).map
                (operator.apply leftValue)
      | .negate operand =>
          apply AgreesUnless.congr _ visits_negate_iff
          exact
            (evaluateAt_agrees bindings below operand).map Binary64.negate
      | .choice condition whenTrue whenFalse =>
          apply AgreesUnless.congr _ visits_choice_iff
          apply (evaluateAt_agrees bindings below condition).bind
          intro selector
          cases isTruthy selector with
          | true => exact evaluateAt_agrees bindings below whenTrue
          | false => exact evaluateAt_agrees bindings below whenFalse
      | .call name arguments =>
          apply AgreesUnless.congr _ visits_call_iff
          -- A call that is refused looks at none of its arguments.
          cases known : Function.ofName? name with
          | none =>
              simp only [Expr.value, known, TakesArguments]
              exact (AgreesUnless.refl _).congr (by simp)
          | some function =>
              by_cases complete : arguments.length = function.arity
              · simp only [Expr.value, known, TakesArguments, if_pos complete]
                apply AgreesUnless.congr _ (and_iff_right ⟨_, rfl, complete⟩)
                exact
                  (evaluateAllAt_agrees bindings below arguments).map
                    function.apply
              · simp only [Expr.value, known, TakesArguments, if_neg complete]
                exact (AgreesUnless.refl _).congr (by simp [complete])

/-- The same of the arguments of a call, which stand on one level. -/
theorem evaluateAllAt_agrees
    (bindings : Bindings)
    {depth room : Nat}
    (fits : depth + room = maxDepth)
    (trees : List Expr) :
    AgreesUnless (VisitsAmong bindings room trees)
      (evaluateAllAt bindings depth trees)
      (Expr.valuesOfAll bindings trees) := by
  match trees with
  | [] => exact .refl _
  | tree :: others =>
      exact
        (evaluateAt_agrees bindings fits tree).bind fun value =>
          (evaluateAllAt_agrees bindings fits others).map (value :: ·)

end

theorem evaluate_agrees
    (bindings : Bindings)
    (tree : Expr) :
    AgreesUnless (Visits bindings maxDepth tree)
      (evaluate tree bindings) (tree.value bindings) :=
  evaluateAt_agrees bindings (Nat.zero_add maxDepth) tree

/-! ## Trees that are not too high -/

theorem Expr.levels_le_levelsOfAll
    {tree : Expr}
    {trees : List Expr}
    (member : tree ∈ trees) :
    tree.levels ≤ levelsOfAll trees := by
  induction trees with
  | nil => simp at member
  | cons first others ih =>
      simp only [levelsOfAll]
      rcases List.mem_cons.1 member with rfl | later
      · exact Nat.le_max_left _ _
      · exact Nat.le_trans (ih later) (Nat.le_max_right _ _)

/-- A visited node stands fewer levels below the root than the tree has. -/
theorem Visits.depth_lt_levels
    {bindings : Bindings}
    {depth : Nat}
    {tree : Expr}
    (visits : Visits bindings depth tree) :
    depth < tree.levels := by
  induction visits with
  | root => exact Expr.levels_pos _
  | left _ ih => simp only [Expr.levels]; omega
  | right _ _ ih => simp only [Expr.levels]; omega
  | operand _ ih => simp only [Expr.levels]; omega
  | condition _ ih => simp only [Expr.levels]; omega
  | whenTrue _ _ _ ih => simp only [Expr.levels]; omega
  | whenFalse _ _ _ ih => simp only [Expr.levels]; omega
  | @argument depth name function earlier later argument _ _ _ _ ih =>
      have isArgument : argument ∈ earlier ++ argument :: later := by simp
      have bound := Expr.levels_le_levelsOfAll isArgument
      simp only [Expr.levels]
      omega

theorem not_visits_of_levels_le
    {depth : Nat}
    {tree : Expr}
    (fits : tree.levels ≤ depth)
    (bindings : Bindings) :
    ¬ Visits bindings depth tree := by
  intro visits
  exact Nat.not_lt.2 fits visits.depth_lt_levels

/--
A tree that is no higher than the bound is evaluated as if there were none.
-/
theorem evaluate_eq_value
    {tree : Expr}
    (fits : tree.levels ≤ maxDepth)
    (bindings : Bindings) :
    evaluate tree bindings = tree.value bindings :=
  (evaluate_agrees bindings tree).eq_unbounded
    (not_visits_of_levels_le fits bindings)

/-! ## The errors of the unbounded evaluation -/

/-- A result is not the error of the bound. -/
def IsNotTooDeep
    {Value : Type}
    (result : Except EvaluationError Value) :
    Prop :=
  ∀ limit, result ≠ .error (.tooDeep limit)

theorem IsNotTooDeep.bind
    {Value Next : Type}
    {result : Except EvaluationError Value}
    {next : Value → Except EvaluationError Next}
    (first : IsNotTooDeep result)
    (later : ∀ value, IsNotTooDeep (next value)) :
    IsNotTooDeep (result >>= next) := by
  cases result with
  | error error =>
      intro limit same
      exact first limit (congrArg Except.error (Except.error.inj same))
  | ok value => exact later value

theorem AgreesUnless.eq_tooDeep_iff
    {Value : Type}
    {goesTooDeep : Prop}
    {bounded unbounded : Except EvaluationError Value}
    (agrees : AgreesUnless goesTooDeep bounded unbounded)
    (notTooDeep : IsNotTooDeep unbounded) :
    bounded = .error (.tooDeep maxDepth) ↔ goesTooDeep := by
  rcases agrees with ⟨tooDeep, stopped⟩ | ⟨fits, rfl⟩
  · exact iff_of_true stopped tooDeep
  · exact iff_of_false (notTooDeep maxDepth) fits

theorem isNotTooDeep_ok
    {Value : Type}
    (value : Value) :
    IsNotTooDeep (.ok value) :=
  nofun

theorem isNotTooDeep_lookUp
    (bindings : Bindings)
    (name : String) :
    IsNotTooDeep (lookUp bindings name) := by
  unfold lookUp
  split
  · nofun
  · split <;> nofun

mutual

/-- Without a bound nothing is too deep. -/
theorem isNotTooDeep_value
    (bindings : Bindings)
    (tree : Expr) :
    IsNotTooDeep (tree.value bindings) := by
  match tree with
  | .literal value => exact isNotTooDeep_ok value
  | .reference name => exact isNotTooDeep_lookUp bindings name
  | .binary operator left right =>
      exact
        (isNotTooDeep_value bindings left).bind fun leftValue =>
          (isNotTooDeep_value bindings right).bind fun rightValue =>
            isNotTooDeep_ok (operator.apply leftValue rightValue)
  | .negate operand =>
      exact
        (isNotTooDeep_value bindings operand).bind fun value =>
          isNotTooDeep_ok value.negate
  | .choice condition whenTrue whenFalse =>
      apply (isNotTooDeep_value bindings condition).bind
      intro selector
      cases isTruthy selector with
      | true => exact isNotTooDeep_value bindings whenTrue
      | false => exact isNotTooDeep_value bindings whenFalse
  | .call name arguments =>
      rw [Expr.value]
      split
      · nofun
      · split
        · exact
            (isNotTooDeep_valuesOfAll bindings arguments).bind fun values =>
              isNotTooDeep_ok _
        · nofun

theorem isNotTooDeep_valuesOfAll
    (bindings : Bindings)
    (trees : List Expr) :
    IsNotTooDeep (Expr.valuesOfAll bindings trees) := by
  match trees with
  | [] => exact isNotTooDeep_ok []
  | tree :: others =>
      exact
        (isNotTooDeep_value bindings tree).bind fun value =>
          (isNotTooDeep_valuesOfAll bindings others).bind fun values =>
            isNotTooDeep_ok (value :: values)

end

/-! ## Branches that are not selected -/

/-- No value of a condition selects the branch on this side. -/
def NeverSelects
    (bindings : Bindings)
    (condition : Expr)
    (side : Bool) :
    Prop :=
  ∀ selector,
    condition.value bindings = .ok selector → isTruthy selector ≠ side

/-- Two trees differ in one branch, which its condition does not select. -/
inductive DifferUnselected (bindings : Bindings) : Expr → Expr → Prop
  | whenTrue {condition whenTrue other whenFalse : Expr} :
      NeverSelects bindings condition true →
      DifferUnselected bindings
        (.choice condition whenTrue whenFalse)
        (.choice condition other whenFalse)
  | whenFalse {condition whenTrue whenFalse other : Expr} :
      NeverSelects bindings condition false →
      DifferUnselected bindings
        (.choice condition whenTrue whenFalse)
        (.choice condition whenTrue other)
  | left {operator : Operator} {left other right : Expr} :
      DifferUnselected bindings left other →
      DifferUnselected bindings
        (.binary operator left right) (.binary operator other right)
  | right {operator : Operator} {left right other : Expr} :
      DifferUnselected bindings right other →
      DifferUnselected bindings
        (.binary operator left right) (.binary operator left other)
  | operand {operand other : Expr} :
      DifferUnselected bindings operand other →
      DifferUnselected bindings (.negate operand) (.negate other)
  | inCondition {condition other whenTrue whenFalse : Expr} :
      DifferUnselected bindings condition other →
      DifferUnselected bindings
        (.choice condition whenTrue whenFalse)
        (.choice other whenTrue whenFalse)
  | inTrue {condition whenTrue other whenFalse : Expr} :
      DifferUnselected bindings whenTrue other →
      DifferUnselected bindings
        (.choice condition whenTrue whenFalse)
        (.choice condition other whenFalse)
  | inFalse {condition whenTrue whenFalse other : Expr} :
      DifferUnselected bindings whenFalse other →
      DifferUnselected bindings
        (.choice condition whenTrue whenFalse)
        (.choice condition whenTrue other)
  | argument
      {name : String} {earlier later : List Expr} {argument other : Expr} :
      DifferUnselected bindings argument other →
      DifferUnselected bindings
        (.call name (earlier ++ argument :: later))
        (.call name (earlier ++ other :: later))

theorem evaluateAllAt_congr
    {bindings : Bindings}
    {depth : Nat}
    {tree other : Expr}
    (same :
      evaluateAt bindings depth tree = evaluateAt bindings depth other)
    (earlier later : List Expr) :
    evaluateAllAt bindings depth (earlier ++ tree :: later) =
      evaluateAllAt bindings depth (earlier ++ other :: later) := by
  induction earlier with
  | nil => simp only [List.nil_append, evaluateAllAt, same]
  | cons first earlier ih => simp only [List.cons_append, evaluateAllAt, ih]

/-- What the condition selects with a bound, it selects without one. -/
theorem NeverSelects.evaluateAt_bind
    {bindings : Bindings}
    {condition : Expr}
    {side : Bool}
    (never : NeverSelects bindings condition side)
    {depth : Nat}
    (inRange : depth ≤ maxDepth)
    {Value : Type}
    {next other : Binary64 → Except EvaluationError Value}
    (same :
      ∀ selector, isTruthy selector ≠ side → next selector = other selector) :
    (evaluateAt bindings depth condition >>= next) =
      (evaluateAt bindings depth condition >>= other) := by
  have agrees :=
    evaluateAt_agrees bindings (Nat.add_sub_cancel' inRange) condition
  cases evaluated : evaluateAt bindings depth condition with
  | error error => rfl
  | ok selector =>
      exact same selector (never selector (agrees.unbounded_eq_ok evaluated))

/-- Beyond the bound nothing of a tree is looked at. -/
theorem evaluateAt_eq_of_fits
    {bindings : Bindings}
    {depth : Nat}
    {tree other : Expr}
    (same :
      ¬ maxDepth ≤ depth →
        evaluateAt bindings depth tree = evaluateAt bindings depth other) :
    evaluateAt bindings depth tree = evaluateAt bindings depth other := by
  by_cases tooDeep : maxDepth ≤ depth
  · rw [evaluateAt.eq_def, if_pos tooDeep, evaluateAt.eq_def, if_pos tooDeep]
  · exact same tooDeep

/--
A branch that is not selected makes no difference, wherever the trees stand.
-/
theorem DifferUnselected.evaluateAt_eq
    {bindings : Bindings}
    {tree other : Expr}
    (differ : DifferUnselected bindings tree other)
    (depth : Nat) :
    evaluateAt bindings depth tree = evaluateAt bindings depth other := by
  induction differ generalizing depth with
  | whenTrue never =>
      apply evaluateAt_eq_of_fits
      intro notTooDeep
      simp only [evaluateAt, if_neg notTooDeep]
      apply never.evaluateAt_bind (by omega)
      intro selector notTrue
      rw [if_neg notTrue, if_neg notTrue]
  | whenFalse never =>
      apply evaluateAt_eq_of_fits
      intro notTooDeep
      simp only [evaluateAt, if_neg notTooDeep]
      apply never.evaluateAt_bind (by omega)
      intro selector notFalse
      have isTrue : isTruthy selector = true := by simpa using notFalse
      rw [if_pos isTrue, if_pos isTrue]
  | left _ ih | right _ ih | operand _ ih | inCondition _ ih | inTrue _ ih
  | inFalse _ ih =>
      simp only [evaluateAt, ih (depth + 1)]
  | @argument name earlier later argument other _ ih =>
      have sameValues := evaluateAllAt_congr (ih (depth + 1)) earlier later
      simp only [evaluateAt, sameValues, List.length_append, List.length_cons]

/-! ## Exactness of the bound -/

/--
The evaluation answers the error of the bound exactly when the evaluation
without a bound, from left to right and lazily, visits a node at the bound; in
every other case it answers the same value or the same first error.  So a tree
that is no higher than the bound never answers that error, and a branch that
is not selected may be replaced by any other.
-/
theorem evaluate_refines_value
    (bindings : Bindings)
    (tree : Expr) :
    (evaluate tree bindings = .error (.tooDeep maxDepth) ↔
        Visits bindings maxDepth tree) ∧
      (¬ Visits bindings maxDepth tree →
        evaluate tree bindings = tree.value bindings) ∧
      (tree.levels ≤ maxDepth →
        ∀ limit, evaluate tree bindings ≠ .error (.tooDeep limit)) ∧
      (∀ other,
        DifferUnselected bindings tree other →
        evaluate tree bindings = evaluate other bindings) := by
  have agrees := evaluate_agrees bindings tree
  have notTooDeep := isNotTooDeep_value bindings tree
  refine ⟨agrees.eq_tooDeep_iff notTooDeep, agrees.eq_unbounded, ?_, ?_⟩
  · intro fits
    rw [evaluate_eq_value fits]
    exact notTooDeep
  · intro other differ
    exact differ.evaluateAt_eq 0

/-- A number under so many signs. -/
def negations : Nat → Expr
  | 0 => .literal .one
  | count + 1 => .negate (negations count)

theorem levels_negations (count : Nat) :
    (negations count).levels = count + 1 := by
  induction count with
  | zero => rfl
  | succ count ih => rw [negations, Expr.levels, ih]

theorem visits_negations
    (bindings : Bindings)
    (count : Nat) :
    Visits bindings count (negations count) := by
  induction count with
  | zero => exact .root
  | succ count ih => exact .operand ih

/--
One sign more than the bound allows is too deep, and one sign less is not; in
a branch that is not selected neither they nor an unknown name matter.
-/
theorem evaluate_refines_value_negations :
    evaluate (negations maxDepth) .empty = .error (.tooDeep maxDepth) ∧
      (∀ limit,
        evaluate (negations (maxDepth - 1)) .empty ≠
          .error (.tooDeep limit)) ∧
      evaluate
          (.choice (.literal .zero) (negations maxDepth) (.literal .one))
          .empty =
        evaluate
          (.choice (.literal .zero) (.reference "constructor") (.literal .one))
          .empty := by
  refine ⟨?_, ?_, ?_⟩
  · apply (evaluate_refines_value .empty (negations maxDepth)).1.2
    exact visits_negations .empty maxDepth
  · apply (evaluate_refines_value .empty (negations (maxDepth - 1))).2.2.1
    rw [levels_negations]
    decide
  · apply (evaluate_refines_value .empty _).2.2.2
    apply DifferUnselected.whenTrue
    intro selector has
    obtain rfl : Binary64.zero = selector := Except.ok.inj has
    decide

end IncentivePay.Formula
