import IncentivePay.Proofs.Formula.Acceptance
import IncentivePay.Proofs.Formula.EvaluationTotality

/-!
# The variables of a formula are those of its text

`Mentions text quantity` says that some identifier of a text is the name of a
variable.  No function has the name of a variable, so the references of a tree
name exactly the variables among the tokens that it is derived from; branches
that are never selected count in both.  The value of a tree depends on no
other variable, and so the value of a formula depends only on the numbers that
are bound to the variables that its text mentions.
-/

namespace IncentivePay.Formula

/-- An identifier of a text is the name of a variable. -/
def Mentions
    (text : String)
    (quantity : Variable) :
    Prop :=
  ∃ tokens position,
    tokenize text = .ok tokens ∧
      ⟨.identifier quantity.name, position⟩ ∈ tokens

/-! ## From the tokens to the tree -/

theorem Variable.name_inj
    {first second : Variable}
    (same : first.name = second.name) :
    first = second := by
  have found := ofName?_name first
  rw [same, ofName?_name] at found
  exact (Option.some.inj found).symm

/-- No function has the name of a variable. -/
theorem Function.name_ne_variable
    (function : Function)
    (quantity : Variable) :
    quantity.name ≠ function.name := by
  intro same
  have found := Variable.ofName?_name quantity
  simp [same] at found

mutual

/-- The references of a tree name the variables among its tokens. -/
theorem Derives.mem_reads_iff
    {phrase : Phrase}
    {room : Nat}
    {tokens : List Token}
    {tree : Expr}
    (derivation : Derives phrase room tokens tree)
    (quantity : Variable) :
    quantity ∈ tree.reads ↔ .identifier quantity.name ∈ tokens := by
  match derivation with
  | .plain tier => exact tier.mem_reads_iff quantity
  | .choice condition whenTrue whenFalse =>
      simp [Expr.reads, condition.mem_reads_iff quantity,
        whenTrue.mem_reads_iff quantity, whenFalse.mem_reads_iff quantity]
  | .operand operand => exact operand.mem_reads_iff quantity
  | .binary left right =>
      simp [Expr.reads, left.mem_reads_iff quantity,
        right.mem_reads_iff quantity]
  | .unsigned primary => exact primary.mem_reads_iff quantity
  | .negated primary => simp [Expr.reads, primary.mem_reads_iff quantity]
  | .literal => simp [Expr.reads]
  | .reference =>
      simp only [Expr.reads, Variable.ofName?_name, Option.toList_some,
        List.mem_singleton, Token.identifier.injEq]
      exact ⟨congrArg Variable.name, Variable.name_inj⟩
  | .group body => simp [body.mem_reads_iff quantity]
  | .call arguments =>
      -- The name of the function is an identifier, too, but not of a variable.
      simp [Expr.reads, arguments.mem_readsOfAll_iff quantity,
        Function.name_ne_variable]

/-- The references of arguments name the variables among their tokens. -/
theorem DerivesArguments.mem_readsOfAll_iff
    {room : Nat}
    {tokens : List Token}
    {arguments : List Expr}
    (derivation : DerivesArguments room tokens arguments)
    (quantity : Variable) :
    quantity ∈ Expr.readsOfAll arguments ↔
      .identifier quantity.name ∈ tokens := by
  match derivation with
  | .none => simp [Expr.readsOfAll]
  | .one tree => simp [Expr.readsOfAll, tree.mem_reads_iff quantity]
  | .more tree others =>
      rw [Expr.readsOfAll, List.mem_append, tree.mem_reads_iff quantity,
        others.mem_readsOfAll_iff quantity]
      simp

end

/-- A parsed tree reads exactly the variables that its text mentions. -/
theorem mem_reads_iff_of_parse
    {text : String}
    {tree : Expr}
    (parsed : parse text = .ok tree)
    (quantity : Variable) :
    quantity ∈ tree.reads ↔ Mentions text quantity := by
  obtain ⟨-, tokens, scanned, derivation, -⟩ :=
    exists_derivation_of_parse parsed
  rw [derivation.mem_reads_iff quantity, List.mem_map]
  constructor
  · rintro ⟨⟨token, position⟩, member, rfl⟩
    exact ⟨tokens, position, scanned, member⟩
  · rintro ⟨others, position, scannedToo, member⟩
    obtain rfl : tokens = others := by
      simpa using scanned.symm.trans scannedToo
    exact ⟨_, member, rfl⟩

/-! ## From the variables to the value -/

variable {bindings others : Bindings}

theorem lookUp_congr
    {name : String}
    (agree :
      ∀ quantity ∈ (Expr.reference name).reads,
        bindings.value? quantity = others.value? quantity) :
    lookUp bindings name = lookUp others name := by
  unfold lookUp
  cases known : Variable.ofName? name with
  | none => rfl
  | some quantity =>
      have agreed := agree quantity (by simp [Expr.reads, known])
      simp only [agreed]

mutual

/-- The value of a tree depends on no variable that it does not read. -/
theorem Expr.value_congr
    (tree : Expr)
    (agree :
      ∀ quantity ∈ tree.reads,
        bindings.value? quantity = others.value? quantity) :
    tree.value bindings = tree.value others := by
  match tree with
  | .literal value => rfl
  | .reference name => exact lookUp_congr agree
  | .binary operator left right =>
      have leftSame := left.value_congr fun quantity member =>
        agree quantity (List.mem_append_left _ member)
      have rightSame := right.value_congr fun quantity member =>
        agree quantity (List.mem_append_right _ member)
      simp only [value, leftSame, rightSame]
  | .negate operand =>
      have same := operand.value_congr agree
      simp only [value, same]
  | .choice condition whenTrue whenFalse =>
      have conditionSame := condition.value_congr fun quantity member =>
        agree quantity (by simp [reads, member])
      have trueSame := whenTrue.value_congr fun quantity member =>
        agree quantity (by simp [reads, member])
      have falseSame := whenFalse.value_congr fun quantity member =>
        agree quantity (by simp [reads, member])
      simp only [value, conditionSame, trueSame, falseSame]
  | .call name arguments =>
      have same := valuesOfAll_congr arguments agree
      simp only [value, same]

/-- The values of trees depend on no variable that they do not read. -/
theorem Expr.valuesOfAll_congr
    (trees : List Expr)
    (agree :
      ∀ quantity ∈ readsOfAll trees,
        bindings.value? quantity = others.value? quantity) :
    valuesOfAll bindings trees = valuesOfAll others trees := by
  match trees with
  | [] => rfl
  | tree :: trees =>
      have treeSame := tree.value_congr fun quantity member =>
        agree quantity (List.mem_append_left _ member)
      have treesSame := valuesOfAll_congr trees fun quantity member =>
        agree quantity (List.mem_append_right _ member)
      simp only [valuesOfAll, treeSame, treesSame]

end

/--
The value of a formula depends only on the variables that its text mentions.
-/
theorem evaluate_eq_of_mentioned
    {text : String}
    {tree : Expr}
    (parsed : parse text = .ok tree)
    (agree :
      ∀ quantity,
        Mentions text quantity →
        bindings.value? quantity = others.value? quantity) :
    evaluate tree bindings = evaluate tree others := by
  rw [evaluate_eq_value_of_parse parsed, evaluate_eq_value_of_parse parsed]
  apply tree.value_congr
  intro quantity isRead
  exact agree quantity ((mem_reads_iff_of_parse parsed quantity).1 isRead)

end IncentivePay.Formula
