import IncentivePay.Proofs.Formula.Acceptance
import IncentivePay.Proofs.Formula.EvaluationTotality
import IncentivePay.Proofs.Formula.RenderingUniqueness

/-!
# Parsing a rendering

A tree is writable when its names are known, its calls are complete and its
literals are finite.  The rendering of a writable tree is parsed as the tree
with its signs out, unless it is too long or its parentheses are too deep, and
then the error says so.  Both trees have the same value.  A parsed tree has no
signs on its literals, so nothing else than that tree is ever parsed from its
rendering.
-/

namespace IncentivePay.Formula

/-- A tree that can be written: known names, complete calls, finite literals. -/
structure Expr.IsWritable (tree : Expr) : Prop where
  wellFormed : tree.IsWellFormed
  finite : tree.LiteralsSatisfy IsFiniteLiteral

/-- What the parser delivers can be written. -/
theorem isWritable_of_parse
    {text : String}
    {tree : Expr}
    (parsed : parse text = .ok tree) :
    tree.IsWritable where
  wellFormed := isWellFormed_of_parse parsed
  finite := (literalsSatisfy_of_parse parsed).mono fun _ holds => holds.1

/-! ## Trees with their signs out -/

namespace Expr

mutual

/-- A tree without signs on its literals has no signs to put out. -/
theorem withSignsOut_eq_self
    {tree : Expr}
    (unsigned : tree.LiteralsSatisfy IsUnsignedFinite) :
    tree.withSignsOut = tree := by
  match tree, unsigned with
  | .literal value, holds =>
      have noSign : isSigned value = false := holds.2
      simp [withSignsOut, noSign]
  | .reference _, _ => rfl
  | .binary operator left right, ⟨leftUnsigned, rightUnsigned⟩ =>
      rw [withSignsOut, withSignsOut_eq_self leftUnsigned,
        withSignsOut_eq_self rightUnsigned]
  | .negate operand, holds =>
      have inner : operand.LiteralsSatisfy IsUnsignedFinite := holds
      rw [withSignsOut, withSignsOut_eq_self inner]
  | .choice condition whenTrue whenFalse,
      ⟨conditionUnsigned, trueUnsigned, falseUnsigned⟩ =>
      rw [withSignsOut, withSignsOut_eq_self conditionUnsigned,
        withSignsOut_eq_self trueUnsigned, withSignsOut_eq_self falseUnsigned]
  | .call name arguments, holds =>
      have inner : AllLiteralsSatisfy IsUnsignedFinite arguments := holds
      rw [withSignsOut, allWithSignsOut_eq_self inner]

theorem allWithSignsOut_eq_self
    {trees : List Expr}
    (unsigned : AllLiteralsSatisfy IsUnsignedFinite trees) :
    allWithSignsOut trees = trees := by
  match trees, unsigned with
  | [], _ => rfl
  | tree :: others, ⟨treeUnsigned, othersUnsigned⟩ =>
      rw [allWithSignsOut, withSignsOut_eq_self treeUnsigned,
        allWithSignsOut_eq_self othersUnsigned]

end

mutual

/-- The negation of the positive literal is the negative literal. -/
theorem value_withSignsOut
    (bindings : Bindings)
    (tree : Expr) :
    tree.withSignsOut.value bindings = tree.value bindings := by
  match tree with
  | .literal number =>
      rw [withSignsOut]
      split
      · have twice := number.negate_negate
        simp [value, twice, bind, Except.bind]
      · rfl
  | .reference _ => rfl
  | .binary _ left right =>
      simp only [withSignsOut, value, value_withSignsOut bindings left,
        value_withSignsOut bindings right]
  | .negate operand =>
      simp only [withSignsOut, value, value_withSignsOut bindings operand]
  | .choice condition whenTrue whenFalse =>
      simp only [withSignsOut, value, value_withSignsOut bindings condition,
        value_withSignsOut bindings whenTrue,
        value_withSignsOut bindings whenFalse]
  | .call _ arguments =>
      simp only [withSignsOut, value, length_allWithSignsOut,
        valuesOfAll_allWithSignsOut bindings arguments]

theorem valuesOfAll_allWithSignsOut
    (bindings : Bindings)
    (trees : List Expr) :
    valuesOfAll bindings (allWithSignsOut trees) =
      valuesOfAll bindings trees := by
  match trees with
  | [] => rfl
  | tree :: others =>
      simp only [allWithSignsOut, valuesOfAll,
        value_withSignsOut bindings tree,
        valuesOfAll_allWithSignsOut bindings others]

end

mutual

/-- Putting the signs out makes no tree lower. -/
theorem levels_le_levels_withSignsOut (tree : Expr) :
    tree.levels ≤ tree.withSignsOut.levels := by
  match tree with
  | .literal number =>
      rw [withSignsOut]
      split <;> simp [levels]
  | .reference _ => exact Nat.le_refl _
  | .binary _ left right =>
      have leftBound := levels_le_levels_withSignsOut left
      have rightBound := levels_le_levels_withSignsOut right
      simp only [withSignsOut, levels]
      omega
  | .negate operand =>
      exact Nat.succ_le_succ (levels_le_levels_withSignsOut operand)
  | .choice condition whenTrue whenFalse =>
      have conditionBound := levels_le_levels_withSignsOut condition
      have trueBound := levels_le_levels_withSignsOut whenTrue
      have falseBound := levels_le_levels_withSignsOut whenFalse
      simp only [withSignsOut, levels]
      omega
  | .call _ arguments =>
      exact Nat.succ_le_succ (levelsOfAll_le_allWithSignsOut arguments)

theorem levelsOfAll_le_allWithSignsOut (trees : List Expr) :
    levelsOfAll trees ≤ levelsOfAll (allWithSignsOut trees) := by
  match trees with
  | [] => exact Nat.le_refl _
  | tree :: others =>
      have treeBound := levels_le_levels_withSignsOut tree
      have othersBound := levelsOfAll_le_allWithSignsOut others
      simp only [allWithSignsOut, levelsOfAll]
      omega

end

end Expr

/-! ## The three outcomes -/

namespace Expr.IsWritable

variable {tree : Expr}

/-- The rendering of a writable tree is scanned as its tokens. -/
theorem exists_tokenize_render (writable : tree.IsWritable) :
    ∃ located,
      tokenize tree.render = .ok located ∧
        located.map Located.token = tree.tokens :=
  (isScannedAs_render writable.wellFormed writable.finite).exists_tokenize

/-- The tokens of a rendering are read as the tree with its signs out. -/
theorem parseTokens_answers
    (writable : tree.IsWritable)
    {located : List Located}
    (spelled : located.map Located.token = tree.tokens)
    (finish : Nat) :
    Answers 0 tree.nesting (parseTokens finish located)
      (.ok tree.withSignsOut) := by
  have isRead := (isReadAs_tokens writable.wellFormed).choice_of_unary
  rw [← spelled] at isRead
  exact isRead.parseTokens_answers finish

/-- A rendering within both bounds is parsed as the tree with its signs out. -/
theorem parse_render
    (writable : tree.IsWritable)
    (short : tree.render.length ≤ maxLength)
    (shallow : tree.nesting ≤ maxNesting) :
    parse tree.render = .ok tree.withSignsOut := by
  obtain ⟨located, scanned, spelled⟩ := writable.exists_tokenize_render
  have isRead := (isReadAs_tokens writable.wellFormed).choice_of_unary
  rw [← spelled] at isRead
  exact (HasReading.of_isReadAs short scanned isRead shallow).parse_eq_ok

/-- A rendering is never blank. -/
theorem isBlankText_render (writable : tree.IsWritable) :
    isBlankText tree.render = false := by
  obtain ⟨located, scanned, spelled⟩ := writable.exists_tokenize_render
  apply isBlankText_eq_false_of_tokenize scanned
  rintro rfl
  exact tree.tokens_ne_nil spelled.symm

/-- A rendering that nests too much is refused for that reason. -/
theorem parse_render_of_deep
    (writable : tree.IsWritable)
    (short : tree.render.length ≤ maxLength)
    (deep : maxNesting < tree.nesting) :
    IsTooDeep (parse tree.render) := by
  obtain ⟨located, scanned, spelled⟩ := writable.exists_tokenize_render
  have notLong := Nat.not_lt.2 short
  have notBlank := writable.isBlankText_render
  -- The check of the parentheses may refuse the text before the tokens are read.
  rcases scan : overNested? 0 0 tree.render.toList with _ | position
  · have bounded : checkBounds tree.render = .ok () := by
      simp [checkBounds, notLong, notBlank, scan]
    unfold parse
    rw [bounded, scanned]
    exact
      (writable.parseTokens_answers spelled tree.render.length).overflows
        (by omega)
  · refine ⟨position, ?_⟩
    have refused :
        checkBounds tree.render = .error ⟨.tooDeep maxNesting, position⟩ := by
      simp [checkBounds, notLong, notBlank, scan]
    unfold parse
    rw [refused]
    rfl

end Expr.IsWritable

theorem parse_of_long
    {text : String}
    (long : maxLength < text.length) :
    parse text = .error ⟨.tooLong text.length maxLength, maxLength⟩ := by
  unfold parse checkBounds
  rw [if_pos long]
  rfl

/-! ## The value of what is parsed again -/

namespace Expr.IsWritable

variable {tree again : Expr}

/-- Only the tree with its signs out is ever parsed from a rendering. -/
theorem eq_withSignsOut_of_parse
    (writable : tree.IsWritable)
    (parsed : parse tree.render = .ok again) :
    again = tree.withSignsOut := by
  have short : tree.render.length ≤ maxLength :=
    length_le_of_checkBounds (exists_derivation_of_parse parsed).1
  rcases Nat.lt_or_ge maxNesting tree.nesting with deep | shallow
  · obtain ⟨position, refused⟩ := writable.parse_render_of_deep short deep
    simp [parsed] at refused
  · have read := writable.parse_render short shallow
    exact Except.ok.inj (parsed.symm.trans read)

/-- What is parsed from the rendering of a tree has the value of the tree. -/
theorem evaluate_eq_of_parse
    (writable : tree.IsWritable)
    (parsed : parse tree.render = .ok again)
    (bindings : Bindings) :
    evaluate again bindings = evaluate tree bindings := by
  have same := writable.eq_withSignsOut_of_parse parsed
  have fits : tree.levels ≤ maxDepth := by
    have lower := tree.levels_le_levels_withSignsOut
    have bound : again.levels ≤ maxDepth := levels_le_of_parse parsed
    rw [same] at bound
    exact Nat.le_trans lower bound
  calc evaluate again bindings
      = again.value bindings := evaluate_eq_value_of_parse parsed bindings
    _ = tree.withSignsOut.value bindings := by rw [same]
    _ = tree.value bindings := tree.value_withSignsOut bindings
    _ = evaluate tree bindings := (evaluate_eq_value fits bindings).symm

end Expr.IsWritable

/-! ## Trees that are parsed, and trees with one text -/

/-- A rendering of a parsed tree is parsed as that tree, or it is refused. -/
theorem parse_render_of_parse
    {text : String}
    {tree : Expr}
    (parsed : parse text = .ok tree) :
    parse tree.render = .ok tree ∨
      parse tree.render =
        .error ⟨.tooLong tree.render.length maxLength, maxLength⟩ ∨
      IsTooDeep (parse tree.render) := by
  have writable := isWritable_of_parse parsed
  have noSigns : tree.withSignsOut = tree :=
    Expr.withSignsOut_eq_self (literalsSatisfy_of_parse parsed)
  rcases Nat.lt_or_ge maxLength tree.render.length with long | short
  · exact .inr (.inl (parse_of_long long))
  · rcases Nat.lt_or_ge maxNesting tree.nesting with deep | shallow
    · exact .inr (.inr (writable.parse_render_of_deep short deep))
    · have read := writable.parse_render short shallow
      rw [noSigns] at read
      exact .inl read

/-- The name of a variable is parsed as a reference to it. -/
theorem parse_name (quantity : Variable) :
    parse quantity.name = .ok (.reference quantity.name) := by
  have writable : (Expr.reference quantity.name).IsWritable :=
    ⟨⟨quantity, Variable.ofName?_name quantity⟩, trivial⟩
  exact
    writable.parse_render (by cases quantity <;> decide) (Nat.zero_le _)

/-- Two writable trees never have one rendering. -/
theorem eq_of_render_eq
    {first second : Expr}
    (firstWritable : first.IsWritable)
    (secondWritable : second.IsWritable)
    (same : first.render = second.render) :
    first = second := by
  obtain ⟨firstLocated, firstScanned, firstSpelled⟩ :=
    firstWritable.exists_tokenize_render
  obtain ⟨secondLocated, secondScanned, secondSpelled⟩ :=
    secondWritable.exists_tokenize_render
  have sameLocated : firstLocated = secondLocated := by
    rw [same, secondScanned] at firstScanned
    exact (Except.ok.inj firstScanned).symm
  have sameTokens : first.tokens ++ [] = second.tokens ++ [] := by
    rw [← firstSpelled, ← secondSpelled, sameLocated]
  exact
    (firstWritable.wellFormed.standsAlone secondWritable.wellFormed
      sameTokens).1

/-! ## The round trip -/

/--
The rendering of a writable tree is parsed as the tree with its signs out when
it is within both bounds; otherwise the error names the bound that it misses.
Whatever is parsed has the value of the tree.  A parsed tree comes back as
itself or not at all, and two trees never share a rendering.
-/
theorem render_roundTrip :
    (∀ tree : Expr,
      tree.IsWritable →
      (tree.render.length ≤ maxLength →
        tree.nesting ≤ maxNesting →
        parse tree.render = .ok tree.withSignsOut) ∧
      (maxLength < tree.render.length →
        parse tree.render =
          .error ⟨.tooLong tree.render.length maxLength, maxLength⟩) ∧
      (tree.render.length ≤ maxLength →
        maxNesting < tree.nesting →
        IsTooDeep (parse tree.render)) ∧
      (∀ again,
        parse tree.render = .ok again →
        ∀ bindings,
          evaluate again bindings = evaluate tree bindings ∧
          (bindings.BindsAll → ∃ value, evaluate tree bindings = .ok value))) ∧
    (∀ text tree,
      parse text = .ok tree →
      parse tree.render = .ok tree ∨
        parse tree.render =
          .error ⟨.tooLong tree.render.length maxLength, maxLength⟩ ∨
        IsTooDeep (parse tree.render)) ∧
    (∀ first second : Expr,
      first.IsWritable →
      second.IsWritable →
      first.render = second.render →
      first = second) := by
  refine ⟨?_, ?_, ?_⟩
  · intro tree writable
    refine ⟨writable.parse_render, parse_of_long,
      writable.parse_render_of_deep, ?_⟩
    intro again parsed bindings
    have sameValue := writable.evaluate_eq_of_parse parsed bindings
    refine ⟨sameValue, ?_⟩
    intro bindsAll
    rw [← sameValue]
    exact exists_evaluate_of_parse parsed bindsAll
  · intro text tree parsed
    exact parse_render_of_parse parsed
  · intro first second firstWritable secondWritable same
    exact eq_of_render_eq firstWritable secondWritable same

/-- The variable `sales` with so many negations before it. -/
def negatedSales : Nat → Expr
  | 0 => .reference "sales"
  | count + 1 => .negate (negatedSales count)

theorem isWritable_negatedSales (count : Nat) :
    (negatedSales count).IsWritable := by
  induction count with
  | zero => exact ⟨⟨.sales, by decide⟩, trivial⟩
  | succ count ih => exact ⟨ih.wellFormed, ih.finite⟩

theorem length_render_negatedSales (count : Nat) :
    (negatedSales count).render.length = 3 * count + 5 := by
  induction count with
  | zero => rfl
  | succ count ih =>
      have marks : "-(".length = 2 ∧ ")".length = 1 := ⟨rfl, rfl⟩
      rw [negatedSales, Expr.render, String.length_append,
        String.length_append, ih, marks.1, marks.2]
      omega

theorem nesting_negatedSales (count : Nat) :
    (negatedSales count).nesting = count := by
  induction count with
  | zero => rfl
  | succ count ih => rw [negatedSales, Expr.nesting, ih]

theorem render_roundTrip_negatedSales :
    parse (negatedSales 1).render = .ok (negatedSales 1).withSignsOut ∧
      parse (Expr.literal (.signedZero true)).render =
        .ok (.negate (.literal (.signedZero false))) ∧
      parse (negatedSales 700).render =
        .error
          ⟨.tooLong (negatedSales 700).render.length maxLength, maxLength⟩ ∧
      IsTooDeep (parse (negatedSales 51).render) ∧
      (∃ value,
        evaluate (negatedSales 1) (.ofRecords .none .empty) = .ok value) ∧
      (parse (negatedSales 1).render = .ok (negatedSales 1) ∨
        parse (negatedSales 1).render =
          .error
            ⟨.tooLong (negatedSales 1).render.length maxLength, maxLength⟩ ∨
        IsTooDeep (parse (negatedSales 1).render)) ∧
      negatedSales 1 = .negate (.reference "sales") := by
  have read :=
    (render_roundTrip.1 (negatedSales 1) (isWritable_negatedSales 1)).1
      (by rw [length_render_negatedSales]; decide)
      (by rw [nesting_negatedSales]; decide)
  refine ⟨read, ?_, ?_, ?_, ?_, ?_, ?_⟩
  · exact
      (render_roundTrip.1 (.literal (.signedZero true)) ⟨trivial, rfl⟩).1
        (by decide +kernel) (by decide)
  · exact
      (render_roundTrip.1 _ (isWritable_negatedSales 700)).2.1
        (by rw [length_render_negatedSales]; decide)
  · exact
      (render_roundTrip.1 _ (isWritable_negatedSales 51)).2.2.1
        (by rw [length_render_negatedSales]; decide)
        (by rw [nesting_negatedSales]; decide)
  · exact
      ((render_roundTrip.1 _ (isWritable_negatedSales 1)).2.2.2 _ read
        _).2 (Bindings.bindsAll_ofRecords .none .empty)
  · exact render_roundTrip.2.1 _ _ hasReading_negatedGroup.parse_eq_ok
  · exact
      render_roundTrip.2.2 _ _ (isWritable_negatedSales 1)
        (isWritable_negatedSales 1) rfl

end IncentivePay.Formula
