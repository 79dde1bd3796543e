import IncentivePay.Payout.Rules
import IncentivePay.Proofs.Binary64.Boundedness

/-!
# The list of violated rules

`Itemizes low high violations holds` says of a list of violations that it has
exactly those for which something holds, in the order of their ranks and each
once, and that their ranks lie between two bounds.  Every check of one rule
makes such a list, and lists whose ranks follow each other may be joined; so
the list of a whole configuration itemizes the rules that it violates, and no
violation hides another.
-/

namespace IncentivePay

/-! ## Ranges -/

namespace Binary64

variable {value other : Binary64}

/-- Numbers are compared by their places; a NaN has none. -/
theorem comparePlaces_iff {relation : Int → Int → Bool} :
    comparePlaces relation value other = true ↔
      ∃ place otherPlace,
        value.place? = some place ∧
          other.place? = some otherPlace ∧
          relation place otherPlace = true := by
  unfold comparePlaces
  cases value.place? <;> cases other.place? <;> simp

theorem zero_isAtMost_iff (value : Binary64) :
    zero.isAtMost value = true ↔ value.IsNonnegative := by
  simp [isAtMost, comparePlaces_iff, place?_zero, IsNonnegative]

theorem isAtMost_one_iff (value : Binary64) :
    value.isAtMost one = true ↔
      ∃ place, value.place? = some place ∧ place ≤ unitsPerOne := by
  rw [isAtMost, comparePlaces_iff]
  constructor
  · rintro ⟨place, onePlace, stands, oneStands, atMost⟩
    obtain rfl : (unitsPerOne : Int) = onePlace :=
      Option.some.inj (place?_one.symm.trans oneStands)
    exact ⟨place, stands, of_decide_eq_true atMost⟩
  · rintro ⟨place, stands, atMost⟩
    exact ⟨place, _, stands, place?_one, decide_eq_true atMost⟩

theorem between_zero_and_one_iff (value : Binary64) :
    (zero.isAtMost value && value.isAtMost one) = true ↔
      value.IsFraction := by
  rw [Bool.and_eq_true, zero_isAtMost_iff, isAtMost_one_iff]
  constructor
  · rintro ⟨⟨place, stands, nonnegative⟩, other, standsToo, atMostOne⟩
    obtain rfl : place = other := by
      simpa using stands.symm.trans standsToo
    exact ⟨place, stands, nonnegative, atMostOne⟩
  · rintro ⟨place, stands, nonnegative, atMostOne⟩
    exact ⟨⟨place, stands, nonnegative⟩, place, stands, atMostOne⟩

theorem isLess_iff_exceeds :
    other.isLess value = true ↔ value.Exceeds other := by
  simp only [isLess, comparePlaces_iff, Exceeds, decide_eq_true_eq]
  constructor
  · rintro ⟨otherPlace, place, otherStands, stands, less⟩
    exact ⟨place, otherPlace, stands, otherStands, less⟩
  · rintro ⟨place, otherPlace, stands, otherStands, less⟩
    exact ⟨otherPlace, place, otherStands, stands, less⟩

/-- A NaN is neither a fraction nor at least zero. -/
theorem nan_in_no_range :
    ¬ nan.IsFraction ∧ ¬ nan.IsNonnegative := by
  constructor
  · rintro ⟨place, stands, -⟩
    cases stands
  · rintro ⟨place, stands, -⟩
    cases stands

end Binary64

/-! ## Itemized lists -/

/--
A list has the violations for which something holds, by rank and each once.
-/
structure Itemizes
    (low high : Nat)
    (violations : List Violation)
    (holds : Violation → Prop) :
    Prop where
  low_le_high : low ≤ high
  mem_iff : ∀ violation, violation ∈ violations ↔ holds violation
  ordered :
    violations.Pairwise fun earlier later => earlier.rank < later.rank
  bounded :
    ∀ violation ∈ violations, low ≤ violation.rank ∧ violation.rank < high

namespace Itemizes

variable
  {low middle high : Nat}
  {violations others : List Violation}
  {holds otherHolds : Violation → Prop}

theorem congr
    (itemizes : Itemizes low high violations otherHolds)
    (same : ∀ violation, holds violation ↔ otherHolds violation) :
    Itemizes low high violations holds :=
  { itemizes with
    mem_iff := fun violation =>
      (itemizes.mem_iff violation).trans (same violation).symm }

theorem widen
    {lower higher : Nat}
    (itemizes : Itemizes low high violations holds)
    (below : lower ≤ low)
    (above : high ≤ higher) :
    Itemizes lower higher violations holds :=
  { itemizes with
    low_le_high :=
      Nat.le_trans below (Nat.le_trans itemizes.low_le_high above)
    bounded := fun violation member => by
      have bounds := itemizes.bounded violation member
      omega }

/-- Lists whose ranks follow each other are joined. -/
theorem append
    (first : Itemizes low middle violations holds)
    (second : Itemizes middle high others otherHolds) :
    Itemizes low high (violations ++ others)
      (fun violation => holds violation ∨ otherHolds violation) where
  low_le_high := Nat.le_trans first.low_le_high second.low_le_high
  mem_iff violation := by
    rw [List.mem_append, first.mem_iff, second.mem_iff]
  ordered := by
    refine List.pairwise_append.2 ⟨first.ordered, second.ordered, ?_⟩
    intro earlier isEarlier later isLater
    have below := (first.bounded earlier isEarlier).2
    have above := (second.bounded later isLater).1
    omega
  bounded := by
    have inOrder := first.low_le_high
    have inOrderToo := second.low_le_high
    intro violation member
    rcases List.mem_append.1 member with isFirst | isSecond
    · have bounds := first.bounded violation isFirst
      omega
    · have bounds := second.bounded violation isSecond
      omega

theorem nil (rank : Nat) : Itemizes rank rank [] fun _ => False where
  low_le_high := rank.le_refl
  mem_iff := by simp
  ordered := .nil
  bounded := by simp

theorem single (violation : Violation) :
    Itemizes violation.rank (violation.rank + 1) [violation]
      (· = violation) where
  low_le_high := Nat.le_succ _
  mem_iff := by simp
  ordered := List.pairwise_singleton ..
  bounded := by simp

/-- A rule that is checked by one condition. -/
theorem violationIf
    (condition : Bool)
    (violation : Violation) :
    Itemizes violation.rank (violation.rank + 1)
      (violationIf condition violation)
      (fun found => condition = true ∧ found = violation) := by
  cases condition with
  | false =>
      exact
        ((nil violation.rank).widen (Nat.le_refl _) (Nat.le_succ _)).congr
          (by simp)
  | true => exact (single violation).congr (by simp)

/-- A rule for the range of one parameter. -/
theorem violationOf
    (value? : Option Binary64)
    {inRange : Binary64 → Bool}
    (violation : Binary64 → Violation)
    {rank : Nat}
    (ranked : ∀ value, (violation value).rank = rank)
    {liesInRange : Binary64 → Prop}
    (checks : ∀ value, inRange value = true ↔ liesInRange value) :
    Itemizes rank (rank + 1) (violationOf value? inRange violation)
      (fun found =>
        ∃ value,
          value? = some value ∧
            ¬ liesInRange value ∧
            found = violation value) := by
  cases value? with
  | none =>
      exact
        ((nil rank).widen (Nat.le_refl _) (Nat.le_succ _)).congr (by simp)
  | some value =>
      have itemizes := Itemizes.violationIf (!inRange value) (violation value)
      rw [ranked value] at itemizes
      exact itemizes.congr (by simp [← checks])

end Itemizes

/-! ## The rules of a configuration -/

variable {config : Config}

/-- The rule for minimum and maximum. -/
theorem Parameters.itemizes_order (parameters : Parameters) :
    Itemizes 9 10
      (match parameters.minAmount, parameters.maxAmount with
        | some minAmount, some maxAmount =>
            violationIf (maxAmount.isLess minAmount)
              (.minExceedsMax minAmount maxAmount)
        | _, _ => [])
      (fun found =>
        ∃ minAmount maxAmount,
          parameters.minAmount = some minAmount ∧
            parameters.maxAmount = some maxAmount ∧
            minAmount.Exceeds maxAmount ∧
            found = .minExceedsMax minAmount maxAmount) := by
  have nothing : Itemizes 9 10 [] fun _ => False :=
    (Itemizes.nil 9).widen (by decide) (by decide)
  cases parameters.minAmount with
  | none => exact nothing.congr (by simp)
  | some minAmount =>
      cases parameters.maxAmount with
      | none => exact nothing.congr (by simp)
      | some maxAmount =>
          exact
            (Itemizes.violationIf (maxAmount.isLess minAmount)
              (.minExceedsMax minAmount maxAmount)).congr
              (by simp [Binary64.isLess_iff_exceeds])

/-- The rules for the ranges of the parameters. -/
theorem Config.itemizes_rangeViolations (config : Config) :
    Itemizes 5 10 config.parameters.rangeViolations
      (fun violation => Violates config violation ∧ 5 ≤ violation.rank) := by
  have ofRate :=
    Itemizes.violationOf config.parameters.rate .rateOutOfRange
      (fun _ => rfl) Binary64.between_zero_and_one_iff
  have ofThreshold :=
    Itemizes.violationOf config.parameters.threshold .negativeThreshold
      (fun _ => rfl) Binary64.zero_isAtMost_iff
  have ofMin :=
    Itemizes.violationOf config.parameters.minAmount .negativeMinAmount
      (fun _ => rfl) Binary64.zero_isAtMost_iff
  have ofMax :=
    Itemizes.violationOf config.parameters.maxAmount .negativeMaxAmount
      (fun _ => rfl) Binary64.zero_isAtMost_iff
  have ofOrder := config.parameters.itemizes_order
  apply ((((ofRate.append ofThreshold).append ofMin).append ofMax).append
    ofOrder).congr
  intro violation
  constructor
  · rintro ⟨violates, ranked⟩
    cases violates with
    | rateOutOfRange given outside =>
        exact .inl (.inl (.inl (.inl ⟨_, given, outside, rfl⟩)))
    | negativeThreshold given outside =>
        exact .inl (.inl (.inl (.inr ⟨_, given, outside, rfl⟩)))
    | negativeMinAmount given outside =>
        exact .inl (.inl (.inr ⟨_, given, outside, rfl⟩))
    | negativeMaxAmount given outside =>
        exact .inl (.inr ⟨_, given, outside, rfl⟩)
    | minExceedsMax givenMin givenMax exceeds =>
        exact .inr ⟨_, _, givenMin, givenMax, exceeds, rfl⟩
    -- The other rules come before those of the ranges.
    | _ => simp [Violation.rank] at ranked
  · rintro
      ((((⟨rate, given, outside, rfl⟩ | ⟨threshold, given, outside, rfl⟩) |
            ⟨minAmount, given, outside, rfl⟩) |
          ⟨maxAmount, given, outside, rfl⟩) |
        ⟨minAmount, maxAmount, givenMin, givenMax, exceeds, rfl⟩)
    · exact ⟨.rateOutOfRange given outside, by simp [Violation.rank]⟩
    · exact ⟨.negativeThreshold given outside, by simp [Violation.rank]⟩
    · exact ⟨.negativeMinAmount given outside, by simp [Violation.rank]⟩
    · exact ⟨.negativeMaxAmount given outside, by simp [Violation.rank]⟩
    · exact ⟨.minExceedsMax givenMin givenMax exceeds, by simp [Violation.rank]⟩

/-- Each missing requirement is checked by one condition. -/
theorem Config.templateViolations_eq (config : Config) :
    config.templateViolations =
      config.planType.required.flatMap
          (fun requirement =>
            violationIf (!config.parameters.gives requirement)
              (.missingParameter config.planType requirement)) ++
        violationIf config.formula?.isSome
          (.unexpectedFormula config.planType) := by
  unfold templateViolations
  congr 1
  induction config.planType.required with
  | nil => rfl
  | cons requirement requirements induction =>
      rw [List.flatMap_cons, ← induction]
      cases given : config.parameters.gives requirement <;>
        simp [violationIf, given]

/-- The table of requirements asks for a threshold where an excess is paid. -/
theorem PlanType.threshold_mem_required_iff {planType : PlanType} :
    .threshold ∈ planType.required ↔ planType.IsExcess := by
  cases planType <;> simp [required, IsExcess]

theorem PlanType.not_noPlan_or_custom_of_template
    {planType : PlanType}
    (isTemplate : planType.IsPercent ∨ planType.IsExcess) :
    planType ≠ .noPlan ∧ planType ≠ .custom := by
  cases planType <;> simp_all [IsPercent, IsExcess]

namespace Config

/-- The rules of a template type, where only some types ask for a threshold. -/
theorem itemizes_template
    (isTemplate : config.planType.IsPercent ∨ config.planType.IsExcess) :
    Itemizes 0 5 config.requirementViolations
      (fun violation => Violates config violation ∧ violation.rank < 5) := by
  obtain ⟨notNone, notCustom⟩ :=
    PlanType.not_noPlan_or_custom_of_template isTemplate
  have ofThreshold :=
    Itemizes.violationIf
      (decide (.threshold ∈ config.planType.required) &&
        config.parameters.threshold.isNone)
      (.missingParameter config.planType .threshold)
  have ofRate :=
    Itemizes.violationIf config.parameters.rate.isNone
      (.missingParameter config.planType .rate)
  have ofFormula :=
    Itemizes.violationIf config.formula?.isSome
      (.unexpectedFormula config.planType)
  have joined :=
    ((ofThreshold.append ofRate).append ofFormula).widen (Nat.zero_le _)
      (Nat.le_refl 5)
  have listed :
      config.requirementViolations =
        violationIf
            (decide (.threshold ∈ config.planType.required) &&
              config.parameters.threshold.isNone)
            (.missingParameter config.planType .threshold) ++
          violationIf config.parameters.rate.isNone
            (.missingParameter config.planType .rate) ++
          violationIf config.formula?.isSome
            (.unexpectedFormula config.planType) := by
    rcases isTemplate with (isType | isType) | (isType | isType) <;>
      simp [requirementViolations, templateViolations_eq, isType,
        PlanType.required, Parameters.gives, violationIf]
  rw [← listed] at joined
  apply joined.congr
  intro violation
  simp only [Bool.and_eq_true, decide_eq_true_eq, Option.isNone_iff_eq_none,
    Option.isSome_iff_exists, PlanType.threshold_mem_required_iff]
  constructor
  · rintro ⟨violates, ranked⟩
    cases violates with
    | unconfigurable isType => contradiction
    | missingFormula isType => contradiction
    | missingThreshold isExcess missing =>
        exact .inl (.inl ⟨⟨isExcess, missing⟩, rfl⟩)
    | missingRate _ missing => exact .inl (.inr ⟨missing, rfl⟩)
    | unexpectedFormula _ hasFormula => exact .inr ⟨⟨_, hasFormula⟩, rfl⟩
    | _ => simp [Violation.rank] at ranked
  · rintro
      ((⟨⟨isExcess, missing⟩, rfl⟩ | ⟨missing, rfl⟩) |
        ⟨⟨formula, hasFormula⟩, rfl⟩)
    · exact ⟨.missingThreshold isExcess missing, by simp [Violation.rank]⟩
    · exact ⟨.missingRate isTemplate missing, by simp [Violation.rank]⟩
    · exact ⟨.unexpectedFormula isTemplate hasFormula, by simp [Violation.rank]⟩

/-- The rules of what the type requires, for every type. -/
theorem itemizes_requirementViolations (config : Config) :
    Itemizes 0 5 config.requirementViolations
      (fun violation => Violates config violation ∧ violation.rank < 5) := by
  cases isType : config.planType with
  | noPlan =>
      have listed :
          config.requirementViolations = [.unconfigurable .noPlan] := by
        simp [requirementViolations, isType]
      rw [listed]
      apply
        ((Itemizes.single _).widen (Nat.zero_le _) (by decide)).congr
      intro violation
      constructor
      · rintro ⟨violates, ranked⟩
        cases violates <;>
          simp_all [PlanType.IsPercent, PlanType.IsExcess, Violation.rank]
      · rintro rfl
        exact ⟨.unconfigurable isType, by decide⟩
  | custom =>
      have listed :
          config.requirementViolations =
            violationIf config.formula?.isNone .missingFormula := by
        simp [requirementViolations, isType]
      rw [listed]
      apply
        ((Itemizes.violationIf _ _).widen (Nat.zero_le _) (by decide)).congr
      intro violation
      constructor
      · rintro ⟨violates, ranked⟩
        cases violates <;>
          simp_all [PlanType.IsPercent, PlanType.IsExcess, Violation.rank]
      · rintro ⟨missing, rfl⟩
        exact
          ⟨.missingFormula isType (Option.isNone_iff_eq_none.1 missing),
            by decide⟩
  | _ =>
      exact
        itemizes_template
          (by simp [isType, PlanType.IsPercent, PlanType.IsExcess])

/-- The list of a configuration has the rules that it violates, in order. -/
theorem itemizes_violations (config : Config) :
    Itemizes 0 10 config.violations (Violates config) := by
  apply
    (config.itemizes_requirementViolations.append
      config.itemizes_rangeViolations).congr
  intro violation
  have either := Nat.lt_or_ge violation.rank 5
  constructor
  · intro violates
    exact either.imp (⟨violates, ·⟩) (⟨violates, ·⟩)
  · rintro (⟨violates, -⟩ | ⟨violates, -⟩) <;> exact violates

/-- The parameters are in their ranges when no rule of a range is violated. -/
theorem areInRange_iff (config : Config) :
    config.parameters.AreInRange ↔
      ∀ violation, ¬ (Violates config violation ∧ 5 ≤ violation.rank) := by
  constructor
  · rintro inRange violation ⟨violates, ranked⟩
    cases violates with
    | rateOutOfRange given outside => exact outside (inRange.rate _ given)
    | negativeThreshold given outside =>
        exact outside (inRange.threshold _ given)
    | negativeMinAmount given outside =>
        exact outside (inRange.minAmount _ given)
    | negativeMaxAmount given outside =>
        exact outside (inRange.maxAmount _ given)
    | minExceedsMax givenMin givenMax exceeds =>
        exact inRange.inOrder _ givenMin _ givenMax exceeds
    | _ => simp [Violation.rank] at ranked
  · intro clean
    have never {violation : Violation}
        (ranked : 5 ≤ violation.rank)
        (violates : Violates config violation) :
        False :=
      clean violation ⟨violates, ranked⟩
    exact
      { rate := fun _ given =>
          Classical.byContradiction fun outside =>
            never (by simp [Violation.rank]) (.rateOutOfRange given outside)
        threshold := fun _ given =>
          Classical.byContradiction fun outside =>
            never (by simp [Violation.rank]) (.negativeThreshold given outside)
        minAmount := fun _ given =>
          Classical.byContradiction fun outside =>
            never (by simp [Violation.rank]) (.negativeMinAmount given outside)
        maxAmount := fun _ given =>
          Classical.byContradiction fun outside =>
            never (by simp [Violation.rank]) (.negativeMaxAmount given outside)
        inOrder := fun _ givenMin _ givenMax exceeds =>
          never (by simp [Violation.rank])
            (.minExceedsMax givenMin givenMax exceeds) }

theorem not_violates_of_isSound
    {violation : Violation}
    (sound : config.IsSound) :
    ¬ Violates config violation := by
  intro violates
  have ranked : ¬ 5 ≤ violation.rank :=
    fun ranked => config.areInRange_iff.1 sound.inRange _ ⟨violates, ranked⟩
  cases violates with
  | unconfigurable isType => exact sound.configurable isType
  | missingFormula isCustom missing =>
      obtain ⟨formula, hasFormula⟩ := sound.formula.1 isCustom
      simp [missing] at hasFormula
  | missingThreshold isExcess missing =>
      exact sound.excessThreshold isExcess missing
  | missingRate isTemplate missing =>
      rcases isTemplate with isPercent | isExcess
      · exact sound.percentRate isPercent missing
      · exact sound.excessRate isExcess missing
  | unexpectedFormula isTemplate hasFormula =>
      exact
        (PlanType.not_noPlan_or_custom_of_template isTemplate).2
          (sound.formula.2 ⟨_, hasFormula⟩)
  -- The other rules are those of the ranges.
  | _ => simp [Violation.rank] at ranked

theorem custom_iff_of_not_violates
    (clean : ∀ violation, ¬ Violates config violation) :
    config.planType = .custom ↔
      ∃ formula, config.formula? = some formula := by
  constructor
  · intro isCustom
    cases hasFormula : config.formula? with
    | none => exact absurd (.missingFormula isCustom hasFormula) (clean _)
    | some formula => exact ⟨formula, rfl⟩
  · rintro ⟨formula, hasFormula⟩
    have planned : config.planType ≠ .noPlan :=
      fun isType => clean _ (.unconfigurable isType)
    have notTemplate :
        ¬ (config.planType.IsPercent ∨ config.planType.IsExcess) :=
      fun isTemplate => clean _ (.unexpectedFormula isTemplate hasFormula)
    cases isType : config.planType <;>
      simp_all [PlanType.IsPercent, PlanType.IsExcess]

/-- Sound configurations are those that violate nothing. -/
theorem isSound_iff (config : Config) :
    config.IsSound ↔ ∀ violation, ¬ Violates config violation := by
  constructor
  · intro sound violation
    exact not_violates_of_isSound sound
  · intro clean
    exact
      { configurable := fun isType => clean _ (.unconfigurable isType)
        formula := custom_iff_of_not_violates clean
        percentRate := fun isPercent missing =>
          clean _ (.missingRate (.inl isPercent) missing)
        excessThreshold := fun isExcess missing =>
          clean _ (.missingThreshold isExcess missing)
        excessRate := fun isExcess missing =>
          clean _ (.missingRate (.inr isExcess) missing)
        inRange :=
          config.areInRange_iff.2 fun violation both =>
            clean violation both.1 }

/-- A configuration whose list is empty is sound. -/
theorem violations_eq_nil_iff (config : Config) :
    config.violations = [] ↔ config.IsSound := by
  rw [isSound_iff, List.eq_nil_iff_forall_not_mem]
  simp only [config.itemizes_violations.mem_iff]

end Config

/--
Nothing is listed of parameters exactly when all of them are in their ranges.
-/
theorem Parameters.rangeViolations_eq_nil_iff (parameters : Parameters) :
    parameters.rangeViolations = [] ↔ parameters.AreInRange := by
  -- The rules of the ranges are those of any configuration with the parameters.
  have itemizes :=
    (Config.active .custom parameters none).itemizes_rangeViolations
  rw [List.eq_nil_iff_forall_not_mem]
  exact
    (forall_congr' fun violation => not_congr (itemizes.mem_iff violation)).trans
      (Config.areInRange_iff _).symm

end IncentivePay
