import IncentivePay.Proofs.Binary64.Monotonicity
import IncentivePay.Proofs.Payout.LimitExactness
import IncentivePay.Proofs.Payout.ValidatedConfig

/-!
# Template payouts keep the order of their inputs

What a template pays is computed from four places: the portion of the sales
figure that the rule pays for, the rate, and the two bounds.  The lower bound
is not negative, so no more of the figure matters than its part above nought,
and a growing rate does no harm to negative sales.  Each step keeps the order
of the places: the difference and the product because rounding does, then the
limits.
-/

namespace IncentivePay

open Binary64
open Formula

/-! ## Places of a payout -/

/-- The amount for a portion at a rate, held between bounds. -/
def amountAt (portion rate lower upper : Int) : Int64 :=
  clampInt64
    (min (max (roundedPlace (portion * rate) unitsPerOne) lower) upper /
      unitsPerOne)

theorem amountAt_mono
    {portion otherPortion rate otherRate : Int}
    (portionNonnegative : 0 ≤ portion)
    (rateNonnegative : 0 ≤ rate)
    (portionOrdered : portion ≤ otherPortion)
    (rateOrdered : rate ≤ otherRate)
    (lower upper : Int) :
    amountAt portion rate lower upper ≤
      amountAt otherPortion otherRate lower upper := by
  have products : portion * rate ≤ otherPortion * otherRate :=
    Int.mul_le_mul portionOrdered rateOrdered rateNonnegative
      (Int.le_trans portionNonnegative portionOrdered)
  have rounded := roundedPlace_mono unitsPerOne_pos products
  apply clampInt64_mono
  apply Int.ediv_le_ediv unitsPerOne_cast_pos
  omega

namespace Template

/--
The portion of a sales figure that a rule pays for, and its rate, by places.
Only the part of the figure above nought is counted.
-/
inductive Earns (figure : Int) : Template → Int → Int → Prop
  | percent {basis : Basis} {rate : Binary64} {ratePlace : Int} :
      rate.place? = some ratePlace →
      Earns figure (.percent basis rate) (max figure 0) ratePlace
  | excess
      {basis : Basis} {threshold rate : Binary64}
      {thresholdPlace ratePlace : Int} :
      threshold.place? = some thresholdPlace →
      rate.place? = some ratePlace →
      Earns figure (.excess basis threshold rate)
        (roundedPlace (max (figure - thresholdPlace) 0) 1) ratePlace

variable
  {rule : Template}
  {parameters : Parameters}
  {sales : Sales}
  {figure : Int}

theorem Earns.portion_nonneg
    {portion rate : Int}
    (earns : rule.Earns figure portion rate) :
    0 ≤ portion := by
  cases earns with
  | percent => exact Int.le_max_right _ _
  | excess => exact roundedPlace_nonneg (Int.le_max_right _ _) 1

/-- The raw amount of a rule, apart from what is below nought. -/
theorem exists_earns
    (inRange : parameters.rangeViolations = [])
    (hasNumbers : rule.HasNumbersOf parameters)
    (isFinite : (rule.basis.figure sales).isFinite = true)
    (stands : (rule.basis.figure sales).place? = some figure) :
    ∃ portion rate raw,
      Earns figure rule portion rate ∧
        0 ≤ rate ∧
        (rule.rawAmount sales).place? = some raw ∧
        max raw 0 = roundedPlace (portion * rate) unitsPerOne := by
  cases rule with
  | percent basis rate =>
      obtain ⟨notNegative, atMostOne⟩ :=
        Parameters.rate_between inRange hasNumbers
      obtain ⟨ratePlace, rateStands, nonnegative⟩ :=
        exists_place_of_zero_isAtMost notNegative
      refine
        ⟨_, ratePlace, _, .percent rateStands, nonnegative,
          place?_multiply isFinite (isFinite_of_fraction notNegative atMostOne)
            stands rateStands, ?_⟩
      rw [max_roundedPlace_zero, max_mul_of_nonneg _ _ nonnegative, Int.zero_mul]
  | excess basis threshold rate =>
      obtain ⟨thresholdGiven, rateGiven⟩ := hasNumbers
      obtain ⟨notNegative, atMostOne⟩ :=
        Parameters.rate_between inRange rateGiven
      obtain ⟨ratePlace, rateStands, nonnegative⟩ :=
        exists_place_of_zero_isAtMost notNegative
      have thresholdInRange :=
        Parameters.threshold_nonneg inRange thresholdGiven
      obtain ⟨thresholdPlace, thresholdStands, thresholdNonnegative⟩ :=
        exists_place_of_zero_isAtMost thresholdInRange
      have portionFinite :=
        isFinite_maxPresent_zero
          (subtract_ne_infinity isFinite thresholdInRange)
      have portionStands :=
        place?_excess isFinite stands thresholdStands thresholdNonnegative
      refine
        ⟨_, ratePlace, _, .excess thresholdStands rateStands, nonnegative,
          place?_multiply portionFinite
            (isFinite_of_fraction notNegative atMostOne) portionStands
            rateStands, ?_⟩
      apply Int.max_eq_left
      apply roundedPlace_nonneg
      exact
        Int.mul_nonneg (roundedPlace_nonneg (Int.le_max_right _ _) 1)
          nonnegative

end Template

/-! ## Order of the places -/

theorem isAtMost_self_of_isFinite
    {value : Binary64}
    (isFinite : value.isFinite = true) :
    value.isAtMost value = true := by
  obtain ⟨place, stands⟩ := place?_of_isFinite isFinite
  rw [isAtMost_of_places stands stands]
  exact decide_eq_true (Int.le_refl place)

/-- A number that is given has stayed or has become larger. -/
def Grows (before after : Option Binary64) : Prop :=
  after = before ∨
    ∃ lesser greater,
      before = some lesser ∧
        after = some greater ∧
        lesser.isAtMost greater = true

theorem Grows.place_le
    {before after : Option Binary64}
    (grows : Grows before after)
    {lesser greater : Binary64}
    {place otherPlace : Int}
    (isBefore : before = some lesser)
    (isAfter : after = some greater)
    (stands : lesser.place? = some place)
    (otherStands : greater.place? = some otherPlace) :
    place ≤ otherPlace := by
  rcases grows with same | ⟨_, _, wasBefore, wasAfter, atMost⟩
  · obtain rfl : greater = lesser :=
      Option.some.inj (isAfter.symm.trans (same.trans isBefore))
    exact Int.le_of_eq (Option.some.inj (stands.symm.trans otherStands))
  · obtain rfl := Option.some.inj (isBefore.symm.trans wasBefore)
    obtain rfl := Option.some.inj (isAfter.symm.trans wasAfter)
    rw [isAtMost_of_places stands otherStands] at atMost
    exact of_decide_eq_true atMost

/--
The portion and the rate grow with the figure and the rate, against the
threshold.
-/
theorem Template.Earns.ordered
    {rule other : Template}
    {parameters otherParameters : Parameters}
    {figure otherFigure portion otherPortion rate otherRate : Int}
    (earns : rule.Earns figure portion rate)
    (otherEarns : other.Earns otherFigure otherPortion otherRate)
    (sameType : other.planType = rule.planType)
    (hasNumbers : rule.HasNumbersOf parameters)
    (otherHasNumbers : other.HasNumbersOf otherParameters)
    (figures : figure ≤ otherFigure)
    (rates : Grows parameters.rate otherParameters.rate)
    (thresholds :
      rule.planType.IsExcess →
      Grows otherParameters.threshold parameters.threshold) :
    portion ≤ otherPortion ∧ rate ≤ otherRate := by
  cases earns with
  | @percent basis _ _ rateStands =>
      cases otherEarns with
      | percent otherRateStands =>
          refine ⟨by omega, ?_⟩
          exact
            rates.place_le hasNumbers otherHasNumbers rateStands
              otherRateStands
      | @excess otherBasis =>
          cases basis <;> cases otherBasis <;> simp [planType] at sameType
  | @excess basis threshold rate thresholdPlace _ thresholdStands rateStands =>
      cases otherEarns with
      | @percent otherBasis =>
          cases basis <;> cases otherBasis <;> simp [planType] at sameType
      | excess otherThresholdStands otherRateStands =>
          have lowered :=
            (thresholds (isExcess_planType basis threshold rate).1).place_le
              otherHasNumbers.1 hasNumbers.1 otherThresholdStands
              thresholdStands
          constructor
          · apply roundedPlace_mono (by decide)
            omega
          · exact
              rates.place_le hasNumbers.2 otherHasNumbers.2 rateStands
                otherRateStands

/-! ## Payouts -/

theorem Parameters.BoundedBy.unique
    {parameters other : Parameters}
    {lower upper otherLower otherUpper : Int}
    (bounded : parameters.BoundedBy lower upper)
    (otherBounded : other.BoundedBy otherLower otherUpper)
    (sameLower : other.lowerBound = parameters.lowerBound)
    (sameUpper : other.upperBound = parameters.upperBound) :
    otherLower = lower ∧ otherUpper = upper := by
  have lowerStands := otherBounded.lowerStands
  have upperStands := otherBounded.upperStands
  rw [sameLower, bounded.lowerStands] at lowerStands
  rw [sameUpper, bounded.upperStands] at upperStands
  exact ⟨(Option.some.inj lowerStands).symm, (Option.some.inj upperStands).symm⟩

namespace Config

variable
  {config other : Config}
  {basis : Basis}
  {sales otherSales : Sales}
  {profile otherProfile : Profile}
  {cache otherCache : Cache}
  {payout otherPayout : Payout}

/-- A template that pays is sound, and its amount is the limited raw amount. -/
theorem exists_rule_of_pays
    (reads : config.planType.basis? = some basis)
    (isFinite : (basis.figure sales).isFinite = true)
    (paid : (config.simulate sales profile cache).1 = .ok payout) :
    config.violations = [] ∧
      ∃ rule : Template,
        rule.planType = config.planType ∧
          rule.HasNumbersOf config.parameters ∧
          payout.amount = config.parameters.limit (rule.rawAmount sales) := by
  obtain ⟨notCustom, planned⟩ := PlanType.isTemplate_of_basis? reads
  rw [simulate_eq planned] at paid
  by_cases sound : config.violations = []
  · obtain ⟨rule, hasRule⟩ := exists_rule_of_sound sound notCustom planned
    obtain ⟨belongs, hasNumbers⟩ :=
      Template.planType_and_numbers_of_ofParameters hasRule
    obtain rfl : rule.basis = basis := by simpa [← belongs] using reads
    have rawFinite :=
      Template.isFinite_rawAmount (List.append_eq_nil_iff.1 sound).2
        hasNumbers isFinite
    rw [(compute_template sound notCustom planned hasRule).1,
      Computation.ofTemplate, settle_of_isFinite rawFinite] at paid
    refine ⟨sound, rule, belongs, hasNumbers, ?_⟩
    rw [← Except.ok.inj paid]
  · rw [compute_of_violations sound] at paid
    contradiction

/-- What a template pays, by places. -/
theorem exists_places_of_pays
    (reads : config.planType.basis? = some basis)
    (isFinite : (basis.figure sales).isFinite = true)
    {figure : Int}
    (stands : (basis.figure sales).place? = some figure)
    (paid : (config.simulate sales profile cache).1 = .ok payout) :
    ∃ (rule : Template) (portion rate lower upper : Int),
      rule.planType = config.planType ∧
        rule.HasNumbersOf config.parameters ∧
        rule.Earns figure portion rate ∧
        0 ≤ rate ∧
        config.parameters.BoundedBy lower upper ∧
        payout.amount = amountAt portion rate lower upper := by
  obtain ⟨sound, rule, belongs, hasNumbers, amount⟩ :=
    exists_rule_of_pays reads isFinite paid
  have inRange := (List.append_eq_nil_iff.1 sound).2
  obtain rfl : rule.basis = basis := by simpa [← belongs] using reads
  obtain ⟨portion, rate, raw, earns, nonnegative, rawStands, aboveNought⟩ :=
    Template.exists_earns inRange hasNumbers isFinite stands
  obtain ⟨lower, upper, lowerStands, upperStands, lowerNonnegative, ordered⟩ :=
    Parameters.exists_bounds inRange
  have bounded : config.parameters.BoundedBy lower upper :=
    ⟨lowerStands, upperStands, lowerNonnegative, ordered⟩
  refine
    ⟨rule, portion, rate, lower, upper, belongs, hasNumbers, earns,
      nonnegative, bounded, ?_⟩
  -- The lower bound is not negative, so nothing below nought gets past it.
  have held : max raw lower = max (max raw 0) lower := by omega
  rw [amount, bounded.limit_eq, rawStands, Option.getD_some, held, aboveNought,
    amountAt]

/--
Of two templates of one type with the same bounds, the one with no less of the
figure, no lower rate and no higher threshold pays no less.
-/
theorem amount_le_amount
    (paid : (config.simulate sales profile cache).1 = .ok payout)
    (otherPaid :
      (other.simulate otherSales otherProfile otherCache).1 =
        .ok otherPayout)
    (reads : config.planType.basis? = some basis)
    (isFinite : (basis.figure sales).isFinite = true)
    (otherFinite : (basis.figure otherSales).isFinite = true)
    (sameType : other.planType = config.planType)
    (sameLower : other.parameters.lowerBound = config.parameters.lowerBound)
    (sameUpper : other.parameters.upperBound = config.parameters.upperBound)
    (figures :
      (basis.figure sales).isAtMost (basis.figure otherSales) = true)
    (rates : Grows config.parameters.rate other.parameters.rate)
    (thresholds :
      config.planType.IsExcess →
      Grows other.parameters.threshold config.parameters.threshold) :
    payout.amount ≤ otherPayout.amount := by
  obtain ⟨figure, otherFigure, stands, otherStands, ordered⟩ :=
    exists_places_of_isAtMost figures
  obtain ⟨rule, portion, rate, lower, upper, belongs, hasNumbers, earns,
    nonnegative, bounded, amount⟩ :=
    exists_places_of_pays reads isFinite stands paid
  obtain ⟨otherRule, otherPortion, otherRate, otherLower, otherUpper,
    otherBelongs, otherHasNumbers, otherEarns, -, otherBounded,
    otherAmount⟩ :=
    exists_places_of_pays (sameType ▸ reads) otherFinite otherStands otherPaid
  obtain ⟨portions, ratePlaces⟩ :=
    earns.ordered otherEarns (by rw [belongs, otherBelongs, sameType])
      hasNumbers otherHasNumbers ordered rates (belongs ▸ thresholds)
  obtain ⟨rfl, rfl⟩ := bounded.unique otherBounded sameLower sameUpper
  rw [amount, otherAmount]
  exact amountAt_mono earns.portion_nonneg nonnegative portions ratePlaces _ _

/-- A configuration with another rate. -/
def withRate
    (config : Config)
    (rate : Option Binary64) :
    Config :=
  { config with parameters := { config.parameters with rate := rate } }

/-- A configuration with another threshold. -/
def withThreshold
    (config : Config)
    (threshold : Option Binary64) :
    Config :=
  { config with
    parameters := { config.parameters with threshold := threshold } }

end Config

/--
Of the payouts that a template makes of finite figures, the one of the larger
figure is no less, whatever else there is in the data and in the cache; a
larger rate pays no less, also for negative sales; a larger threshold pays no
more, and for a percent type the threshold does not matter.
-/
theorem simulate_monotone
    {config : Config}
    {basis : Basis}
    (reads : config.planType.basis? = some basis)
    {sales : Sales}
    (isFinite : (basis.figure sales).isFinite = true)
    {profile : Profile}
    {cache : Cache}
    {payout : Payout}
    (paid : (config.simulate sales profile cache).1 = .ok payout) :
    (∀ otherSales otherProfile otherCache other,
      (basis.figure otherSales).isFinite = true →
      (config.simulate otherSales otherProfile otherCache).1 = .ok other →
      ((basis.figure sales).isAtMost (basis.figure otherSales) = true →
        payout.amount ≤ other.amount) ∧
      (basis.figure otherSales = basis.figure sales →
        other.amount = payout.amount)) ∧
    (∀ rate larger otherCache other,
      config.parameters.rate = some rate →
      rate.isAtMost larger = true →
      ((config.withRate larger).simulate sales profile otherCache).1 =
        .ok other →
      payout.amount ≤ other.amount) ∧
    (∀ threshold larger otherCache other,
      config.parameters.threshold = some threshold →
      threshold.isAtMost larger = true →
      ((config.withThreshold larger).simulate sales profile otherCache).1 =
        .ok other →
      other.amount ≤ payout.amount) ∧
    (config.planType.IsPercent →
      ∀ threshold otherCache other,
        ((config.withThreshold threshold).simulate sales profile
          otherCache).1 = .ok other →
        other.amount = payout.amount) := by
  have same := isAtMost_self_of_isFinite isFinite
  refine ⟨?_, ?_, ?_, ?_⟩
  · intro otherSales otherProfile otherCache other otherFinite otherPaid
    constructor
    · intro figures
      exact
        Config.amount_le_amount paid otherPaid reads isFinite otherFinite rfl
          rfl rfl figures (.inl rfl) fun _ => .inl rfl
    · intro sameFigure
      apply Int64.le_antisymm
      · exact
          Config.amount_le_amount otherPaid paid reads otherFinite isFinite rfl
            rfl rfl (sameFigure.symm ▸ same) (.inl rfl) fun _ => .inl rfl
      · exact
          Config.amount_le_amount paid otherPaid reads isFinite otherFinite rfl
            rfl rfl (sameFigure.symm ▸ same) (.inl rfl) fun _ => .inl rfl
  · intro rate larger otherCache other given atMost otherPaid
    exact
      Config.amount_le_amount paid otherPaid reads isFinite isFinite rfl rfl
        rfl same (.inr ⟨rate, larger, given, rfl, atMost⟩) fun _ => .inl rfl
  · intro threshold larger otherCache other given atMost otherPaid
    exact
      Config.amount_le_amount otherPaid paid reads isFinite isFinite rfl rfl
        rfl same (.inl rfl) fun _ =>
          .inr ⟨threshold, larger, given, rfl, atMost⟩
  · intro isPercent threshold otherCache other otherPaid
    have notExcess : ¬ config.planType.IsExcess := by
      rcases isPercent with isType | isType <;>
        simp [PlanType.IsExcess, isType]
    apply Int64.le_antisymm
    · exact
        Config.amount_le_amount otherPaid paid reads isFinite isFinite rfl rfl
          rfl same (.inl rfl) fun isExcess => absurd isExcess notExcess
    · exact
        Config.amount_le_amount paid otherPaid reads isFinite isFinite rfl rfl
          rfl same (.inl rfl) fun isExcess => absurd isExcess notExcess

/-- A plan that pays half of the personal sales above one unit. -/
def halfAboveOne : Config :=
  .active .personalExcess ⟨some .half, some .one, none, none⟩ none

/--
On the sample data it pays more than on no sales; with the rate one it pays
more, and above all sales it pays less.
-/
theorem simulate_monotone_halfAboveOne :
    ∃ paid onNothing atOne aboveAll : Payout,
      (halfAboveOne.simulate .sample .empty (.ofCapacity 1)).1 = .ok paid ∧
        (halfAboveOne.simulate .none .empty (.ofCapacity 1)).1 =
          .ok onNothing ∧
        onNothing.amount ≤ paid.amount ∧
        ((halfAboveOne.withRate (some .one)).simulate .sample .empty
          (.ofCapacity 1)).1 = .ok atOne ∧
        paid.amount ≤ atOne.amount ∧
        ((halfAboveOne.withThreshold (some .infinity)).simulate .sample .empty
          (.ofCapacity 1)).1 = .ok aboveAll ∧
        aboveAll.amount ≤ paid.amount := by
  have exists_of_isOk
      {preview : Except CalculationError Payout}
      (isOk : preview.isOk = true) :
      ∃ payout, preview = .ok payout := by
    cases preview with
    | ok payout => exact ⟨payout, rfl⟩
    | error => contradiction
  obtain ⟨payout, paid⟩ :
      ∃ payout,
        (halfAboveOne.simulate .sample .empty (.ofCapacity 1)).1 =
          .ok payout :=
    exists_of_isOk (by decide +kernel)
  obtain ⟨onNothing, paidOnNothing⟩ :
      ∃ payout,
        (halfAboveOne.simulate .none .empty (.ofCapacity 1)).1 =
          .ok payout :=
    exists_of_isOk (by decide +kernel)
  obtain ⟨atOne, paidAtOne⟩ :
      ∃ payout,
        ((halfAboveOne.withRate (some .one)).simulate .sample .empty
          (.ofCapacity 1)).1 = .ok payout :=
    exists_of_isOk (by decide +kernel)
  obtain ⟨aboveAll, paidAboveAll⟩ :
      ∃ payout,
        ((halfAboveOne.withThreshold (some .infinity)).simulate .sample .empty
          (.ofCapacity 1)).1 = .ok payout :=
    exists_of_isOk (by decide +kernel)
  obtain ⟨-, byRate, byThreshold, -⟩ :=
    @simulate_monotone halfAboveOne .personal rfl .sample (by decide +kernel)
      _ _ _ paid
  obtain ⟨byFigure, -⟩ :=
    @simulate_monotone halfAboveOne .personal rfl .none (by decide +kernel)
      _ _ _ paidOnNothing
  exact
    ⟨payout, onNothing, atOne, aboveAll, paid, paidOnNothing,
      (byFigure _ _ _ _ (by decide +kernel) paid).1 (by decide +kernel),
      paidAtOne, byRate _ _ _ _ rfl (by decide +kernel) paidAtOne,
      paidAboveAll, byThreshold _ _ _ _ rfl (by decide +kernel) paidAboveAll⟩

end IncentivePay
