import IncentivePay.Proofs.Binary64.Boundedness
import IncentivePay.Proofs.Payout.LimitBounds
import IncentivePay.Payout.Template

/-!
# Template rules stay finite

A rule has the numbers that the parameters of its type give.  With parameters
in their ranges, a rule makes a finite raw amount of a finite sales figure:
the rate is a fraction, and the threshold is not negative, so the excess over
it is not larger than the figure.
-/

namespace IncentivePay

namespace Template

/-- A rule has the numbers that the parameters give. -/
def HasNumbersOf
    (rule : Template)
    (parameters : Parameters) :
    Prop :=
  match rule with
  | .percent _ rate => parameters.rate = some rate
  | .excess _ threshold rate =>
      parameters.threshold = some threshold ∧ parameters.rate = some rate

theorem eq_some_of_require
    {planType : PlanType}
    {requirement : Requirement}
    {value? : Option Binary64}
    {value : Binary64}
    (required : require planType requirement value? = .ok value) :
    value? = some value := by
  cases value? with
  | none => simp [require] at required
  | some other => simpa [require] using required

theorem exists_of_percentOf
    {planType : PlanType}
    {basis : Basis}
    {parameters : Parameters}
    {rule : Template}
    (made : percentOf planType basis parameters = .ok rule) :
    ∃ rate, rule = .percent basis rate ∧ parameters.rate = some rate := by
  unfold percentOf at made
  cases rateGiven : require planType .rate parameters.rate with
  | error error => simp [rateGiven, bind, Except.bind] at made
  | ok rate =>
      simp only [rateGiven, bind, Except.bind, Except.ok.injEq] at made
      exact ⟨rate, made.symm, eq_some_of_require rateGiven⟩

theorem exists_of_excessOf
    {planType : PlanType}
    {basis : Basis}
    {parameters : Parameters}
    {rule : Template}
    (made : excessOf planType basis parameters = .ok rule) :
    ∃ threshold rate,
      rule = .excess basis threshold rate ∧
        parameters.threshold = some threshold ∧
        parameters.rate = some rate := by
  unfold excessOf at made
  cases thresholdGiven :
      require planType .threshold parameters.threshold with
  | error error => simp [thresholdGiven, bind, Except.bind] at made
  | ok threshold =>
      cases rateGiven : require planType .rate parameters.rate with
      | error error =>
          simp [thresholdGiven, rateGiven, bind, Except.bind] at made
      | ok rate =>
          simp only [thresholdGiven, rateGiven, bind, Except.bind,
            Except.ok.injEq] at made
          exact
            ⟨threshold, rate, made.symm, eq_some_of_require thresholdGiven,
              eq_some_of_require rateGiven⟩

/-- The rule of a type belongs to it and has the numbers of the parameters. -/
theorem planType_and_numbers_of_ofParameters
    {planType : PlanType}
    {parameters : Parameters}
    {rule : Template}
    (made : ofParameters planType parameters = .ok rule) :
    rule.planType = planType ∧ rule.HasNumbersOf parameters := by
  cases planType with
  | personalPercent | totalPercent =>
      obtain ⟨rate, rfl, rateGiven⟩ := exists_of_percentOf made
      exact ⟨rfl, rateGiven⟩
  | personalExcess | totalExcess =>
      obtain ⟨threshold, rate, rfl, given⟩ := exists_of_excessOf made
      exact ⟨rfl, given⟩
  | custom => simp [ofParameters] at made
  | noPlan => simp [ofParameters] at made

/--
A rule with numbers in their ranges makes a finite amount of a finite figure.
-/
theorem isFinite_rawAmount
    {rule : Template}
    {parameters : Parameters}
    {sales : Sales}
    (inRange : parameters.rangeViolations = [])
    (hasNumbers : rule.HasNumbersOf parameters)
    (isFinite : (rule.basis.figure sales).isFinite = true) :
    (rule.rawAmount sales).isFinite = true := by
  cases rule with
  | percent basis rate =>
      obtain ⟨nonnegative, atMostOne⟩ := Parameters.rate_between inRange hasNumbers
      exact Binary64.isFinite_multiply isFinite nonnegative atMostOne
  | excess basis threshold rate =>
      obtain ⟨thresholdGiven, rateGiven⟩ := hasNumbers
      obtain ⟨nonnegative, atMostOne⟩ := Parameters.rate_between inRange rateGiven
      have bounded :
          (basis.figure sales).subtract threshold ≠ Binary64.infinity :=
        Binary64.subtract_ne_infinity isFinite
          (Parameters.threshold_nonneg inRange thresholdGiven)
      exact
        Binary64.isFinite_multiply
          (Binary64.isFinite_maxPresent_zero bounded) nonnegative atMostOne

end Template

end IncentivePay
