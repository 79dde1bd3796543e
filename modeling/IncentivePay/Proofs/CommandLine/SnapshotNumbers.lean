import IncentivePay.CommandLine.Run
import IncentivePay.Proofs.Engine.BatchLines
import IncentivePay.Proofs.Wire.BatchForms

/-!
# The numbers of a snapshot

A snapshot that was read off a file has finite numbers, so the sources that
answer from it do, and so has every calculation that they are asked for: only
the raw amount is calculated, and may be out of range.
-/

namespace IncentivePay

open Json

/-- A property holds of every number in the maps of a snapshot. -/
structure Snapshot.NumbersSatisfy
    (property : Binary64 → Prop)
    (snapshot : Snapshot) :
    Prop where
  configs :
    ∀ entry ∈ snapshot.configs, entry.2.parameters.NumbersSatisfy property
  sales :
    ∀ entry ∈ snapshot.sales,
      ∀ figure ∈ entry.2, figure.2.NumbersSatisfy property
  profiles : ∀ entry ∈ snapshot.profiles, entry.2.NumbersSatisfy property

namespace Snapshot

/-! ## Snapshots that were read -/

section Reading

variable
  {Value : Type}
  {read : Json → Option Value}
  {inside : Json → Prop}
  {holds : Value → Prop}

/-- The value of an entry is read off a value inside the dictionary. -/
theorem exists_of_mem_entries?
    {json : Json}
    {entries : List (String × Value)}
    (areEntries : entries? read json = some entries)
    {entry : String × Value}
    (member : entry ∈ entries) :
    ∃ child ∈ json.children, read child = some entry.2 := by
  obtain ⟨named, areNamed, areRead⟩ := Option.bind_eq_some_iff.1 areEntries
  obtain ⟨⟨key, child⟩, among, isEntry⟩ := exists_of_mem_mapM areRead member
  obtain ⟨value, isRead, rfl⟩ := Option.map_eq_some_iff.1 isEntry
  unfold dictionary? at areNamed
  split at areNamed
  · obtain ⟨written, within, isNamed⟩ := exists_of_mem_mapM areNamed among
    obtain ⟨same, -, pair⟩ := Option.map_eq_some_iff.1 isNamed
    obtain ⟨rfl, rfl⟩ := Prod.mk.inj pair
    exact ⟨written.2, List.mem_map_of_mem within, isRead⟩
  · contradiction

theorem establishes_entries? (establishes : Establishes inside read holds) :
    Establishes inside (entries? read) fun entries =>
      ∀ entry ∈ entries, holds entry.2 := by
  intro json entries throughout areEntries entry member
  obtain ⟨child, within, isRead⟩ := exists_of_mem_entries? areEntries member
  obtain ⟨-, below⟩ := throughout
  exact establishes child entry.2 (below child within) isRead

theorem establishes_salesByPeriod? :
    Establishes IsShortNode salesByPeriod? fun figures =>
      ∀ figure ∈ figures,
        figure.2.NumbersSatisfy fun number => number.isFinite = true := by
  intro json figures throughout areFigures figure member
  obtain ⟨entries, areEntries, areFigures⟩ :=
    Option.bind_eq_some_iff.1 areFigures
  obtain ⟨entry, within, isFigure⟩ := exists_of_mem_mapM areFigures member
  obtain ⟨period, -, rfl⟩ := Option.map_eq_some_iff.1 isFigure
  exact
    establishes_entries? Sales.formLaws.delivers json entries throughout
      areEntries entry within

theorem establishes_ofJson? :
    Establishes IsShortNode ofJson?
      (NumbersSatisfy fun number => number.isFinite = true) := by
  intro json snapshot throughout isRead
  obtain ⟨fields, areFields, isRead⟩ := Option.bind_eq_some_iff.1 isRead
  obtain ⟨configs, areConfigs, isRead⟩ := Option.bind_eq_some_iff.1 isRead
  obtain ⟨sales, areSales, isRead⟩ := Option.bind_eq_some_iff.1 isRead
  obtain ⟨profiles, areProfiles, isRead⟩ := Option.bind_eq_some_iff.1 isRead
  obtain rfl := Option.some.inj isRead
  exact
    { configs :=
        Fields.holds_of_withDefault
          (establishes_entries? Config.formLaws.delivers) throughout areFields
          (List.forall_mem_nil _) areConfigs
      sales :=
        Fields.holds_of_withDefault
          (establishes_entries? establishes_salesByPeriod?) throughout areFields
          (List.forall_mem_nil _) areSales
      profiles :=
        Fields.holds_of_withDefault
          (establishes_entries? Profile.formLaws.delivers) throughout areFields
          (List.forall_mem_nil _) areProfiles }

/-- A snapshot from a file has finite numbers. -/
theorem isFinite_of_readJson
    {surroundings : CommandLine.Surroundings}
    {path : String}
    {snapshot : Snapshot}
    (reads :
      CommandLine.readJson surroundings ofJson? path = .ok snapshot) :
    snapshot.NumbersSatisfy fun number => number.isFinite = true := by
  unfold CommandLine.readJson at reads
  split at reads
  · contradiction
  · split at reads
    · rename_i isSnapshot
      obtain rfl := Except.ok.inj reads
      obtain ⟨json, isJson, isRead⟩ := Option.bind_eq_some_iff.1 isSnapshot
      exact establishes_ofJson? json _ (hasShortIntegers_of_read? isJson) isRead
    · contradiction

end Reading

end Snapshot

/-! ## Calculations -/

/-- A property holds of every number that sources answer. -/
structure Sources.NumbersSatisfy
    (property : Binary64 → Prop)
    (sources : Sources) :
    Prop where
  configs :
    ∀ user config,
      sources.config user = .ok (some config) →
      config.parameters.NumbersSatisfy property
  sales :
    ∀ user period sales,
      sources.sales user period = .ok (some sales) →
      sales.NumbersSatisfy property
  profiles :
    ∀ user profile,
      sources.profile user = .ok profile → profile.NumbersSatisfy property

variable
  {property : Binary64 → Prop}
  {sources : Sources}
  {user : String}
  {period : Period}

theorem Profile.numbersSatisfy_empty : empty.NumbersSatisfy property := by
  refine ⟨?_, ?_, ?_⟩ <;> rintro number ⟨⟩

theorem Sales.numbersSatisfy_none (ofZero : property .zero) :
    none.NumbersSatisfy property := by
  refine ⟨ofZero, ofZero, ?_⟩
  rintro number ⟨⟩

theorem Details.inputsSatisfy_empty : empty.InputsSatisfy property := by
  refine ⟨Parameters.numbersSatisfy_empty, ?_, ?_⟩ <;> rintro given ⟨⟩

/-- A payout keeps the numbers that it was calculated from. -/
theorem Config.inputsSatisfy_payOut
    {config : Config}
    {sales? : Option Sales}
    {profile : Profile}
    (parameters : config.parameters.NumbersSatisfy property)
    (sales : (sales?.getD .none).NumbersSatisfy property)
    (ofProfile : profile.NumbersSatisfy property)
    (cache : Formula.Cache) :
    (config.payOut sales? profile cache).1.details.InputsSatisfy property := by
  have inputs (computation : Computation) :
      (config.details (sales?.getD .none) profile computation).InputsSatisfy
        property := by
    refine ⟨parameters, ?_, ?_⟩
    · rintro given ⟨⟩
      exact sales
    · intro given isGiven
      unfold details at isGiven
      dsimp only at isGiven
      split at isGiven
      · exact Option.some.inj isGiven ▸ ofProfile
      · contradiction
  have computed := inputs (config.compute (sales?.getD .none) profile cache).1
  rw [payOut_eq]
  split
  · exact computed
  · exact computed

namespace Sources.NumbersSatisfy

variable (satisfies : sources.NumbersSatisfy property)

include satisfies

theorem profileFor
    {config : Config}
    {profile : Profile}
    (known : IncentivePay.profileFor sources user config = .ok profile) :
    profile.NumbersSatisfy property := by
  unfold IncentivePay.profileFor at known
  split at known
  · exact satisfies.profiles user profile known
  · obtain rfl := Except.ok.inj known
    exact Profile.numbersSatisfy_empty

/-- A payout is calculated from the numbers of the sources, or from zeros. -/
theorem calculate
    (ofZero : property .zero)
    {cache : Formula.Cache}
    {payout : Payout}
    (paid : (IncentivePay.calculate sources user period cache).1 = .ok payout) :
    payout.details.InputsSatisfy property := by
  cases gathers : gather sources user period with
  | error error => simp [IncentivePay.calculate, gathers] at paid
  | ok gathered =>
      rcases answer_of_gather gathers with
        ⟨rfl, -⟩ | ⟨config, sales?, profile, rfl, answer⟩
      · obtain rfl : .noIncentive = payout := by
          simpa [IncentivePay.calculate, gathers] using paid
        exact Details.inputsSatisfy_empty
      · obtain rfl : (config.payOut sales? profile cache).1 = payout := by
          simpa [calculate_of_answer answer] using paid
        have sales : (sales?.getD .none).NumbersSatisfy property := by
          cases sales? with
          | none => exact Sales.numbersSatisfy_none ofZero
          | some sales => exact satisfies.sales user period sales answer.sales
        exact
          Config.inputsSatisfy_payOut
            (satisfies.configs user config answer.hasPlan.answered) sales
            (satisfies.profileFor answer.profile) cache

theorem calculateAll
    (ofZero : property .zero)
    (users : List String)
    (cache : Formula.Cache) :
    ∀ outcome ∈ (IncentivePay.calculateAll sources period users cache).1,
      ∀ payout ∈ outcome.payout?, payout.details.InputsSatisfy property := by
  induction users generalizing cache with
  | nil => exact List.forall_mem_nil _
  | cons user users ih =>
      refine List.forall_mem_cons.2 ⟨fun payout paid => ?_, ih _⟩
      apply satisfies.calculate ofZero
      exact (Outcome.payout?_eq_some_iff _).1 paid

end Sources.NumbersSatisfy

end IncentivePay
