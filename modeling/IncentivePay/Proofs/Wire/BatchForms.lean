import IncentivePay.Proofs.Wire.RecordForms

/-!
# The JSON form of a batch

No part of the program reads a batch again, so the reader here is there to say
what is written: the identifier, the period and the times, and a line for each
outcome, with its user and either the stamped payout or the error.  Everything
is read back but a raw amount that is not finite.
-/

namespace IncentivePay

open Json

/-- A line of a batch as it is written. -/
structure WrittenLine where
  user : String
  payout? : Option StampedPayout
  error? : Option String
deriving DecidableEq

/-- A batch as it is written, with the text of its period. -/
structure WrittenBatch where
  identifier : String
  period : String
  startedAt : Instant
  finishedAt : Instant
  lines : List WrittenLine
deriving DecidableEq

/-- The line in a JSON value. -/
def WrittenLine.ofJson? (json : Json) : Option WrittenLine := do
  let fields ← json.fields? ["userId", "result", "error"]
  let user ← fields.required "userId" string?
  let payout? ← fields.optional "result" StampedPayout.ofJson?
  let error? ← fields.optional "error" string?
  some ⟨user, payout?, error?⟩

/-- The items of an array, each of which is read. -/
def Json.items?
    {Value : Type}
    (read : Json → Option Value) :
    Json →
    Option (List Value)
  | .array items => items.mapM read
  | _ => none

/-- The batch in a JSON value. -/
def WrittenBatch.ofJson? (json : Json) : Option WrittenBatch := do
  let fields ←
    json.fields? ["runId", "period", "startedAt", "finishedAt", "outcomes"]
  let identifier ← fields.required "runId" string?
  let period ← fields.required "period" string?
  let startedAt ← fields.required "startedAt" Instant.ofJson?
  let finishedAt ← fields.required "finishedAt" Instant.ofJson?
  let lines ← fields.required "outcomes" (items? WrittenLine.ofJson?)
  some ⟨identifier, period, startedAt, finishedAt, lines⟩

/-! ## Lines -/

namespace Outcome

/-- What is written of an outcome, whose payout was calculated at an instant. -/
def written
    (outcome : Outcome)
    (calculatedAt : Instant) :
    WrittenLine where
  user := outcome.user
  payout? :=
    outcome.payout?.map fun payout =>
      StampedPayout.asWritten ⟨payout, calculatedAt⟩
  error? := outcome.error?

theorem ofJson?_toJson
    {outcome : Outcome}
    (finite :
      ∀ payout ∈ outcome.payout?,
        payout.details.InputsSatisfy fun number => number.isFinite = true)
    (calculatedAt : Instant) :
    WrittenLine.ofJson? (outcome.toJson calculatedAt) =
      some (outcome.written calculatedAt) := by
  unfold WrittenLine.ofJson? toJson
  refine reads_record rfl (by decide) fun fields found => ?_
  simp only [List.forall_mem_cons] at found
  obtain ⟨user, result, error, -⟩ := found
  have payoutRead :=
    Fields.optional_map_of_get? result StampedPayout.formLaws.rejectsNull
      fun payout paid => StampedPayout.ofJson?_toJson (finite payout paid)
  simp only [stringLaws.required user trivial, payoutRead,
    stringLaws.optional error anything, bind, Option.bind_some]
  rfl

theorem isLegible_toJson
    {outcome : Outcome}
    (legible : ∀ payout ∈ outcome.payout?, payout.details.IsLegible)
    (calculatedAt : Instant) :
    (outcome.toJson calculatedAt).IsLegible := by
  have payoutLegible :
      ∀ json ∈ outcome.payout?.map fun payout =>
          StampedPayout.toJson ⟨payout, calculatedAt⟩,
        json.IsLegible := by
    intro json isJson
    obtain ⟨payout, paid, rfl⟩ := Option.map_eq_some_iff.1 isJson
    exact StampedPayout.isLegible_toJson (legible payout paid)
  apply isLegible_record
  simp only [List.forall_mem_cons]
  exact
    ⟨stringLaws.legible_some trivial, payoutLegible,
      stringLaws.legible_map anything, List.forall_mem_nil _⟩

end Outcome

/-! ## Batches -/

theorem mapM_mapIdx_eq_some
    {Value Result : Type}
    {read : Json → Option Result}
    {values : List Value}
    {write : Nat → Value → Json}
    {result : Nat → Value → Result}
    (reads :
      ∀ value ∈ values,
        ∀ place, read (write place value) = some (result place value)) :
    (values.mapIdx write).mapM read = some (values.mapIdx result) := by
  induction values generalizing write result with
  | nil => rfl
  | cons value values ih =>
      obtain ⟨here, others⟩ := List.forall_mem_cons.1 reads
      rw [List.mapIdx_cons, List.mapM_cons, here,
        ih fun other within place => others other within (place + 1),
        List.mapIdx_cons]
      rfl

namespace Batch

/-- What is written of a batch that has an identifier and its times. -/
def written
    (batch : Batch)
    (identifier : String)
    (times : Times) :
    WrittenBatch where
  identifier := identifier
  period := batch.period.text
  startedAt := times.startedAt
  finishedAt := times.finishedAt
  lines :=
    batch.outcomes.mapIdx fun place outcome =>
      outcome.written (times.calculatedAt place)

/-- The payouts of a batch were calculated from numbers with a property. -/
def InputsSatisfy
    (property : Binary64 → Prop)
    (batch : Batch) :
    Prop :=
  ∀ outcome ∈ batch.outcomes,
    ∀ payout ∈ outcome.payout?, payout.details.InputsSatisfy property

/-- The numbers of every payout can be read back from their texts. -/
def IsLegible (batch : Batch) : Prop :=
  ∀ outcome ∈ batch.outcomes,
    ∀ payout ∈ outcome.payout?, payout.details.IsLegible

variable {batch : Batch}

/-- A batch is read back from its JSON form, every line in its place. -/
theorem ofJson?_toJson
    (finite : batch.InputsSatisfy fun number => number.isFinite = true)
    (identifier : String)
    (times : Times) :
    WrittenBatch.ofJson? (batch.toJson identifier times) =
      some (batch.written identifier times) := by
  have lines :
      items? WrittenLine.ofJson?
          (.array
            (batch.outcomes.mapIdx fun place outcome =>
              outcome.toJson (times.calculatedAt place))) =
        some (batch.written identifier times).lines :=
    mapM_mapIdx_eq_some fun outcome within place =>
      Outcome.ofJson?_toJson (finite outcome within) _
  unfold WrittenBatch.ofJson? toJson
  refine reads_record rfl (by decide) fun fields found => ?_
  simp only [List.forall_mem_cons] at found
  obtain ⟨runId, period, startedAt, finishedAt, outcomes, -⟩ := found
  have periodRead : batch.period.toJson.string? = some batch.period.text := rfl
  simp only [stringLaws.required runId trivial,
    Fields.required_of_get? period periodRead,
    Instant.formLaws.required startedAt trivial,
    Instant.formLaws.required finishedAt trivial,
    Fields.required_of_get? outcomes lines, bind, Option.bind_some]
  rfl

theorem isLegible_toJson
    (legible : batch.IsLegible)
    (identifier : String)
    (times : Times) :
    (batch.toJson identifier times).IsLegible := by
  have outcomesLegible :
      (Json.array
        (batch.outcomes.mapIdx fun place outcome =>
          outcome.toJson (times.calculatedAt place))).IsLegible := by
    refine .intro trivial fun json within => ?_
    obtain ⟨place, inside, rfl⟩ := List.mem_mapIdx.1 within
    exact
      Outcome.isLegible_toJson (legible _ (List.getElem_mem inside)) _
  apply isLegible_record
  simp only [List.forall_mem_cons]
  refine
    ⟨stringLaws.legible_some trivial, Period.formLaws.legible_some trivial,
      Instant.formLaws.legible_some trivial,
      Instant.formLaws.legible_some trivial, ?_, List.forall_mem_nil _⟩
  rintro json ⟨⟩
  exact outcomesLegible

/-- A batch is read back from the text that is printed of it. -/
theorem read?_pretty
    (finite : batch.InputsSatisfy fun number => number.isFinite = true)
    (legible : batch.IsLegible)
    (identifier : String)
    (times : Times) :
    (Json.read? (batch.toJson identifier times).pretty).bind
        WrittenBatch.ofJson? =
      some (batch.written identifier times) := by
  rw [(read?_of_isLegible (isLegible_toJson legible identifier times)).2,
    Option.bind_some, ofJson?_toJson finite]

end Batch

end IncentivePay
