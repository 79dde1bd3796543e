import IncentivePay.Proofs.CommandLine.SnapshotNumbers
import IncentivePay.Proofs.Engine.StoredEntries

/-!
# The batch of a snapshot

A snapshot is a collection of maps, and nothing says in which order the entries
of a map are put into a store.  It makes no difference: the store answers with
the entries of the maps, and a batch from the command line is the batch of the
engine over such a store, whichever order it was filled in.  What is printed
of the batch can be read back.
-/

namespace IncentivePay

open Store

namespace Snapshot

variable
  {snapshot : Snapshot}
  {store other : Store}
  {entries : List Entry}

/-! ## The maps of a snapshot -/

/-- The configuration of a user. -/
def config?
    (snapshot : Snapshot)
    (user : String) :
    Option Config :=
  Register.lastUnder user snapshot.configs

/-- The sales of a user in a period. -/
def sales?
    (snapshot : Snapshot)
    (user : String)
    (period : Period) :
    Option Sales :=
  (Register.lastUnder user snapshot.sales).bind (Register.lastUnder period)

/-- The profile of a user. -/
def profile?
    (snapshot : Snapshot)
    (user : String) :
    Option Profile :=
  Register.lastUnder user snapshot.profiles

/-- The maps have the entry. -/
def Has (snapshot : Snapshot) : (entry : Entry) → Prop
  | .configOf user config => snapshot.config? user = some config
  | .salesOf user period sales => snapshot.sales? user period = some sales
  | .profileOf user profile => snapshot.profile? user = some profile

/-- The list has the entries of the maps and no others, in some order. -/
def IsOrdered
    (snapshot : Snapshot)
    (entries : List Entry) :
    Prop :=
  ∀ entry, entry ∈ entries ↔ snapshot.Has entry

/-- The entries as they stand in the lists, replaced ones included. -/
def written (snapshot : Snapshot) : List Entry :=
  snapshot.configs.map (fun entry => .configOf entry.1 entry.2) ++
    snapshot.sales.flatMap (fun entry =>
      entry.2.map fun figure => .salesOf entry.1 figure.1 figure.2) ++
    snapshot.profiles.map (fun entry => .profileOf entry.1 entry.2)

theorem mem_written_of_has
    {entry : Entry}
    (has : snapshot.Has entry) :
    entry ∈ snapshot.written := by
  simp only [written, List.mem_append, List.mem_map, List.mem_flatMap]
  cases entry with
  | configOf user config =>
      exact .inl (.inl ⟨(user, config), Register.mem_of_lastUnder has, rfl⟩)
  | salesOf user period sales =>
      obtain ⟨figures, ofUser, inPeriod⟩ := Option.bind_eq_some_iff.1 has
      exact
        .inl (.inr
          ⟨(user, figures), Register.mem_of_lastUnder ofUser,
            (period, sales), Register.mem_of_lastUnder inPeriod, rfl⟩)
  | profileOf user profile =>
      exact .inr ⟨(user, profile), Register.mem_of_lastUnder has, rfl⟩

/-- The entries of every snapshot have an order. -/
theorem exists_isOrdered (snapshot : Snapshot) :
    ∃ entries, snapshot.IsOrdered entries := by
  classical
  refine ⟨snapshot.written.filter fun entry => snapshot.Has entry, ?_⟩
  intro entry
  rw [List.mem_filter, decide_eq_true_eq]
  exact ⟨And.right, fun has => ⟨mem_written_of_has has, has⟩⟩

/-! ## The stores of a snapshot -/

/-- The store answers with the entries of the maps and nothing else. -/
structure KeptBy
    (snapshot : Snapshot)
    (store : Store) :
    Prop where
  configs : ∀ user, store.configs.get? user = snapshot.config? user
  sales :
    ∀ user period, store.sales.get? (user, period) = snapshot.sales? user period
  profiles : ∀ user, store.profiles.get? user = snapshot.profile? user
  nodup : store.configs.keys.Nodup

theorem keptBy_ofEntries (ordered : snapshot.IsOrdered entries) :
    snapshot.KeptBy (ofEntries entries) where
  configs user :=
    @lookUp_ofEntries _ (fun store => store.configs.get? user) _ _ _ _
      (get?_configs_put user) rfl (Entry.config?_eq_some_iff user)
      fun config => ordered (.configOf user config)
  sales user period :=
    @lookUp_ofEntries _ (fun store => store.sales.get? (user, period)) _ _ _ _
      (get?_sales_put user period) rfl (Entry.sales?_eq_some_iff user period)
      fun sales => ordered (.salesOf user period sales)
  profiles user :=
    @lookUp_ofEntries _ (fun store => store.profiles.get? user) _ _ _ _
      (get?_profiles_put user) rfl (Entry.profile?_eq_some_iff user)
      fun profile => ordered (.profileOf user profile)
  nodup := nodup_keys_ofEntries entries

theorem lastUnder_figures
    (user other : String)
    (period : Period)
    (figures : List (Period × Sales)) :
    Register.lastUnder (user, period)
      (figures.map fun figure => ((other, figure.1), figure.2)) =
      if user = other then Register.lastUnder period figures else none := by
  unfold Register.lastUnder
  rw [List.filterMap_map]
  simp only [Function.comp_def, Prod.mk.injEq]
  split
  · rename_i same
    simp only [same, true_and]
  · rename_i different
    simp [different]

theorem any_user_iff
    (user : String)
    (sales : List (String × List (Period × Sales))) :
    (sales.any fun later => later.1 = user) = true ↔
      Register.lastUnder user sales ≠ none := by
  rw [Ne, Register.lastUnder_eq_none_iff]
  simp [@eq_comm _ user]

/--
The entries of the last sales of each user, under the user and the period.
-/
theorem lastUnder_lastEntries
    (sales : List (String × List (Period × Sales)))
    (user : String)
    (period : Period) :
    Register.lastUnder (user, period)
      ((lastEntries sales).flatMap fun entry =>
        entry.2.map fun figure => ((entry.1, figure.1), figure.2)) =
      (Register.lastUnder user sales).bind (Register.lastUnder period) := by
  induction sales with
  | nil => rfl
  | cons entry sales ih =>
      rw [lastEntries, Register.lastUnder_cons]
      split
      · rename_i isShadowed
        rw [ih]
        split
        · rename_i same
          obtain ⟨figures, later⟩ :=
            Option.ne_none_iff_exists'.1 ((any_user_iff _ sales).1 isShadowed)
          rw [same, later, Option.some_or]
        · rw [Option.or_none]
      · rename_i isLast
        rw [List.flatMap_cons, Register.lastUnder_append, ih, lastUnder_figures]
        split
        · rename_i same
          rw [any_user_iff, Classical.not_not] at isLast
          rw [same, isLast, Option.none_or, Option.bind_none, Option.none_or,
            Option.bind_some]
        · rw [Option.or_none, Option.or_none]

theorem keptBy_store (snapshot : Snapshot) :
    snapshot.KeptBy snapshot.store where
  configs := Register.get?_ofList snapshot.configs
  sales user period :=
    (Register.get?_ofList _ (user, period)).trans
      (lastUnder_lastEntries snapshot.sales user period)
  profiles := Register.get?_ofList snapshot.profiles
  nodup := Register.nodup_keys_ofList snapshot.configs

namespace KeptBy

theorem sources_eq
    (kept : snapshot.KeptBy store)
    (keptToo : snapshot.KeptBy other) :
    store.sources = other.sources := by
  unfold sources activeConfig
  simp only [kept.configs, kept.sales, kept.profiles, keptToo.configs,
    keptToo.sales, keptToo.profiles]

/-- The sources of the store have the numbers of the maps. -/
theorem numbersSatisfy
    {property : Binary64 → Prop}
    (kept : snapshot.KeptBy store)
    (satisfies : snapshot.NumbersSatisfy property) :
    store.sources.NumbersSatisfy property where
  configs user config answered := by
    obtain ⟨found, -⟩ :=
      Option.filter_eq_some_iff.1 (Except.ok.inj answered)
    rw [kept.configs] at found
    exact satisfies.configs _ (Register.mem_of_lastUnder found)
  sales user period sales answered := by
    have found := Except.ok.inj answered
    rw [kept.sales] at found
    obtain ⟨figures, ofUser, inPeriod⟩ := Option.bind_eq_some_iff.1 found
    exact
      satisfies.sales _ (Register.mem_of_lastUnder ofUser) _
        (Register.mem_of_lastUnder inPeriod)
  profiles user profile answered := by
    obtain rfl := Except.ok.inj answered
    cases found : store.profiles.get? user with
    | none => exact Profile.numbersSatisfy_empty
    | some known =>
        rw [kept.profiles] at found
        exact satisfies.profiles _ (Register.mem_of_lastUnder found)

theorem mem_users_iff
    (kept : snapshot.KeptBy store)
    (user : String) :
    user ∈ store.users ↔ snapshot.config? user ≠ none := by
  rw [store.mem_users_iff, kept.configs]

theorem users_eq
    (kept : snapshot.KeptBy store)
    (keptToo : snapshot.KeptBy other) :
    store.users = other.users :=
  users_eq_of_mem_iff kept.nodup keptToo.nodup fun user => by
    rw [kept.mem_users_iff, keptToo.mem_users_iff]

end KeptBy

/-! ## The batch -/

theorem map_user_calculateAll
    (sources : Sources)
    (period : Period)
    (users : List String)
    (cache : Formula.Cache) :
    (calculateAll sources period users cache).1.map Outcome.user = users := by
  induction users generalizing cache with
  | nil => rfl
  | cons user users ih => exact congrArg (user :: ·) (ih _)

open CommandLine

/-- With JSON for an output format, the batch of the engine is printed. -/
theorem run_batch
    {surroundings : Surroundings}
    {settings : Settings}
    {settingsPath : Option String}
    {path : String}
    (loads : loadSettings surroundings settingsPath = .ok settings)
    (reads : readJson surroundings ofJson? path = .ok snapshot)
    (kept : snapshot.KeptBy store)
    (period : Period)
    (users : List String) :
    Invocation.run surroundings
        ⟨settingsPath, .json, .batch path period users⟩ =
      ⟨0,
        .json
          ((calculateBatch store.sources
              (if users = [] then store.users else users) period
              (.ofCapacity settings.formulaCacheCapacity.toNat)).1.toJson
            surroundings.identifier surroundings.times),
        none⟩ := by
  unfold Invocation.run
  simp only [loads, perform, reads, bind, Except.bind, List.isEmpty_iff,
    snapshot.keptBy_store.sources_eq kept, snapshot.keptBy_store.users_eq kept]

/--
A store that is filled with the entries of a snapshot, in whichever order,
answers each question with what the maps have, and lists the users that have a
configuration, each once and in the order of their bytes.

A batch from the command line prints a JSON value, from which the batch of the
engine over this store is read back: for the users that were named, as often
and in the order in which they were, or else for those that the store lists.
Each line has the user and the payout or the error, and the instant of the
payout.  The batch is also read back from the printed text, when the texts of
its numbers are.
-/
theorem run_batch_exact
    (snapshot : Snapshot)
    (entries : List Entry)
    (ordered : snapshot.IsOrdered entries) :
    let store := ofEntries entries
    (∀ user, store.configs.get? user = snapshot.config? user) ∧
      (∀ user,
        store.sources.config user =
          .ok ((snapshot.config? user).filter fun config => config.isActive)) ∧
      (∀ user period,
        store.sources.sales user period = .ok (snapshot.sales? user period)) ∧
      (∀ user,
        store.sources.profile user =
          .ok ((snapshot.profile? user).getD .empty)) ∧
      (∀ user, user ∈ store.users ↔ snapshot.config? user ≠ none) ∧
      (store.users.Pairwise fun first second =>
        utf8Bytes first < utf8Bytes second) ∧
      ∀ (surroundings : Surroundings) (settings : Settings)
        (settingsPath : Option String) (path : String),
        loadSettings surroundings settingsPath = .ok settings →
        readJson surroundings Snapshot.ofJson? path = .ok snapshot →
        ∀ (period : Period) (users : List String),
          let listed := if users = [] then store.users else users
          let batch :=
            (calculateBatch store.sources listed period
              (.ofCapacity settings.formulaCacheCapacity.toNat)).1
          let written : WrittenBatch :=
            { identifier := surroundings.identifier
              period := period.text
              startedAt := surroundings.times.startedAt
              finishedAt := surroundings.times.finishedAt
              lines :=
                batch.outcomes.mapIdx fun place outcome =>
                  outcome.written (surroundings.times.calculatedAt place) }
          batch.outcomes.map Outcome.user = listed ∧
            ∃ printed : Json,
              Invocation.run surroundings
                  ⟨settingsPath, .json, .batch path period users⟩ =
                  ⟨0, .json printed, none⟩ ∧
                WrittenBatch.ofJson? printed = some written ∧
                (batch.IsLegible →
                  (Json.read? printed.pretty).bind WrittenBatch.ofJson? =
                    some written) := by
  intro store
  have kept : snapshot.KeptBy store := keptBy_ofEntries ordered
  refine
    ⟨kept.configs, fun user => ?_, fun user period => ?_, fun user => ?_,
      kept.mem_users_iff, users_pairwise_lt kept.nodup, ?_⟩
  · simp only [sources, activeConfig, kept.configs]
  · simp only [sources, kept.sales]
  · simp only [sources, kept.profiles]
  · intro surroundings settings settingsPath path loads reads period users
      listed batch written
    have finite :
        batch.InputsSatisfy fun number => number.isFinite = true :=
      (kept.numbersSatisfy (isFinite_of_readJson reads)).calculateAll
        (by decide) listed _
    exact
      ⟨map_user_calculateAll store.sources period listed _, _,
        run_batch loads reads kept period users, Batch.ofJson?_toJson finite _ _,
        fun legible => Batch.read?_pretty finite legible _ _⟩

/-- The JSON form of a plan without a formula. -/
def planJson (isActive : Bool) : Json :=
  .record
    [("type", some (.ofString "CUSTOM")), ("isActive", some (.boolean isActive))]

/-- A plan without a formula. -/
def plan (isActive : Bool) : Config where
  planType := .custom
  parameters := .empty
  customFormula := none
  isActive := isActive
  effectiveDate := none
  lastModified := none
  modifiedBy := none

/-- Plans of two users, one replaced and one inactive. -/
def plansJson : Json :=
  .record
    [("bob", some (planJson false)), ("ada", some (planJson false)),
     ("ada", some (planJson true))]

/-- Sales of a third user. -/
def figuresJson : Json :=
  .record [("personal", some (.integer 1)), ("total", some (.integer 2))]

/-- A snapshot of the plans and the sales. -/
def threeUsersJson : Json :=
  .record
    [("configs", some plansJson),
     ("sales",
      some (.record [("cleo", some (.record [("2024-3", some figuresJson)]))]))]

theorem isLegible_threeUsersJson : threeUsersJson.IsLegible := by
  have number {value : Int} (isShort : Json.IsShortInteger value) :
      (Json.integer value).IsLegible :=
    .of_scalar isShort rfl
  have plan (isActive : Bool) : (planJson isActive).IsLegible :=
    Json.isLegible_record (by
      simpa [Json.isLegible_ofString] using .of_scalar trivial rfl)
  have plans : plansJson.IsLegible := Json.isLegible_record (by simp [plan])
  have figures : figuresJson.IsLegible :=
    Json.isLegible_record (by
      simpa using
        ⟨number ⟨by decide, by decide⟩, number ⟨by decide, by decide⟩⟩)
  have byPeriod : (Json.record [("2024-3", some figuresJson)]).IsLegible :=
    Json.isLegible_record (by simpa using figures)
  have byUser :=
    @Json.isLegible_record
      [("cleo", some (.record [("2024-3", some figuresJson)]))]
      (by simpa using byPeriod)
  exact Json.isLegible_record (by simpa using ⟨plans, byUser⟩)

/-- The instant from which clocks count. -/
def atEpoch : Instant :=
  ⟨.epoch, 0, 0, by decide, by decide⟩

/-- The plan of Bob is inactive and listed, and Cleo has no plan. -/
theorem run_batch_exact_inactiveBob :
    let march : Period := ⟨2024, 3, by decide, by decide, by decide⟩
    let surroundings : Surroundings :=
      ⟨fun _ => .ok threeUsersJson.compact, fun _ => none, "run",
        ⟨atEpoch, atEpoch, fun _ => atEpoch⟩⟩
    let unpaid : Payout :=
      ⟨0, .custom,
        { (plan true).details .none .empty (.stopped (.ok 0)) with
          salesAssumedZero := true
          error := some (CalculationError.message
            (.invalidParameters [.missingFormula])) }⟩
    ∃ printed,
      (Invocation.run surroundings
        ⟨none, .json, .batch "snapshot.json" march []⟩).output =
          .json printed ∧
        WrittenBatch.ofJson? printed =
          some
            ⟨"run", "2024-03", atEpoch, atEpoch,
              [⟨"ada", some ⟨unpaid, atEpoch⟩, none⟩,
                ⟨"bob", some ⟨.noIncentive, atEpoch⟩, none⟩]⟩ := by
  intro march surroundings unpaid
  let sales : Sales := ⟨.ofInt 1, .ofInt 2, none⟩
  let entries : List Entry :=
    [.salesOf "cleo" march sales, .configOf "ada" (plan true),
      .configOf "bob" (plan false)]
  let snapshot : Snapshot :=
    ⟨[("bob", plan false), ("ada", plan false), ("ada", plan true)],
     [("cleo", [(march, sales)])], []⟩
  have ordered : snapshot.IsOrdered entries := by
    intro entry
    constructor
    · intro member
      simp only [entries, List.mem_cons, List.not_mem_nil, or_false] at member
      rcases member with rfl | rfl | rfl <;> rfl
    · intro has
      -- The plan of Ada that was replaced is no entry of the maps.
      have among := mem_written_of_has has
      simp only [written, snapshot, List.map_cons, List.map_nil,
        List.flatMap_cons, List.flatMap_nil, List.append_nil,
        List.mem_append, List.mem_cons, List.not_mem_nil, or_false] at among
      rcases among with (rfl | rfl | rfl) | rfl
      · simp [entries]
      · exact
          absurd (Option.some.inj has) (by decide : plan true ≠ plan false)
      · simp [entries]
      · simp [entries]
  have reads :
      readJson surroundings Snapshot.ofJson? "snapshot.json" =
        .ok snapshot := by
    simp only [readJson, surroundings]
    rw [(Json.read?_of_isLegible isLegible_threeUsersJson).1]
    rfl
  obtain ⟨-, printed, ends, isWritten, -⟩ :=
    (run_batch_exact snapshot entries ordered).2.2.2.2.2.2 surroundings _ none
      "snapshot.json" rfl reads march []
  have listed : (ofEntries entries).users = ["ada", "bob"] := by
    have keys : (ofEntries entries).configs.keys = ["bob", "ada"] := rfl
    simp [users, keys, List.mergeSort]
  refine ⟨printed, congrArg Ending.output ends, isWritten.trans ?_⟩
  rw [if_pos rfl, listed]
  decide +kernel

end Snapshot

end IncentivePay
