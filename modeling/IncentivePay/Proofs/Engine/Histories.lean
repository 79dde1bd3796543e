import IncentivePay.Engine.Session
import IncentivePay.Proofs.Engine.Refinement

/-!
# Histories

What a calculation answers depends on a history through three values only: the
configuration that was put last for the user, the sales that were put last for
the user and the period, and the profile that was put last for the user.  What
a history did for others, what it previewed, validated or looked up, and how
much its cache has room for, make no difference.

A session keeps two things from its start on: its sources answer from its
store, and its cache holds trees of the texts that its commands named.  The
first is why the last writes decide what is gathered, and the second is why
the cache does not decide anything.
-/

namespace IncentivePay

open Formula

/-! ## What a history wrote -/

/-- The command makes a source answer something else than what is stored. -/
def Command.isRehearsal : Command → Bool
  | .presentConfig _ _ => true
  | .fail _ _ _ => true
  | .recover _ _ => true
  | _ => false

/-- The text of the formula that a command names. -/
def Command.formula? : Command → Option String
  | .putConfig _ config => config.formula?
  | .presentConfig _ config => config.formula?
  | .simulate config _ _ => config.formula?
  | .validate config => config.formula?
  | .validateFormula formula _ => some formula
  | .lookUpFormula formula => some formula
  | .parseFormula formula => some formula
  | _ => none

/-- The texts of the formulas that a history names. -/
def formulasOf (commands : List Command) : List String :=
  commands.filterMap Command.formula?

/-- The configuration that a command puts for a user. -/
def Command.configFor?
    (user : String) :
    Command →
    Option Config
  | .putConfig written config => if user = written then some config else none
  | _ => none

/-- The sales that a command puts for a user and a period. -/
def Command.salesFor?
    (user : String)
    (period : Period) :
    Command →
    Option Sales
  | .putSales written during sales =>
      if (user, period) = (written, during) then some sales else none
  | _ => none

/-- The profile that a command puts for a user. -/
def Command.profileFor?
    (user : String) :
    Command →
    Option Profile
  | .putProfile written profile => if user = written then some profile else none
  | _ => none

/-- The last value that the commands of a history wrote. -/
def lastOf
    {Value : Type}
    (written : Command → Option Value)
    (commands : List Command) :
    Option Value :=
  (commands.filterMap written).getLast?

theorem lastOf_cons
    {Value : Type}
    (written : Command → Option Value)
    (command : Command)
    (commands : List Command) :
    lastOf written (command :: commands) =
      (lastOf written commands).or (written command) :=
  Register.getLast?_filterMap_cons written command commands

namespace Session

/--
What every step keeps unless it writes is, after a run, what was written last.
-/
theorem lookUp_run
    {Value : Type}
    {lookUp : Session → Option Value}
    {written : Command → Option Value}
    (lookUp_step :
      ∀ session command,
        lookUp (session.step command).2 =
          (written command).or (lookUp session))
    (session : Session)
    (commands : List Command) :
    lookUp (session.run commands).2 =
      (lastOf written commands).or (lookUp session) := by
  induction commands generalizing session with
  | nil => rfl
  | cons command commands ih =>
      calc
        lookUp (session.run (command :: commands)).2
        _ = lookUp ((session.step command).2.run commands).2 := rfl
        _ = (lastOf written commands).or (lookUp (session.step command).2) :=
          ih _
        _ = (lastOf written (command :: commands)).or (lookUp session) := by
          rw [lookUp_step, lastOf_cons, Option.or_assoc]

theorem config_step
    (user : String)
    (session : Session)
    (command : Command) :
    (session.step command).2.store.configs.get? user =
      (command.configFor? user).or (session.store.configs.get? user) := by
  cases command with
  | putConfig written config =>
      exact Register.get?_insert session.store.configs written user config
  | _ => rfl

theorem config_run
    (user : String)
    (session : Session)
    (commands : List Command) :
    (session.run commands).2.store.configs.get? user =
      (lastOf (Command.configFor? user) commands).or
        (session.store.configs.get? user) :=
  @lookUp_run _ (fun session => session.store.configs.get? user) _
    (config_step user) session commands

theorem sales_step
    (user : String)
    (period : Period)
    (session : Session)
    (command : Command) :
    (session.step command).2.store.sales.get? (user, period) =
      (command.salesFor? user period).or
        (session.store.sales.get? (user, period)) := by
  cases command with
  | putSales written during sales =>
      exact
        Register.get?_insert session.store.sales (written, during)
          (user, period) sales
  | _ => rfl

theorem sales_run
    (user : String)
    (period : Period)
    (session : Session)
    (commands : List Command) :
    (session.run commands).2.store.sales.get? (user, period) =
      (lastOf (Command.salesFor? user period) commands).or
        (session.store.sales.get? (user, period)) :=
  @lookUp_run _ (fun session => session.store.sales.get? (user, period)) _
    (sales_step user period) session commands

theorem profile_step
    (user : String)
    (session : Session)
    (command : Command) :
    (session.step command).2.store.profiles.get? user =
      (command.profileFor? user).or (session.store.profiles.get? user) := by
  cases command with
  | putProfile written profile =>
      exact Register.get?_insert session.store.profiles written user profile
  | _ => rfl

theorem profile_run
    (user : String)
    (session : Session)
    (commands : List Command) :
    (session.run commands).2.store.profiles.get? user =
      (lastOf (Command.profileFor? user) commands).or
        (session.store.profiles.get? user) :=
  @lookUp_run _ (fun session => session.store.profiles.get? user) _
    (profile_step user) session commands

theorem hasProfiles_run
    (session : Session)
    (commands : List Command) :
    (session.run commands).2.hasProfiles = session.hasProfiles := by
  induction commands generalizing session with
  | nil => rfl
  | cons command commands ih =>
      calc
        (session.run (command :: commands)).2.hasProfiles
        _ = (session.step command).2.hasProfiles := ih _
        _ = session.hasProfiles := by cases command <;> rfl

end Session

/-! ## What a calculation leaves in the cache -/

variable
  {sources other : Sources}
  {user : String}
  {period : Period}
  {cache otherCache : Cache}
  {texts : List String}

theorem holdsTreesOf_calculate
    (holds : cache.HoldsTreesOf texts)
    (planned :
      ∀ config,
        sources.HasPlan user config →
        config.planType = .custom →
        config.HasFormulaIn texts) :
    (calculate sources user period cache).2.HoldsTreesOf texts := by
  unfold calculate
  cases gathers : gather sources user period with
  | error error => exact holds
  | ok gathered =>
      rcases answer_of_gather gathers with
        ⟨rfl, -⟩ | ⟨config, sales?, profile, rfl, answer⟩
      · exact holds
      · exact
          Config.holdsTreesOf_payOut holds (planned config answer.hasPlan)
            sales?

theorem holdsTreesOf_calculateAll
    (holds : cache.HoldsTreesOf texts)
    (users : List String)
    (planned :
      ∀ user ∈ users, ∀ config,
        sources.HasPlan user config →
        config.planType = .custom →
        config.HasFormulaIn texts) :
    (calculateAll sources period users cache).2.HoldsTreesOf texts := by
  induction users generalizing cache with
  | nil => exact holds
  | cons user users ih =>
      rw [List.forall_mem_cons] at planned
      exact ih (holdsTreesOf_calculate holds planned.1) planned.2

/-! ## What a calculation depends on -/

/-- Two sources answer the same about a user and a period. -/
structure Sources.AgreesOn
    (sources other : Sources)
    (user : String)
    (period : Period) :
    Prop where
  config : sources.config user = other.config user
  sales : sources.sales user period = other.sales user period
  profile : sources.profile user = other.profile user

theorem gather_congr (agrees : sources.AgreesOn other user period) :
    gather sources user period = gather other user period := by
  simp only [gather, plannedConfig?, profileFor, agrees.config, agrees.sales,
    agrees.profile]

/-- Caches that answer as the parser does make no difference. -/
theorem calculate_eq_of_isRead
    (isRead :
      ∀ config,
        sources.HasPlan user config →
        config.planType = .custom →
        config.IsReadBy cache)
    (isReadToo :
      ∀ config,
        sources.HasPlan user config →
        config.planType = .custom →
        config.IsReadBy otherCache) :
    (calculate sources user period cache).1 =
      (calculate sources user period otherCache).1 := by
  cases gathers : gather sources user period with
  | error error => simp [calculate, gathers]
  | ok gathered =>
      rcases answer_of_gather gathers with
        ⟨rfl, -⟩ | ⟨config, sales?, profile, rfl, answer⟩
      · simp [calculate, gathers]
      · have computed :
            (config.compute (sales?.getD .none) profile cache).1 =
              (config.compute (sales?.getD .none) profile otherCache).1 :=
          Config.compute_congr answer.hasPlan.planned
            (isReadToo config answer.hasPlan) (isRead config answer.hasPlan)
            fun _ => rfl
        have paid :
            (config.payOut sales? profile cache).1 =
              (config.payOut sales? profile otherCache).1 := by
          rw [Config.payOut_eq, Config.payOut_eq, computed]
        simp [calculate, gathers, paid]

/-- Sources that answer the same, and caches that answer as the parser does. -/
theorem calculate_congr
    (agrees : sources.AgreesOn other user period)
    (isRead :
      ∀ config, sources.HasPlan user config → config.IsReadBy cache)
    (isReadToo :
      ∀ config, other.HasPlan user config → config.IsReadBy otherCache) :
    (calculate sources user period cache).1 =
      (calculate other user period otherCache).1 := by
  calc
    (calculate sources user period cache).1
    _ = (calculate sources user period otherCache).1 := by
      apply calculate_eq_of_isRead
      · exact fun config hasPlan _ => isRead config hasPlan
      · intro config hasPlan _
        apply isReadToo
        exact
          { hasPlan with answered := agrees.config ▸ hasPlan.answered }
    _ = (calculate other user period otherCache).1 := by
      simp only [calculate, gather_congr agrees]

/-! ## What a session keeps -/

/--
The sources answer from the store, and only trees of some texts are cached.
-/
structure Session.IsPlain
    (session : Session)
    (texts : List String) :
    Prop where
  presented : session.presented = .empty
  failures : session.failures = .empty
  holds : session.cache.HoldsTreesOf texts
  stored :
    ∀ user config,
      session.store.configs.get? user = some config →
      config.HasFormulaIn texts

namespace Session.IsPlain

variable {session : Session}

theorem start
    (settings : Settings)
    (hasProfiles : Bool)
    (texts : List String) :
    (Session.start settings hasProfiles).IsPlain texts where
  presented := rfl
  failures := rfl
  holds := Cache.holdsTreesOf_ofCapacity texts _
  stored := by
    intro user config isStored
    simp [Session.start, Store.empty] at isStored

theorem config_sources
    (isPlain : session.IsPlain texts)
    (user : String) :
    session.sources.config user = session.store.sources.config user := by
  simp [sources, answerUnlessFailed, isPlain.presented, isPlain.failures]

theorem sales_sources
    (isPlain : session.IsPlain texts)
    (user : String)
    (period : Period) :
    session.sources.sales user period =
      session.store.sources.sales user period := by
  simp [sources, answerUnlessFailed, isPlain.failures]

theorem profile_sources
    (isPlain : session.IsPlain texts)
    (user : String) :
    session.sources.profile user =
      if session.hasProfiles then session.store.sources.profile user
      else .ok .empty := by
  simp [sources, answerUnlessFailed, isPlain.failures]

theorem hasFormulaIn_of_hasPlan
    (isPlain : session.IsPlain texts)
    {config : Config}
    (hasPlan : session.sources.HasPlan user config) :
    config.HasFormulaIn texts := by
  have active : session.store.activeConfig user = some config :=
    Except.ok.inj ((isPlain.config_sources user).symm.trans hasPlan.answered)
  exact isPlain.stored user config (Option.filter_eq_some_iff.1 active).1

theorem withCache
    (isPlain : session.IsPlain texts)
    (holds : cache.HoldsTreesOf texts) :
    { session with cache := cache }.IsPlain texts :=
  ⟨isPlain.presented, isPlain.failures, holds, isPlain.stored⟩

theorem putConfig
    (isPlain : session.IsPlain texts)
    (user : String)
    {config : Config}
    (hasFormula : config.HasFormulaIn texts) :
    { session with store := session.store.putConfig user config }.IsPlain
      texts where
  presented := isPlain.presented
  failures := isPlain.failures
  holds := isPlain.holds
  stored := by
    intro owner stored isStored
    rw [Store.putConfig, Register.get?_insert] at isStored
    split at isStored
    · obtain rfl : config = stored := by simpa using isStored
      exact hasFormula
    · exact isPlain.stored owner stored (by simpa using isStored)

/-- A command on the texts leaves a session plain. -/
theorem step
    (isPlain : session.IsPlain texts)
    (command : Command)
    (notRehearsal : command.isRehearsal = false)
    (among : ∀ formula, command.formula? = some formula → formula ∈ texts) :
    (session.step command).2.IsPlain texts := by
  have holds := isPlain.holds
  -- A command caches the formula it names or one that is stored, no other.
  cases command with
  | putConfig user config => exact isPlain.putConfig user among
  | presentConfig user config => simp [Command.isRehearsal] at notRehearsal
  | putSales user period sales =>
      exact
        ⟨isPlain.presented, isPlain.failures, isPlain.holds, isPlain.stored⟩
  | putProfile user profile =>
      exact
        ⟨isPlain.presented, isPlain.failures, isPlain.holds, isPlain.stored⟩
  | fail user subject error => simp [Command.isRehearsal] at notRehearsal
  | recover user subject => simp [Command.isRehearsal] at notRehearsal
  | calculate user period =>
      apply isPlain.withCache
      exact
        holdsTreesOf_calculate holds fun _ hasPlan _ =>
          isPlain.hasFormulaIn_of_hasPlan hasPlan
  | batch users period =>
      apply isPlain.withCache
      exact
        holdsTreesOf_calculateAll holds users fun _ _ _ hasPlan _ =>
          isPlain.hasFormulaIn_of_hasPlan hasPlan
  | simulate config sales profile =>
      exact isPlain.withCache (Config.holdsTreesOf_simulate holds among)
  | validate config =>
      exact isPlain.withCache (Config.holdsTreesOf_validate holds among)
  | validateFormula formula sales? =>
      have hasFormula :
          (Config.active .custom .empty (some formula)).HasFormulaIn texts := by
        intro text isFormula
        exact among text (Option.filter_eq_some_iff.1 isFormula).1
      exact isPlain.withCache (Config.holdsTreesOf_validate holds hasFormula)
  | lookUpFormula formula => exact isPlain.withCache (holds.get formula)
  | parseFormula formula =>
      exact isPlain.withCache (holds.getOrParse (among formula rfl))
  | clearCache =>
      apply isPlain.withCache
      intro entry member
      simp [Cache.clear] at member
  | showSettings => exact isPlain

/-- Commands on the texts leave a session plain. -/
theorem run
    (isPlain : session.IsPlain texts)
    (commands : List Command)
    (notRehearsals : ∀ command ∈ commands, command.isRehearsal = false)
    (among :
      ∀ command ∈ commands,
        ∀ formula, command.formula? = some formula → formula ∈ texts) :
    (session.run commands).2.IsPlain texts := by
  induction commands generalizing session with
  | nil => exact isPlain
  | cons command commands ih =>
      rw [List.forall_mem_cons] at notRehearsals among
      exact
        ih (isPlain.step command notRehearsals.1 among.1) notRehearsals.2
          among.2

/-- A history without rehearsals leaves a new session plain. -/
theorem run_start
    (settings : Settings)
    (hasProfiles : Bool)
    (commands : List Command)
    (notRehearsals : ∀ command ∈ commands, command.isRehearsal = false) :
    ((Session.start settings hasProfiles).run commands).2.IsPlain
      (formulasOf commands) := by
  apply (start settings hasProfiles _).run commands notRehearsals
  intro command member formula names
  exact List.mem_filterMap.2 ⟨command, member, names⟩

/-- Without a collision, the plans of a plain session are read by its cache. -/
theorem isReadBy_of_hasPlan
    (isPlain : session.IsPlain texts)
    (collisionFree : CollisionFree texts)
    {config : Config}
    (hasPlan : session.sources.HasPlan user config) :
    config.IsReadBy session.cache := by
  intro formula hasFormula
  apply isPlain.holds.getOrParse_eq_parse
  apply collisionFree.mono
  exact
    List.cons_subset.2
      ⟨isPlain.hasFormulaIn_of_hasPlan hasPlan formula hasFormula,
        List.Subset.refl texts⟩

end Session.IsPlain

/-! ## Two histories -/

/-- Plain sessions with the same values stored answer the same. -/
theorem Session.IsPlain.agreesOn
    {first second : Session}
    {otherTexts : List String}
    (firstIsPlain : first.IsPlain texts)
    (secondIsPlain : second.IsPlain otherTexts)
    (sameConfig :
      first.store.configs.get? user = second.store.configs.get? user)
    (sameSales :
      first.store.sales.get? (user, period) =
        second.store.sales.get? (user, period))
    (sameProfile :
      first.store.profiles.get? user = second.store.profiles.get? user)
    (sameAccess : first.hasProfiles = second.hasProfiles) :
    first.sources.AgreesOn second.sources user period where
  config := by
    rw [firstIsPlain.config_sources, secondIsPlain.config_sources]
    simp only [Store.sources, Store.activeConfig, sameConfig]
  sales := by
    rw [firstIsPlain.sales_sources, secondIsPlain.sales_sources]
    simp only [Store.sources, sameSales]
  profile := by
    rw [firstIsPlain.profile_sources, secondIsPlain.profile_sources]
    simp only [Store.sources, sameProfile, sameAccess]

/--
After two histories without rehearsals that wrote the same configuration for a
user last, the same sales for the user and a period, and the same profile for
the user, a calculation for the user and the period answers the same.  The
settings may differ, and with them the capacities of the caches, as long as no
two formulas of one history have the same digest.
-/
theorem calculate_noninterference
    (settings otherSettings : Settings)
    (hasProfiles : Bool)
    (commands otherCommands : List Command)
    (user : String)
    (period : Period)
    (notRehearsals : ∀ command ∈ commands, command.isRehearsal = false)
    (notRehearsalsToo :
      ∀ command ∈ otherCommands, command.isRehearsal = false)
    (collisionFree : CollisionFree (formulasOf commands))
    (collisionFreeToo : CollisionFree (formulasOf otherCommands))
    (sameConfig :
      lastOf (Command.configFor? user) commands =
        lastOf (Command.configFor? user) otherCommands)
    (sameSales :
      lastOf (Command.salesFor? user period) commands =
        lastOf (Command.salesFor? user period) otherCommands)
    (sameProfile :
      lastOf (Command.profileFor? user) commands =
        lastOf (Command.profileFor? user) otherCommands) :
    (((Session.start settings hasProfiles).run commands).2.step
        (.calculate user period)).1 =
      (((Session.start otherSettings hasProfiles).run otherCommands).2.step
        (.calculate user period)).1 := by
  let first := ((Session.start settings hasProfiles).run commands).2
  let second := ((Session.start otherSettings hasProfiles).run otherCommands).2
  have firstIsPlain : first.IsPlain (formulasOf commands) :=
    .run_start settings hasProfiles commands notRehearsals
  have secondIsPlain : second.IsPlain (formulasOf otherCommands) :=
    .run_start otherSettings hasProfiles otherCommands notRehearsalsToo
  have agrees : first.sources.AgreesOn second.sources user period := by
    apply firstIsPlain.agreesOn secondIsPlain
    · rw [Session.config_run, Session.config_run, sameConfig]
      rfl
    · rw [Session.sales_run, Session.sales_run, sameSales]
      rfl
    · rw [Session.profile_run, Session.profile_run, sameProfile]
      rfl
    · rw [Session.hasProfiles_run, Session.hasProfiles_run]
      rfl
  have same :
      (calculate first.sources user period first.cache).1 =
        (calculate second.sources user period second.cache).1 :=
    calculate_congr agrees
      (fun _ => firstIsPlain.isReadBy_of_hasPlan collisionFree)
      (fun _ => secondIsPlain.isReadBy_of_hasPlan collisionFreeToo)
  exact congrArg (fun result => Answer.payout (result.mapError .source)) same

/-- An earlier plan, another user and a cache for one formula change nothing. -/
theorem calculate_noninterference_unfinishedFormula :
    let period : Period := ⟨2024, 1, by decide, by decide, by decide⟩
    let roomForOne := { Settings.default with formulaCacheCapacity := 1 }
    let commands : List Command :=
      [.putConfig "ada" noughtPercent, .putConfig "ada" unfinishedFormula,
        .parseFormula "sales", .putConfig "bob" noughtPercent,
        .putSales "bob" period .sample, .batch ["bob", "ada"] period]
    (((Session.start roomForOne true).run commands).2.step
        (.calculate "ada" period)).1 =
      .payout (.ok (unfinishedFormula.payOut none .empty (.ofCapacity 256)).1) := by
  intro period roomForOne commands
  have collisionFree : CollisionFree (formulasOf commands) := by
    have named : formulasOf commands = ["(", "sales"] := by decide +kernel
    rw [named]
    unfold CollisionFree
    decide +kernel
  have collisionFreeToo :
      CollisionFree (formulasOf [.putConfig "ada" unfinishedFormula]) :=
    @CollisionFree.of_all_eq _ "(" (by decide)
  calc
    (((Session.start roomForOne true).run commands).2.step
        (.calculate "ada" period)).1
    _ = (((Session.start .default true).run
            [.putConfig "ada" unfinishedFormula]).2.step
          (.calculate "ada" period)).1 :=
      calculate_noninterference roomForOne .default true commands _ "ada"
        period (by simp [commands, Command.isRehearsal])
        (by simp [Command.isRehearsal]) collisionFree collisionFreeToo
        rfl rfl rfl
    _ = .payout
          (.ok (unfinishedFormula.payOut none .empty (.ofCapacity 256)).1) :=
      rfl

end IncentivePay
