import IncentivePay.Engine.Basic

/-!
# Sessions

A session is one engine with its settings and its cache over a store, driven
by commands: some write to the store, some calculate, and some look at the
cache.  For rehearsals a source can be made to fail for a user, a
configuration can be presented as it is in place of the stored one, and the
profiles can be left out altogether.

`Session.step` answers one command, and `Session.run` a list of them.
-/

namespace IncentivePay

open Formula

/-- What the engine asks its sources about. -/
inductive Subject
  | config
  | sales
  | profile
deriving DecidableEq, Repr

/-- One engine over a store. -/
structure Session where
  settings : Settings
  cache : Cache
  store : Store
  presented : Register String Config
  failures : Register (String × Subject) SourceError
  hasProfiles : Bool

/-- What can be asked of a session. -/
inductive Command
  | putConfig (user : String) (config : Config)
  | presentConfig (user : String) (config : Config)
  | putSales (user : String) (period : Period) (sales : Sales)
  | putProfile (user : String) (profile : Profile)
  | fail (user : String) (subject : Subject) (error : SourceError)
  | recover (user : String) (subject : Subject)
  | calculate (user : String) (period : Period)
  | batch (users : List String) (period : Period)
  | simulate (config : Config) (sales : Sales) (profile : Profile)
  | validate (config : Config)
  | validateFormula (formula : String) (sales? : Option Sales)
  | lookUpFormula (formula : String)
  | parseFormula (formula : String)
  | clearCache
  | showSettings

/-- What a session answers. -/
inductive Answer
  | done
  | users (users : List String)
  | payout (result : Except EngineError Payout)
  | batch (batch : Batch)
  | report (report : Report)
  | found (tree? : Option Expr)
  | parsed (result : Except SyntaxError Expr)
  | cleared (isEmpty : Bool)
  | settings (settings : Settings)

namespace Session

/-- A session with settings, over an empty store. -/
def start
    (settings : Settings)
    (hasProfiles : Bool) :
    Session where
  settings := settings
  cache := .ofCapacity settings.formulaCacheCapacity.toNat
  store := .empty
  presented := .empty
  failures := .empty
  hasProfiles := hasProfiles

/-- The answer of a source, unless it was made to fail for the user. -/
def answerUnlessFailed
    {Value : Type}
    (session : Session)
    (user : String)
    (subject : Subject)
    (answer : Except SourceError Value) :
    Except SourceError Value :=
  match session.failures.get? (user, subject) with
  | some error => .error error
  | none => answer

/-- The sources of a session. -/
def sources (session : Session) : Sources where
  config user :=
    session.answerUnlessFailed user .config
      (match session.presented.get? user with
      | some config => .ok (some config)
      | none => session.store.sources.config user)
  sales user period :=
    session.answerUnlessFailed user .sales
      (session.store.sources.sales user period)
  profile user :=
    if session.hasProfiles then
      session.answerUnlessFailed user .profile
        (session.store.sources.profile user)
    else
      .ok .empty

/-- The answer to a command, and the session after it. -/
def step
    (session : Session)
    (command : Command) :
    Answer × Session :=
  match command with
  | .putConfig user config =>
      let store := session.store.putConfig user config
      (.users store.users, { session with store := store })
  | .presentConfig user config =>
      (.done,
        { session with presented := session.presented.insert user config })
  | .putSales user period sales =>
      (.done,
        { session with store := session.store.putSales user period sales })
  | .putProfile user profile =>
      (.done, { session with store := session.store.putProfile user profile })
  | .fail user subject error =>
      (.done,
        { session with
          failures := session.failures.insert (user, subject) error })
  | .recover user subject =>
      (.done,
        { session with failures := session.failures.erase (user, subject) })
  | .calculate user period =>
      let (result, cache) :=
        IncentivePay.calculate session.sources user period session.cache
      (.payout (result.mapError .source), { session with cache := cache })
  | .batch users period =>
      let (batch, cache) :=
        calculateBatch session.sources users period session.cache
      (.batch batch, { session with cache := cache })
  | .simulate config sales profile =>
      let (result, cache) := config.simulate sales profile session.cache
      (.payout (result.mapError .calculation), { session with cache := cache })
  | .validate config =>
      let (report, cache) :=
        config.validate session.settings.sampleSales
          session.settings.sampleProfile session.cache
      (.report report, { session with cache := cache })
  | .validateFormula formula sales? =>
      let (report, cache) :=
        IncentivePay.validateFormula formula
          (sales?.getD session.settings.sampleSales)
          session.settings.sampleProfile session.cache
      (.report report, { session with cache := cache })
  | .lookUpFormula formula =>
      let (tree?, cache) := session.cache.get formula
      (.found tree?, { session with cache := cache })
  | .parseFormula formula =>
      let (result, cache) := session.cache.getOrParse formula
      (.parsed result, { session with cache := cache })
  | .clearCache =>
      let cache := session.cache.clear
      (.cleared cache.entries.isEmpty, { session with cache := cache })
  | .showSettings => (.settings session.settings, session)

/-- The answers to a list of commands, and the session after them. -/
def run
    (session : Session) :
    (commands : List Command) →
    List Answer × Session
  | [] => ([], session)
  | command :: commands =>
      let (answer, next) := session.step command
      let (answers, last) := next.run commands
      (answer :: answers, last)

end Session

end IncentivePay
