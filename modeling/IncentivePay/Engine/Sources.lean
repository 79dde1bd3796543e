import IncentivePay.Calendar.Period
import IncentivePay.Engine.Register
import IncentivePay.Payout.Config
import IncentivePay.Payout.Sales

/-!
# Sources of configurations and sales

The engine asks three questions: which configuration a user has, what the
user sold in a period, and what is known about the user.  Each answer may
fail.  `Store` answers them from memory: it keeps whatever was written last,
hands out only active configurations, and never fails.
-/

namespace IncentivePay

/-- Why a source did not answer. -/
inductive SourceError
  | unavailable (reason : String)
  | invalidData (user reason : String)
deriving DecidableEq

/-- The wording of a source error. -/
def SourceError.message : SourceError → String
  | .unavailable reason => "Provider unavailable: " ++ reason
  | .invalidData user reason =>
      "Provider returned invalid data for user " ++ user ++ ": " ++ reason

/-- Where the engine gets its data from. -/
structure Sources where
  config : String → Except SourceError (Option Config)
  sales : String → Period → Except SourceError (Option Sales)
  profile : String → Except SourceError Profile

/-- Configurations, sales and profiles that are kept in memory. -/
structure Store where
  configs : Register String Config
  sales : Register (String × Period) Sales
  profiles : Register String Profile

namespace Store

/-- The store in which nothing is kept. -/
def empty : Store where
  configs := .empty
  sales := .empty
  profiles := .empty

/-- Keeps the configuration of a user. -/
def putConfig
    (store : Store)
    (user : String)
    (config : Config) :
    Store :=
  { store with configs := store.configs.insert user config }

/-- Keeps the sales of a user in a period. -/
def putSales
    (store : Store)
    (user : String)
    (period : Period)
    (sales : Sales) :
    Store :=
  { store with sales := store.sales.insert (user, period) sales }

/-- Keeps the profile of a user. -/
def putProfile
    (store : Store)
    (user : String)
    (profile : Profile) :
    Store :=
  { store with profiles := store.profiles.insert user profile }

/-- The active configuration of a user. -/
def activeConfig
    (store : Store)
    (user : String) :
    Option Config :=
  (store.configs.get? user).filter fun config => config.isActive

/-- The users that have a configuration, in the order of their bytes. -/
def users (store : Store) : List String :=
  store.configs.keys.mergeSort (· ≤ ·)

/-- The sources that answer from a store. -/
def sources (store : Store) : Sources where
  config user := .ok (store.activeConfig user)
  sales user period := .ok (store.sales.get? (user, period))
  profile user := .ok ((store.profiles.get? user).getD .empty)

end Store

end IncentivePay
