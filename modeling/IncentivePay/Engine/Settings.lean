import IncentivePay.Decimal.Numeral
import IncentivePay.Payout.Sales
import IncentivePay.Text.Blank

/-!
# Settings of the engine

The settings have defaults, may be read from a document, and two of them may
be overridden by variables of the environment.  A variable that is not a
number of sixty-four bits, with blanks around it and an optional plus sign,
is ignored.
-/

namespace IncentivePay

/-- The settings of the engine. -/
structure Settings where
  formulaCacheCapacity : UInt64
  batchConcurrency : UInt64
  sampleSales : Sales
  sampleProfile : Profile
deriving DecidableEq

/-- The values that variables of the environment have. -/
abbrev Environment := String → Option String

namespace Settings

/-- The settings when nothing else is said. -/
def default : Settings where
  formulaCacheCapacity := 256
  batchConcurrency := 8
  sampleSales := .sample
  sampleProfile := .sample

/-- The variable that overrides the capacity of the formula cache. -/
def cacheCapacityVariable : String :=
  "INCENTIVE_FORMULA_CACHE_CAPACITY"

/-- The variable that overrides the concurrency of a batch. -/
def batchConcurrencyVariable : String :=
  "INCENTIVE_BATCH_CONCURRENCY"

/-- The number of sixty-four bits that a run of digits denotes. -/
def digits64? (digits : List Char) : Option UInt64 :=
  if digits.isEmpty || !digits.all isDigit then
    none
  else
    let value := Nat.ofDigitChars 10 digits 0
    if value < UInt64.size then some (UInt64.ofNat value) else none

/-- The number of sixty-four bits that a text denotes. -/
def number? (text : String) : Option UInt64 :=
  match trimBlank text.toList with
  | '+' :: digits => digits64? digits
  | digits => digits64? digits

/-- The settings with the overrides of an environment. -/
def withEnvironment
    (settings : Settings)
    (environment : Environment) :
    Settings :=
  { settings with
    formulaCacheCapacity :=
      ((environment cacheCapacityVariable).bind number?).getD
        settings.formulaCacheCapacity
    batchConcurrency :=
      ((environment batchConcurrencyVariable).bind number?).getD
        settings.batchConcurrency }

end Settings

end IncentivePay
