import IncentivePay.Calendar.Instant
import IncentivePay.Payout.PlanType
import IncentivePay.Binary64.Basic
import IncentivePay.Text.Blank

/-!
# Configurations

A configuration says how the incentive of one employee is computed.  It comes
from outside and may be incomplete or wrong: every parameter is optional, and
whether the parameters suit the type is checked elsewhere.  The audit fields
are carried along.
-/

namespace IncentivePay

/-- The optional numbers of a configuration. -/
structure Parameters where
  rate : Option Binary64
  threshold : Option Binary64
  minAmount : Option Binary64
  maxAmount : Option Binary64
deriving DecidableEq

/-- Parameters of which none is given. -/
def Parameters.empty : Parameters where
  rate := none
  threshold := none
  minAmount := none
  maxAmount := none

/-- How the incentive of one employee is computed. -/
structure Config where
  planType : PlanType
  parameters : Parameters
  customFormula : Option String
  isActive : Bool
  effectiveDate : Option Date
  lastModified : Option Instant
  modifiedBy : Option String
deriving DecidableEq

namespace Config

/-- An active configuration without audit fields. -/
def active
    (planType : PlanType)
    (parameters : Parameters)
    (customFormula : Option String) :
    Config where
  planType := planType
  parameters := parameters
  customFormula := customFormula
  isActive := true
  effectiveDate := none
  lastModified := none
  modifiedBy := none

/-- The formula of a configuration, when it is more than blanks. -/
def formula? (config : Config) : Option String :=
  config.customFormula.filter fun text => !isBlankText text

end Config

end IncentivePay
