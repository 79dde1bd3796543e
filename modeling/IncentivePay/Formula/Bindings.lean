import IncentivePay.Formula.Vocabulary
import IncentivePay.Payout.Sales

/-!
# Bindings of variables

Bindings give a number to some of the seven variables.  They are built from a
sales record and a profile, which binds all seven, or one variable after the
other by name; a name outside the vocabulary is refused.
-/

namespace IncentivePay.Formula

/-- Numbers for some of the variables. -/
structure Bindings where
  value? : Variable → Option Binary64

/-- A variable was to be bound whose name is not in the vocabulary. -/
inductive BindingError
  | notAllowed (name : String)
deriving DecidableEq

/-- The wording of a refused binding. -/
def BindingError.message : BindingError → String
  | .notAllowed name =>
      "Variable '" ++ name ++ "' is not on the formula allow-list"

namespace Bindings

/-- No variable is bound. -/
def empty : Bindings where
  value? _ := none

/--
Every variable is bound from a sales record and a profile.  `sales` is another
name for the personal sales, and absent figures are zero.
-/
def ofRecords
    (sales : Sales)
    (profile : Profile) :
    Bindings where
  value?
    | .personalSales => some sales.personal
    | .sales => some sales.personal
    | .totalSales => some sales.total
    | .teamSales => some (sales.team.getD .zero)
    | .baseSalary => some (profile.baseSalary.getD .zero)
    | .years => some (profile.years.getD .zero)
    | .performance => some (profile.performance.getD .zero)

/-- The number bound to a name. -/
def get?
    (bindings : Bindings)
    (name : String) :
    Option Binary64 :=
  (Variable.ofName? name).bind bindings.value?

/-- Binds a variable anew. -/
def bind
    (bindings : Bindings)
    (quantity : Variable)
    (value : Binary64) :
    Bindings where
  value? other := if other = quantity then some value else bindings.value? other

/-- Binds the variable with a name, which has to be in the vocabulary. -/
def set
    (bindings : Bindings)
    (name : String)
    (value : Binary64) :
    Except BindingError Bindings :=
  match Variable.ofName? name with
  | some quantity => .ok (bindings.bind quantity value)
  | none => .error (.notAllowed name)

/-- The number of variables that are bound. -/
def size (bindings : Bindings) : Nat :=
  Variable.all.countP fun quantity => (bindings.value? quantity).isSome

@[simp]
theorem value?_bind_same
    (bindings : Bindings)
    (quantity : Variable)
    (value : Binary64) :
    (bindings.bind quantity value).value? quantity = some value := by
  simp [bind]

@[simp]
theorem isSome_ofRecords
    (sales : Sales)
    (profile : Profile)
    (quantity : Variable) :
    ((ofRecords sales profile).value? quantity).isSome = true := by
  cases quantity <;> rfl

end Bindings

end IncentivePay.Formula
