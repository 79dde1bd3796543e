/-!
# The vocabulary of formulas

A formula may use seven variables, three functions and eleven binary
operators, and nothing else.  Each has one written name, and `ofName?` reads
exactly these names.
-/

namespace IncentivePay.Formula

/-- A variable that a formula may read. -/
inductive Variable
  | personalSales
  | totalSales
  | teamSales
  | sales
  | baseSalary
  | years
  | performance
deriving DecidableEq, Repr

namespace Variable

/-- Every variable, in the order of their declaration. -/
def all : List Variable :=
  [.personalSales, .totalSales, .teamSales, .sales, .baseSalary, .years,
   .performance]

/-- The written name of a variable. -/
def name : Variable → String
  | .personalSales => "personalSales"
  | .totalSales => "totalSales"
  | .teamSales => "teamSales"
  | .sales => "sales"
  | .baseSalary => "baseSalary"
  | .years => "years"
  | .performance => "performance"

/-- The variable with a name. -/
def ofName? (name : String) : Option Variable :=
  all.find? fun candidate => candidate.name = name

@[simp]
theorem ofName?_name (quantity : Variable) :
    ofName? quantity.name = some quantity := by
  cases quantity <;> decide

theorem name_of_ofName?
    {name : String}
    {quantity : Variable}
    (found : ofName? name = some quantity) :
    quantity.name = name := by
  simpa using List.find?_some found

theorem mem_all (quantity : Variable) : quantity ∈ all := by
  cases quantity <;> decide

end Variable

/-- A function that a formula may call. -/
inductive Function
  | max
  | min
  | round
deriving DecidableEq, Repr

namespace Function

/-- Every function. -/
def all : List Function :=
  [.max, .min, .round]

/-- The written name of a function. -/
def name : Function → String
  | .max => "Math.max"
  | .min => "Math.min"
  | .round => "Math.round"

/-- The number of arguments that a function takes. -/
def arity : Function → Nat
  | .max => 2
  | .min => 2
  | .round => 1

/-- The function with a name. -/
def ofName? (name : String) : Option Function :=
  all.find? fun candidate => candidate.name = name

@[simp]
theorem ofName?_name (function : Function) :
    ofName? function.name = some function := by
  cases function <;> decide

theorem name_of_ofName?
    {name : String}
    {function : Function}
    (found : ofName? name = some function) :
    function.name = name := by
  simpa using List.find?_some found

/-- No function has the name of a variable. -/
@[simp]
theorem variable_ofName?_name (function : Function) :
    Variable.ofName? function.name = none := by
  cases function <;> decide

end Function

/-- An operator between two operands. -/
inductive Operator
  | add
  | subtract
  | multiply
  | divide
  | remainder
  | greater
  | less
  | greaterOrEqual
  | lessOrEqual
  | equal
  | notEqual
deriving DecidableEq, Repr

namespace Operator

/-- Every operator. -/
def all : List Operator :=
  [.add, .subtract, .multiply, .divide, .remainder, .greater, .less,
   .greaterOrEqual, .lessOrEqual, .equal, .notEqual]

/-- The written symbol of an operator. -/
def symbol : Operator → String
  | .add => "+"
  | .subtract => "-"
  | .multiply => "*"
  | .divide => "/"
  | .remainder => "%"
  | .greater => ">"
  | .less => "<"
  | .greaterOrEqual => ">="
  | .lessOrEqual => "<="
  | .equal => "=="
  | .notEqual => "!="

/-- A comparison answers one or zero. -/
def isComparison : Operator → Bool
  | .greater | .less | .greaterOrEqual | .lessOrEqual | .equal
  | .notEqual => true
  | _ => false

/-- The operator with a symbol. -/
def ofSymbol? (symbol : String) : Option Operator :=
  all.find? fun candidate => candidate.symbol = symbol

@[simp]
theorem ofSymbol?_symbol (operator : Operator) :
    ofSymbol? operator.symbol = some operator := by
  cases operator <;> decide

theorem symbol_of_ofSymbol?
    {symbol : String}
    {operator : Operator}
    (found : ofSymbol? symbol = some operator) :
    operator.symbol = symbol := by
  simpa using List.find?_some found

end Operator

end IncentivePay.Formula
