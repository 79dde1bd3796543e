import IncentivePay.Calendar.Period
import IncentivePay.CommandLine.Options
import IncentivePay.Decimal.Numeral
import IncentivePay.Payout.Sales

/-!
# Invocations

The command line names one of four tasks, with the options of that task and
two options that are known everywhere: a file with settings and the format of
the output.  Of an option that is given both before and after the name of the
task, the value after it counts.
-/

namespace IncentivePay.CommandLine

/-- How the output is written. -/
inductive OutputFormat
  | human
  | json
deriving DecidableEq, Repr

/-- The format with a name. -/
def OutputFormat.ofName? : String → Option OutputFormat
  | "human" => some .human
  | "json" => some .json
  | _ => none

/-- What is to be done. -/
inductive Task
  | types
  | validateConfig (path : String) (sales? : Option Sales)
  | validateFormula (formula : String) (sales? : Option Sales)
  | simulate (path : String) (sales : Sales)
  | batch (path : String) (period : Period) (users : List String)
deriving DecidableEq

/-- A command line that is carried out. -/
structure Invocation where
  settingsPath : Option String
  format : OutputFormat
  task : Task
deriving DecidableEq

/-- The name of a task on the command line. -/
inductive TaskName
  | types
  | validate
  | simulate
  | batch
deriving DecidableEq, Repr

/-- The task with a name. -/
def TaskName.ofWord? : String → Option TaskName
  | "types" => some .types
  | "validate" => some .validate
  | "simulate" => some .simulate
  | "batch" => some .batch
  | _ => none

/-- An option whose value is any text. -/
def textOption (name : String) : OptionSpec :=
  ⟨name, false, fun _ => true⟩

/-- An option whose value names a file. -/
def pathOption (name : String) : OptionSpec :=
  ⟨name, false, fun value => !value.isEmpty⟩

/-- An option whose value is a number. -/
def numberOption (name : String) : OptionSpec :=
  ⟨name, false, fun value => (Binary64.read? value).isSome⟩

/-- The options that are known everywhere. -/
def globalOptions : List OptionSpec :=
  [pathOption "settings",
   ⟨"output", false, fun value => (OutputFormat.ofName? value).isSome⟩]

/-- The options of a task. -/
def TaskName.options : TaskName → List OptionSpec
  | .types => []
  | .validate =>
      [pathOption "config", textOption "formula",
       numberOption "personal-sales", numberOption "total-sales"]
  | .simulate =>
      [pathOption "config", numberOption "personal-sales",
       numberOption "total-sales", numberOption "team-sales"]
  | .batch =>
      [pathOption "input",
       ⟨"period", false, fun value => (Period.parse value).toOption.isSome⟩,
       ⟨"user", true, fun _ => true⟩]

/-- The number that an option gives. -/
def numberOf?
    (occurrences : Occurrences)
    (name : String) :
    Option Binary64 :=
  (valueOf? occurrences name).bind Binary64.read?

/-- The sample sales of a validation: both figures, or none. -/
def sampleSales?
    (occurrences : Occurrences) :
    Except Refusal (Option Sales) :=
  match
    numberOf? occurrences "personal-sales",
    numberOf? occurrences "total-sales"
  with
  | some personal, some total => .ok (some ⟨personal, total, none⟩)
  | none, none => .ok none
  | _, _ => .error .misused

/-- The validation that the options ask for: of a file, or of a formula. -/
def validation? (occurrences : Occurrences) : Except Refusal Task := do
  let sales? ← sampleSales? occurrences
  match valueOf? occurrences "config", valueOf? occurrences "formula" with
  | some path, none => .ok (.validateConfig path sales?)
  | none, some formula => .ok (.validateFormula formula sales?)
  | _, _ => .error .misused

/-- The simulation that the options ask for. -/
def simulation? (occurrences : Occurrences) : Except Refusal Task :=
  match
    valueOf? occurrences "config",
    numberOf? occurrences "personal-sales",
    numberOf? occurrences "total-sales"
  with
  | some path, some personal, some total =>
      .ok (.simulate path ⟨personal, total, numberOf? occurrences "team-sales"⟩)
  | _, _, _ => .error .misused

/-- The batch that the options ask for. -/
def batch? (occurrences : Occurrences) : Except Refusal Task :=
  match
    valueOf? occurrences "input",
    (valueOf? occurrences "period").bind fun text =>
      (Period.parse text).toOption
  with
  | some path, some period =>
      .ok (.batch path period (valuesOf occurrences "user"))
  | _, _ => .error .misused

/-- The task that a name and its options ask for. -/
def TaskName.task?
    (name : TaskName)
    (occurrences : Occurrences) :
    Except Refusal Task :=
  match name with
  | .types => .ok .types
  | .validate => validation? occurrences
  | .simulate => simulation? occurrences
  | .batch => batch? occurrences

/-- The words after the options of a task: none, or the end mark alone. -/
def isEnd (words : List String) : Bool :=
  words = [] || words = ["--"]

/-- What a request for help about some words amounts to. -/
def helpAbout (words : List String) : Refusal :=
  match words with
  | [] => .helpWanted
  | [word] =>
      if (TaskName.ofWord? word).isSome || word = "help" then
        .helpWanted
      else
        .misused
  | _ => .misused

/-- The invocation of a task with the options before and after its name. -/
def invocation?
    (name : TaskName)
    (before after : Occurrences) :
    Except Refusal Invocation := do
  let task ← name.task? after
  let merged := after ++ before
  .ok
    { settingsPath := valueOf? merged "settings"
      format :=
        ((valueOf? merged "output").bind OutputFormat.ofName?).getD .human
      task := task }

/-- The invocation that the words of a command line ask for. -/
def Invocation.ofWords (words : List String) : Except Refusal Invocation := do
  let (before, atTask) ← takeOptions globalOptions true [] words
  match atTask with
  | [] => .error .misused
  | word :: others =>
      if word = "help" then
        .error (helpAbout others)
      else
        match TaskName.ofWord? word with
        | none => .error .misused
        | some name => do
            let (after, rest) ←
              takeOptions (globalOptions ++ name.options) false [] others
            if isEnd rest then
              invocation? name before after
            else
              .error .misused

/-- The files that an invocation reads. -/
def Invocation.paths (invocation : Invocation) : List String :=
  invocation.settingsPath.toList ++
    match invocation.task with
    | .validateConfig path _ => [path]
    | .simulate path _ => [path]
    | .batch path .. => [path]
    | _ => []

end IncentivePay.CommandLine
