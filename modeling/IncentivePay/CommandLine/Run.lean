import IncentivePay.CommandLine.Invocation
import IncentivePay.CommandLine.Report
import IncentivePay.Wire.Payout
import IncentivePay.Wire.Settings

/-!
# Running a command line

A command line is carried out on the files it names, an environment, an
identifier that no other run has, and a clock, and ends with an exit code, an
output and an error text.  A command line that is
misused ends with code two and nothing else.  A failure ends with code one:
its message goes to the error text, or into a JSON output when that format
was asked for, except that a failure of the settings always goes to the error
text.
-/

namespace IncentivePay.CommandLine

/-- Why a file could not be read. -/
inductive FileError
  | notFound
  | isDirectory
  | notText
deriving DecidableEq, Repr

/-- The wording of a file error. -/
def FileError.message : FileError → String
  | .notFound => "No such file or directory (os error 2)"
  | .isDirectory => "Is a directory (os error 21)"
  | .notText => "stream did not contain valid UTF-8"

/-- What a command line is carried out on. -/
structure Surroundings where
  fileContent : String → Except FileError String
  environment : Environment
  identifier : String
  times : Times

/-- What a command line prints on its standard output. -/
inductive Output
  | nothing
  | text (text : String)
  | json (value : Json)

/-- How a command line ends. -/
structure Ending where
  exitCode : Nat
  output : Output
  errorText : Option String

/-- The two forms of what a task puts out. -/
structure Rendering where
  human : String
  json : Json

/-- The value in a JSON file. -/
def readJson
    {Value : Type}
    (surroundings : Surroundings)
    (read : Json → Option Value)
    (path : String) :
    Except String Value :=
  match surroundings.fileContent path with
  | .error error => .error ("Failed to read " ++ path ++ ": " ++ error.message)
  | .ok text =>
      match (Json.read? text).bind read with
      | some value => .ok value
      | none => .error ("Invalid JSON in " ++ path)

/-- The settings of an invocation, with the overrides of the environment. -/
def loadSettings
    (surroundings : Surroundings)
    (path? : Option String) :
    Except String Settings :=
  match path? with
  | none => .ok (Settings.default.withEnvironment surroundings.environment)
  | some path =>
      match surroundings.fileContent path with
      | .error _ => .error ("Failed to read settings file " ++ path)
      | .ok text =>
          match Settings.read? text with
          | some settings => .ok (settings.withEnvironment surroundings.environment)
          | none => .error ("Invalid settings file " ++ path)

/-- The messages of a calculation error and of what caused it. -/
def causes (error : CalculationError) : List String :=
  (EngineError.calculation error).message :: error.message ::
    match error with
    | .template cause => [cause.message]
    | .unreadable cause => [cause.message]
    | .evaluation cause => [cause.message]
    | _ => []

/-- The verdict of a validation. -/
def renderReport (report : Report) : Rendering where
  human := reportText report
  json := report.toJson

/-- What a task puts out. -/
def perform
    (surroundings : Surroundings)
    (settings : Settings)
    (task : Task) :
    Except String Rendering :=
  let cache := Formula.Cache.ofCapacity settings.formulaCacheCapacity.toNat
  match task with
  | .types => .ok ⟨catalogText, catalogJson⟩
  | .validateConfig path sales? => do
      let config ← readJson surroundings Config.ofJson? path
      let sales := sales?.getD settings.sampleSales
      let (report, _) := config.validate sales settings.sampleProfile cache
      .ok (renderReport report)
  | .validateFormula formula sales? =>
      let sales := sales?.getD settings.sampleSales
      let (report, _) :=
        validateFormula formula sales settings.sampleProfile cache
      .ok (renderReport report)
  | .simulate path sales => do
      let config ← readJson surroundings Config.ofJson? path
      match (config.simulate sales .empty cache).1 with
      | .ok payout =>
          let stamped : StampedPayout :=
            ⟨payout, surroundings.times.calculatedAt 0⟩
          .ok ⟨payoutText payout, stamped.toJson⟩
      | .error error =>
          .error (": ".intercalate ("Simulation failed" :: causes error))
  | .batch path period users => do
      let snapshot ← readJson surroundings Snapshot.ofJson? path
      let store := snapshot.store
      let listed := if users.isEmpty then store.users else users
      let (batch, _) := calculateBatch store.sources listed period cache
      .ok
        ⟨batchText surroundings.identifier batch,
          batch.toJson surroundings.identifier surroundings.times⟩

/-- How a failure is told in JSON. -/
def failureJson (message : String) : Json :=
  .record
    [("success", some (.boolean false)), ("error", some (.ofString message))]

/-- How an invocation ends. -/
def Invocation.run
    (surroundings : Surroundings)
    (invocation : Invocation) :
    Ending :=
  match loadSettings surroundings invocation.settingsPath with
  | .error message => ⟨1, .nothing, some message⟩
  | .ok settings =>
      match perform surroundings settings invocation.task, invocation.format with
      | .ok rendering, .human => ⟨0, .text rendering.human, none⟩
      | .ok rendering, .json => ⟨0, .json rendering.json, none⟩
      | .error message, .human => ⟨1, .nothing, some message⟩
      | .error message, .json => ⟨1, .json (failureJson message), none⟩

/-- A summary of the command line. -/
def usage : String :=
  joinLines
    ["Validate, simulate and calculate sales incentives",
     "",
     "Usage: incentive-cli [--settings FILE] [--output human|json] TASK",
     "",
     "Tasks:",
     "  types",
     "  validate (--config FILE | --formula TEXT)",
     "           [--personal-sales NUMBER --total-sales NUMBER]",
     "  simulate --config FILE --personal-sales NUMBER --total-sales NUMBER",
     "           [--team-sales NUMBER]",
     "  batch --input FILE --period YYYY-MM [--user USER_ID]..."]

/-- The name and the version of the program. -/
def versionText : String :=
  "incentive-cli 0.1.0"

/-- How a command line ends. -/
def run
    (surroundings : Surroundings)
    (words : List String) :
    Ending :=
  match Invocation.ofWords words with
  | .ok invocation => invocation.run surroundings
  | .error .misused => ⟨2, .nothing, some usage⟩
  | .error .helpWanted => ⟨0, .text usage, none⟩
  | .error .versionWanted => ⟨0, .text versionText, none⟩

end IncentivePay.CommandLine
