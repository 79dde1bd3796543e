import IncentivePay.CommandLine.Run
import IncentivePay.Wire.Json.Writer

/-!
# The command line program

The files that the command line names, the variables of the environment and
the clock are read first; everything else is decided by `CommandLine.run`.
-/

namespace IncentivePay.CommandLine

/-- The content of a file, or why it could not be read. -/
def readContent (path : String) : IO (Except FileError String) := do
  try
    let bytes ← IO.FS.readBinFile path
    match String.fromUTF8? bytes with
    | some text => return .ok text
    | none => return .error .notText
  catch error =>
    match error with
    | .inappropriateType .. => return .error .isDirectory
    | _ => return .error .notFound

/-- The contents of the files that a command line names. -/
def readContents
    (words : List String) :
    IO (List (String × Except FileError String)) :=
  match Invocation.ofWords words with
  | .error _ => return []
  | .ok invocation =>
      invocation.paths.mapM fun path => return (path, ← readContent path)

/-- A random identifier in the usual grouping of hexadecimal digits. -/
def freshIdentifier : IO String := do
  let digits ← (List.range 32).mapM fun place => do
    if place = 12 then
      return '4'
    else if place = 16 then
      return Nat.digitChar (← IO.rand 8 11)
    else
      return Nat.digitChar (← IO.rand 0 15)
  let group (start size : Nat) := String.ofList ((digits.drop start).take size)
  return "-".intercalate
    [group 0 8, group 8 4, group 12 4, group 16 4, group 20 12]

/-- The instant now, as the file system stamps a file that is written. -/
def currentInstant : IO Instant := do
  let written ← IO.FS.withTempFile fun _ path => do
    return (← path.metadata).modified
  match Instant.sinceEpoch? written.sec.toNat written.nsec.toNat with
  | some instant => return instant
  | none => throw (.userError "The clock is past the end of the calendar")

/-- What a command line is carried out on, here and now. -/
def currentSurroundings (words : List String) : IO Surroundings := do
  let contents ← readContents words
  let capacity ← IO.getEnv Settings.cacheCapacityVariable
  let concurrency ← IO.getEnv Settings.batchConcurrencyVariable
  let identifier ← freshIdentifier
  let now ← currentInstant
  return {
    fileContent := fun path => (contents.lookup path).getD (.error .notFound)
    environment := fun name =>
      if name = Settings.cacheCapacityVariable then capacity
      else if name = Settings.batchConcurrencyVariable then concurrency
      else none
    identifier := identifier
    times := ⟨now, now, fun _ => now⟩ }

end IncentivePay.CommandLine

/-- Carries out the command line. -/
def main (words : List String) : IO UInt32 := do
  let surroundings ← IncentivePay.CommandLine.currentSurroundings words
  let ending := IncentivePay.CommandLine.run surroundings words
  match ending.output with
  | .nothing => pure ()
  | .text text => IO.println text
  | .json value => IO.println value.pretty
  match ending.errorText with
  | some message =>
      if ending.exitCode = 2 then
        IO.eprintln message
      else
        IO.eprintln ("Error: " ++ message)
  | none => pure ()
  return ending.exitCode.toUInt32
