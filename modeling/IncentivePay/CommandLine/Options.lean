/-!
# Options on a command line

A command line is a list of words.  An option is written `--name value` or
`--name=value`; in the first form the value does not start with a hyphen,
unless it is one.  An option is given once at most, unless it may be repeated,
and its value is checked where it stands.  Two hyphens alone end the options.
-/

namespace IncentivePay.CommandLine

/-- An option that a command knows. -/
structure OptionSpec where
  name : String
  isRepeatable : Bool
  accepts : String → Bool

/-- The options of a command line with their values, in their order. -/
abbrev Occurrences := List (String × String)

/-- Why a command line is not carried out. -/
inductive Refusal
  | misused
  | helpWanted
  | versionWanted
deriving DecidableEq, Repr

/-- The value of an option that is given. -/
def valueOf?
    (occurrences : Occurrences)
    (name : String) :
    Option String :=
  (occurrences.find? fun occurrence => occurrence.1 = name).map
    fun occurrence => occurrence.2

/-- The values of an option that may be repeated. -/
def valuesOf
    (occurrences : Occurrences)
    (name : String) :
    List String :=
  (occurrences.filter fun occurrence => occurrence.1 = name).map
    fun occurrence => occurrence.2

/-- A word that reads as an option and cannot be a value of its own. -/
def startsWithHyphen (word : String) : Bool :=
  match word.toList with
  | '-' :: _ :: _ => true
  | _ => false

/-- The name of a long option with its value, if the word holds one. -/
def splitLong?
    (word : String) :
    Option (String × Option String) :=
  match word.toList with
  | '-' :: '-' :: characters =>
      let name := String.ofList (characters.takeWhile (· != '='))
      match characters.dropWhile (· != '=') with
      | [] => some (name, none)
      | _ :: value => some (name, some (String.ofList value))
  | _ => none

/-- One more occurrence of an option, if the option may occur so. -/
def addOccurrence
    (specs : List OptionSpec)
    (occurrences : Occurrences)
    (name value : String) :
    Except Refusal Occurrences :=
  match specs.find? fun spec => spec.name = name with
  | none => .error .misused
  | some spec =>
      if !spec.isRepeatable && (valueOf? occurrences name).isSome then
        .error .misused
      else if spec.accepts value then
        .ok (occurrences ++ [(name, value)])
      else
        .error .misused

/-- What a flag without a value asks for. -/
def flag?
    (knowsVersion : Bool)
    (word : String) :
    Option Refusal :=
  match word.toList with
  | '-' :: 'h' :: _ => some .helpWanted
  | '-' :: 'V' :: _ => if knowsVersion then some .versionWanted else none
  | _ =>
      if word = "--help" then some .helpWanted
      else if word = "--version" && knowsVersion then some .versionWanted
      else none

/--
Reads options up to the first word that is none, and hands back that word and
those after it.
-/
def takeOptions
    (specs : List OptionSpec)
    (knowsVersion : Bool)
    (occurrences : Occurrences)
    (words : List String) :
    Except Refusal (Occurrences × List String) :=
  match words with
  | [] => .ok (occurrences, [])
  | [word] =>
      if word = "--" || !startsWithHyphen word then
        .ok (occurrences, [word])
      else
        match flag? knowsVersion word, splitLong? word with
        | some refusal, _ => .error refusal
        | none, some (name, some value) => do
            let occurrences ← addOccurrence specs occurrences name value
            .ok (occurrences, [])
        | none, _ => .error .misused
  | word :: next :: others =>
      if word = "--" || !startsWithHyphen word then
        .ok (occurrences, word :: next :: others)
      else
        match flag? knowsVersion word, splitLong? word with
        | some refusal, _ => .error refusal
        | none, none => .error .misused
        | none, some (name, some value) => do
            let occurrences ← addOccurrence specs occurrences name value
            takeOptions specs knowsVersion occurrences (next :: others)
        | none, some (name, none) =>
            if startsWithHyphen next then
              .error .misused
            else do
              let occurrences ← addOccurrence specs occurrences name next
              takeOptions specs knowsVersion occurrences others
termination_by words.length

end IncentivePay.CommandLine
