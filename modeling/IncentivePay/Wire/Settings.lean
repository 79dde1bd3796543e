import IncentivePay.Engine.Settings
import IncentivePay.Engine.Sources
import IncentivePay.Wire.Config
import IncentivePay.Wire.Json.Reader

/-!
# The JSON form of settings and snapshots

Every member of the settings may be absent and then has its default.  A
snapshot holds the configurations, sales and profiles of a batch; of entries
under one key, the last one counts.
-/

namespace IncentivePay

/-- The JSON form of the settings. -/
def Settings.toJson (settings : Settings) : Json :=
  .record
    [("formulaCacheCapacity",
      some (.integer (settings.formulaCacheCapacity.toNat : Int))),
     ("batchConcurrency",
      some (.integer (settings.batchConcurrency.toNat : Int))),
     ("sampleSales", some settings.sampleSales.toJson),
     ("sampleProfile", some settings.sampleProfile.toJson)]

/-- The settings in a JSON value. -/
def Settings.ofJson? (json : Json) : Option Settings := do
  let fields ←
    json.fields?
      ["formulaCacheCapacity", "batchConcurrency", "sampleSales",
       "sampleProfile"]
  let formulaCacheCapacity ←
    fields.withDefault "formulaCacheCapacity"
      Settings.default.formulaCacheCapacity Json.uint64?
  let batchConcurrency ←
    fields.withDefault "batchConcurrency"
      Settings.default.batchConcurrency Json.uint64?
  let sampleSales ←
    fields.withDefault "sampleSales" Settings.default.sampleSales
      Sales.ofJson?
  let sampleProfile ←
    fields.withDefault "sampleProfile" Settings.default.sampleProfile
      Profile.ofJson?
  some
    ⟨formulaCacheCapacity, batchConcurrency, sampleSales, sampleProfile⟩

/-- The settings that a JSON text holds. -/
def Settings.read? (text : String) : Option Settings :=
  (Json.read? text).bind Settings.ofJson?

/-- The configurations, sales and profiles of a batch. -/
structure Snapshot where
  configs : List (String × Config)
  sales : List (String × List (Period × Sales))
  profiles : List (String × Profile)

namespace Snapshot

/-- A member of a dictionary whose value is read. -/
def namedValue?
    {Value : Type}
    (read : Json → Option Value)
    (entry : String × Json) :
    Option (String × Value) :=
  (read entry.2).map fun value => (entry.1, value)

/-- The entries of a dictionary whose values are read. -/
def entries?
    {Value : Type}
    (read : Json → Option Value)
    (json : Json) :
    Option (List (String × Value)) :=
  json.dictionary?.bind fun members => members.mapM (namedValue? read)

/-- An entry whose key is a period. -/
def underPeriod?
    {Value : Type}
    (entry : String × Value) :
    Option (Period × Value) :=
  (Period.read? entry.1).map fun period => (period, entry.2)

/-- The sales of one user, under their periods. -/
def salesByPeriod? (json : Json) : Option (List (Period × Sales)) :=
  (entries? Sales.ofJson? json).bind fun entries =>
    entries.mapM underPeriod?

/-- The snapshot in a JSON value. -/
def ofJson? (json : Json) : Option Snapshot := do
  let fields ← json.fields? ["configs", "sales", "profiles"]
  let configs ← fields.withDefault "configs" [] (entries? Config.ofJson?)
  let sales ← fields.withDefault "sales" [] (entries? salesByPeriod?)
  let profiles ← fields.withDefault "profiles" [] (entries? Profile.ofJson?)
  some ⟨configs, sales, profiles⟩

/-- The last entry under each key, in the order of these. -/
def lastEntries
    {Value : Type} :
    List (String × Value) →
    List (String × Value)
  | [] => []
  | entry :: entries =>
      if entries.any fun later => later.1 = entry.1 then
        lastEntries entries
      else
        entry :: lastEntries entries

/-- The store that keeps a snapshot. -/
def store (snapshot : Snapshot) : Store where
  configs := .ofList snapshot.configs
  sales :=
    .ofList
      ((lastEntries snapshot.sales).flatMap fun entry =>
        entry.2.map fun figure => ((entry.1, figure.1), figure.2))
  profiles := .ofList snapshot.profiles

end Snapshot

end IncentivePay
