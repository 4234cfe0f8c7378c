import GpuPlacement.Settings.Catalog
/-!
Snapshots of resolved settings. Every entry is read and checked when a snapshot is made, so later
passes never meet a malformed setting.
-/
namespace GpuPlacement

/-- The starts of keys that switch single rules on and off. -/
def ruleKeyStarts : List String :=
  ["accel.sql.expression.", "accel.sql.exec.", "accel.sql.input.", "accel.sql.partitioning."]

def isRuleKey (key : String) : Bool :=
  ruleKeyStarts.any fun start => start.toList.isPrefixOf key.toList

structure Config where
  /-- The raw settings that the snapshot was made from. -/
  settings : Settings
  /-- The explicit switches of rules, by key. -/
  ruleFlags : Dict Bool
  sqlEnabled : Bool
  incompatibleOps : Bool
  explain : ReportMode
  ansiEnabled : Bool
  hasNaNs : Bool
  variableFloatAgg : Bool
  castFloatToString : Bool
  castStringToFloat : Bool
  sessionTimeZone : String
  joinEnabled : Bool
  parquetEnabled : Bool
  orcEnabled : Bool
  csvEnabled : Bool
  batchSizeBytes : UInt64
  concurrentGpuTasks : Int32
  allocFraction : Binary64
  fixupExchangeOverhead : Bool
  testEnabled : Bool
  testAllowedNonGpu : List String
  deriving DecidableEq

namespace Config

/-- The snapshot of no settings. -/
def default : Config where
  settings := .empty
  ruleFlags := .empty
  sqlEnabled := Catalog.sqlEnabled.default
  incompatibleOps := Catalog.incompatibleOps.default
  explain := Catalog.explain.default
  ansiEnabled := Catalog.ansiEnabled.default
  hasNaNs := Catalog.hasNaNs.default
  variableFloatAgg := Catalog.variableFloatAgg.default
  castFloatToString := Catalog.castFloatToString.default
  castStringToFloat := Catalog.castStringToFloat.default
  sessionTimeZone := Catalog.sessionTimeZone.default
  joinEnabled := Catalog.joinEnabled.default
  parquetEnabled := Catalog.parquetEnabled.default
  orcEnabled := Catalog.orcEnabled.default
  csvEnabled := Catalog.csvEnabled.default
  batchSizeBytes := Catalog.batchSizeBytes.default.bytes
  concurrentGpuTasks := Catalog.concurrentGpuTasks.default
  allocFraction := Catalog.allocFraction.default
  fixupExchangeOverhead := Catalog.fixupExchangeOverhead.default
  testEnabled := Catalog.testEnabled.default
  testAllowedNonGpu := Catalog.testAllowedNonGpu.default

/-- The switches among some settings; each has to be a truth value. -/
def readRuleFlags : List (String × String) → Except PlacementError (List (String × Bool))
  | [] => .ok []
  | (key, raw) :: rest =>
    if isRuleKey key then
      match parseBool raw with
      | none => .error (.settingMalformed key raw (SettingValue.typeName Bool))
      | some flag => (readRuleFlags rest).map ((key, flag) :: ·)
    else readRuleFlags rest

/-- Resolves settings, failing on the first malformed or rejected one: switches of rules first,
then the entries of the catalog in order. -/
def resolve (settings : Settings) : Except PlacementError Config := do
  let ruleFlags ← readRuleFlags settings.entries
  let sqlEnabled ← Catalog.sqlEnabled.resolve settings
  let incompatibleOps ← Catalog.incompatibleOps.resolve settings
  let explain ← Catalog.explain.resolve settings
  let ansiEnabled ← Catalog.ansiEnabled.resolve settings
  let hasNaNs ← Catalog.hasNaNs.resolve settings
  let variableFloatAgg ← Catalog.variableFloatAgg.resolve settings
  let castFloatToString ← Catalog.castFloatToString.resolve settings
  let castStringToFloat ← Catalog.castStringToFloat.resolve settings
  let sessionTimeZone ← Catalog.sessionTimeZone.resolve settings
  let joinEnabled ← Catalog.joinEnabled.resolve settings
  let parquetEnabled ← Catalog.parquetEnabled.resolve settings
  let orcEnabled ← Catalog.orcEnabled.resolve settings
  let csvEnabled ← Catalog.csvEnabled.resolve settings
  let batchSizeBytes ← Catalog.batchSizeBytes.resolve settings
  let concurrentGpuTasks ← Catalog.concurrentGpuTasks.resolve settings
  let allocFraction ← Catalog.allocFraction.resolve settings
  let fixupExchangeOverhead ← Catalog.fixupExchangeOverhead.resolve settings
  let testEnabled ← Catalog.testEnabled.resolve settings
  let testAllowedNonGpu ← Catalog.testAllowedNonGpu.resolve settings
  return {
    settings, ruleFlags := .ofList ruleFlags, sqlEnabled, incompatibleOps, explain, ansiEnabled,
    hasNaNs, variableFloatAgg, castFloatToString, castStringToFloat, sessionTimeZone, joinEnabled,
    parquetEnabled, orcEnabled, csvEnabled, batchSizeBytes := batchSizeBytes.bytes,
    concurrentGpuTasks, allocFraction, fixupExchangeOverhead, testEnabled, testAllowedNonGpu }

/-- A new snapshot with one setting replaced. -/
def withSetting (config : Config) (key value : String) : Except PlacementError Config :=
  resolve (config.settings.insert key value)

/-- Whether the session time zone is one of the names of UTC. -/
def isUtc (config : Config) : Bool :=
  ["UTC", "Z", "GMT", "ETC/UTC", "ETC/GMT", "+00:00", "UTC+00:00"].contains
    (upperAscii (trimBlank config.sessionTimeZone))

/-- Whether scans of a file format may run on the device; unknown formats may not. -/
def formatEnabled (config : Config) (format : String) : Bool :=
  match lowerAscii format with
  | "parquet" => config.parquetEnabled
  | "orc" => config.orcEnabled
  | "csv" => config.csvEnabled
  | _ => false

/-- The switch of a rule: an explicit setting of its key wins, incompatible rules follow the
common default, and others are on unless they are off by default. -/
def ruleEnabled (config : Config) (key : String) (incompatible offByDefault : Bool) : Bool :=
  match config.ruleFlags.get? key with
  | some flag => flag
  | none => if incompatible then config.incompatibleOps else !offByDefault

end Config

end GpuPlacement
