import GpuPlacement.Settings.Entry
/-!
Every built-in setting, and the documentation of those that users may set.
-/
namespace GpuPlacement

namespace Catalog

/-- The master switch. -/
def sqlEnabled : Entry Bool where
  key := "accel.sql.enabled"
  doc := "Enable (true) or disable (false) GPU acceleration of SQL operators."
  internal := false
  default := true
  validator := none

/-- The default of rules that are flagged as incompatible. -/
def incompatibleOps : Entry Bool where
  key := "accel.sql.incompatibleOps.enabled"
  doc := "For operations that work, but are not 100% compatible with the host implementation, "
    ++ "enable them by default. Individual rule keys still win."
  internal := false
  default := false
  validator := none

def explain : Entry ReportMode where
  key := "accel.sql.explain"
  doc := "Explain why some parts of a query were not placed on the GPU: ALL, NONE or NOT_ON_GPU."
  internal := false
  default := .none
  validator := none

def ansiEnabled : Entry Bool where
  key := "accel.sql.ansi.enabled"
  doc := "Whether the host engine runs with ANSI arithmetic and cast semantics."
  internal := false
  default := false
  validator := none

def hasNaNs : Entry Bool where
  key := "accel.sql.hasNans"
  doc := "Set to false when float and double data is known to contain no NaNs; enables min and "
    ++ "max on floating point columns."
  internal := false
  default := true
  validator := none

def variableFloatAgg : Entry Bool where
  key := "accel.sql.variableFloatAgg.enabled"
  doc := "Allow floating point aggregations whose results can vary with the order in which "
    ++ "values are combined."
  internal := false
  default := false
  validator := none

def castFloatToString : Entry Bool where
  key := "accel.sql.castFloatToString.enabled"
  doc := "Allow casts from float and double to string. The GPU renders some values with "
    ++ "different digits than the host."
  internal := false
  default := false
  validator := none

def castStringToFloat : Entry Bool where
  key := "accel.sql.castStringToFloat.enabled"
  doc := "Allow casts from string to float and double. Rounding of the last digit can differ "
    ++ "from the host."
  internal := false
  default := false
  validator := none

def sessionTimeZone : Entry String where
  key := "accel.sql.session.timeZone"
  doc := "Session time zone. Time zone aware expressions only run on the GPU in UTC."
  internal := false
  default := "UTC"
  validator := none

def joinEnabled : Entry Bool where
  key := "accel.sql.join.enabled"
  doc := "Enable hash joins on the GPU."
  internal := false
  default := true
  validator := none

def parquetEnabled : Entry Bool where
  key := "accel.sql.format.parquet.enabled"
  doc := "Enable parquet scans on the GPU."
  internal := false
  default := true
  validator := none

def orcEnabled : Entry Bool where
  key := "accel.sql.format.orc.enabled"
  doc := "Enable ORC scans on the GPU."
  internal := false
  default := true
  validator := none

def csvEnabled : Entry Bool where
  key := "accel.sql.format.csv.enabled"
  doc := "Enable CSV scans on the GPU. Quoting and number parsing differ from the host."
  internal := false
  default := false
  validator := none

def batchSizeBytes : Entry ByteSize where
  key := "accel.sql.batchSizeBytes"
  doc := "Target size of columnar batches produced by row to columnar transitions."
  internal := false
  default := ⟨2147483647⟩
  validator := some ⟨fun size => 0 < size.bytes, "must be greater than 0"⟩

def concurrentGpuTasks : Entry Int32 where
  key := "accel.sql.concurrentGpuTasks"
  doc := "Number of tasks that may use the device concurrently."
  internal := false
  default := 1
  validator := some ⟨fun tasks => 1 ≤ tasks, "must be at least 1"⟩

/-- Whether a word is a number from zero to one; both zeros are. -/
def isFraction (word : Binary64) : Bool :=
  match word.datum with
  | .finite negative significand exponent =>
    significand = 0 ||
      (!negative && (if 0 ≤ exponent then significand * Nat.pow 2 exponent.toNat ≤ 1
        else significand ≤ Nat.pow 2 (-exponent).toNat))
  | _ => false

def allocFraction : Entry Binary64 where
  key := "accel.memory.gpu.allocFraction"
  doc := "Fraction of device memory reserved for the allocation pool."
  internal := false
  default := .ofDecimal ⟨false, 9, -1⟩
  validator := some ⟨isFraction, "must be within [0, 1]"⟩

/-- Moves exchanges back to the host when both neighbours stay there. -/
def fixupExchangeOverhead : Entry Bool where
  key := "accel.sql.exchange.fixupOverhead"
  doc := "Keep exchanges on the host when neither their input nor consumer is on the GPU."
  internal := true
  default := true
  validator := none

def testEnabled : Entry Bool where
  key := "accel.sql.test.enabled"
  doc := "Fail query compilation if any operator or expression stays on the host."
  internal := true
  default := false
  validator := none

def testAllowedNonGpu : Entry (List String) where
  key := "accel.sql.test.allowedNonGpu"
  doc := "Operator and expression names allowed to stay on the host in test mode."
  internal := true
  default := []
  validator := none

/-- Every entry, in the order in which settings are checked and documented. -/
def all : List EntryView :=
  [sqlEnabled.view, incompatibleOps.view, explain.view, ansiEnabled.view, hasNaNs.view,
    variableFloatAgg.view, castFloatToString.view, castStringToFloat.view, sessionTimeZone.view,
    joinEnabled.view, parquetEnabled.view, orcEnabled.view, csvEnabled.view, batchSizeBytes.view,
    concurrentGpuTasks.view, allocFraction.view, fixupExchangeOverhead.view, testEnabled.view,
    testAllowedNonGpu.view]

def documentationRow (entry : EntryView) : String :=
  s!"<a name=\"{entry.key}\"></a>{entry.key}|{entry.doc}|{entry.defaultText}\n"

/-- A table of all settings that users may set. -/
def documentation : String :=
  "Name | Description | Default Value\n-----|-------------|--------------\n"
    ++ String.join ((all.filter (!·.internal)).map documentationRow)

end Catalog

end GpuPlacement
