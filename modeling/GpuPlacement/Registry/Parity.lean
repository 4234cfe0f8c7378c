import GpuPlacement.Registry
import GpuPlacement.Text.Quoted
/-!
Parity of parameters. Converters carry parameters over silently, so a table declares for every
class with parameters which ones its replacement has, and sample nodes are converted and compared
with it.
-/
namespace GpuPlacement

/-- A row of the parity table. -/
structure ParamParity where
  /-- The short name of the host class. -/
  host : String
  kind : RuleKind
  /-- The parameters of the host node; an expression's own name counts as `name`. -/
  hostParams : List String
  /-- The name of the replacement. -/
  gpu : String
  /-- All parameters of the replacement, in order. -/
  gpuParams : List String
  deriving DecidableEq

namespace ParamParity

/-- A row whose replacement has the default name and the parameters of the host node. -/
def same (host : String) (kind : RuleKind) (params : List String) : ParamParity :=
  ⟨host, kind, params, "Gpu" ++ host, params⟩

/-- Every class whose nodes carry parameters. -/
def table : List ParamParity :=
  [same "Literal" .expression ["value"],
    same "AttributeReference" .expression ["name"],
    same "Alias" .expression ["name"],
    same "SortOrder" .expression ["ascending", "nulls_first"],
    same "AggregateExpression" .expression ["distinct"],
    same "HashPartitioning" .partitioning ["num_partitions"],
    same "RangePartitioning" .partitioning ["num_partitions"],
    same "RoundRobinPartitioning" .partitioning ["num_partitions"],
    same "HashAggregateExec" .operator ["num_grouping"],
    same "LocalLimitExec" .operator ["limit"],
    same "GlobalLimitExec" .operator ["limit", "offset"],
    same "SortExec" .operator ["global"],
    same "ShuffledHashJoinExec" .operator ["join_type", "num_left_keys"],
    same "BroadcastHashJoinExec" .operator ["build_side", "join_type", "num_left_keys"],
    ⟨"CoalesceBatchesExec", .operator, [], "GpuCoalesceBatchesExec", ["target_batch_bytes"]⟩,
    ⟨"FileSourceScanExec", .scan, ["format"], "GpuFileSourceScanExec",
      ["batch_size_bytes", "format"]⟩]

/-- A value for a parameter of a sample node. -/
def sampleValue (param : String) : ParamValue :=
  match param with
  | "value" => .scalar (.int 1)
  | "format" => .text "parquet"
  | "join_type" => .text "inner"
  | "build_side" => .text "right"
  | "ascending" | "nulls_first" | "distinct" | "global" => .bool true
  | _ => .int 1

/-- An expression with sample values for parameters. -/
def sampleExpr (host : String) (params : List String) : HostExpr :=
  params.foldl
    (fun expr param =>
      if param = "name" then { expr with name := some "c" }
      else expr.withParam param (sampleValue param))
    (.call host .int [])

/-- An operator with sample values for parameters. -/
def samplePlan (host : String) (params : List String) : HostPlan :=
  params.foldl (fun plan param => plan.withParam param (sampleValue param)) (.ofClass host)

/-- The name and the parameters of what a registry makes of a row's sample node. -/
def convertSample? (registry : Registry) (config : Config) (row : ParamParity) :
    Option (String × List String) :=
  match row.kind with
  | .expression | .partitioning =>
    (registry.exprs.find? (.expression row.host)).map fun rule =>
      let converted := rule.convert (sampleExpr row.host row.hostParams) config []
      (converted.name, converted.params.keys)
  | .operator | .scan =>
    (registry.operators.find? (.operator row.host)).map fun rule =>
      let converted := rule.convert (samplePlan row.host row.hostParams) config []
      (converted.name, converted.params.keys)

/-- The text of a set of names. -/
def namesText (names : List String) : String :=
  "\x7b" ++ ", ".intercalate (names.map quoteText) ++ "\x7d"

/-- How the conversion of a row's sample node differs from the row. -/
def mismatch? (registry : Registry) (config : Config) (row : ParamParity) : Option String :=
  match row.convertSample? registry config with
  | none => some s!"{row.host}: no rule registered"
  | some (name, params) =>
    if name ≠ row.gpu then some s!"{row.host}: converts to {name}, expected {row.gpu}"
    else if params ≠ row.gpuParams then
      some (s!"{row.host}: GPU params {namesText params} do not match declared "
        ++ namesText row.gpuParams)
    else none

end ParamParity

/-- One message for every row of the parity table that a registry's converters do not match. -/
def Registry.parityMismatches (registry : Registry) (config : Config) : List String :=
  ParamParity.table.filterMap fun row => row.mismatch? registry config

end GpuPlacement
