import GpuPlacement.Builtin.ExprRules
import GpuPlacement.Builtin.OperatorChecks
import GpuPlacement.Registry
/-!
The built-in rules for operators and scans.
-/
namespace GpuPlacement.Builtin

/-- A rule for an operator whose columns may have any flat or nested type. -/
def columnarRule (name description : String) : OperatorRule :=
  (OperatorRule.operator name description).withOutput columnTypes

def rowRules : List OperatorRule :=
  [(columnarRule "ProjectExec"
      "The backend for most select, withColumn and dropColumn statements").withCheck
      OperatorCheck.identityProjection,
    (columnarRule "FilterExec" "The backend for most filter statements").withCheck
      OperatorCheck.filterCondition,
    (columnarRule "HashAggregateExec" "The backend for hash based aggregations").withCheck
      OperatorCheck.groupingKeys,
    (columnarRule "SortExec" "The backend for the sort operator").withCheck
      OperatorCheck.sortKeys,
    (columnarRule "LocalLimitExec" "Per-partition limiting of results").withCheck
      OperatorCheck.limit,
    (columnarRule "GlobalLimitExec" "Limiting of results across partitions").withCheck
      OperatorCheck.limit,
    (columnarRule "UnionExec" "The backend for the union operator").withCheck
      OperatorCheck.unionArity]

def exchangeRules : List OperatorRule :=
  [((columnarRule "ShuffleExchangeExec"
      "The backend for most data being exchanged between processes").asExchange).withCheck
      OperatorCheck.shufflePartitioning,
    (columnarRule "BroadcastExchangeExec"
      "The backend for broadcast exchange of data").asExchange]

def joinRules : List OperatorRule :=
  [(columnarRule "ShuffledHashJoinExec"
      "Implementation of join using hashed shuffled data").withCheck OperatorCheck.hashJoin,
    (columnarRule "BroadcastHashJoinExec" "Implementation of join using broadcast data").withCheck
      OperatorCheck.broadcastJoin,
    (columnarRule "CartesianProductExec"
      "Implementation of join using brute force").withOffByDefault
      "large joins can cause out of memory errors"]

def batchRules : List OperatorRule :=
  [(columnarRule "CoalesceBatchesExec"
      "The backend for combining small batches into larger ones").withConverter
      (OperatorCheck.withBatchSize "target_batch_bytes"),
    (((OperatorRule.scan "FileSourceScanExec"
      "Reading data from files, often from Hive tables").withOutput columnTypes).withCheck
      OperatorCheck.fileScan).withConverter (OperatorCheck.withBatchSize "batch_size_bytes")]

def operatorRules : List OperatorRule :=
  rowRules ++ exchangeRules ++ joinRules ++ batchRules

/-- The registry of all built-in rules. -/
def registry : Registry where
  exprs := .ofList exprRules
  operators := .ofList operatorRules

end GpuPlacement.Builtin
