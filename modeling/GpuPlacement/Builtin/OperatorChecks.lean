import GpuPlacement.Rule
/-!
The checks and converters of the built-in operator rules.
-/
namespace GpuPlacement

/-- The greatest count that a machine word holds. -/
def greatestCount : Nat := UInt64.size - 1

namespace Params

/-- A parameter that counts expressions: zero without it, and beyond every list when it is
negative. -/
def count (params : Params) (key : String) : Nat :=
  match params.int? key with
  | none => 0
  | some value => if value < 0 then greatestCount else value.toInt.toNat

end Params

/-- The formats that file scans read. -/
def scanFormats : List String := ["parquet", "orc", "csv"]

/-- The types of hash joins that the device has. -/
def supportedJoinTypes : List String :=
  ["inner", "left_outer", "right_outer", "left_semi", "left_anti", "full_outer"]

namespace OperatorCheck

abbrev Context := TagContext HostPlan PlanDecision

/-- Whether an expression only refers to a column of the same name and type. -/
def refersTo (expr : HostExpr) (column : Column) : Bool :=
  expr.className = .expression "AttributeReference" && expr.name = some column.name
    && expr.type = column.type

/-- Whether expressions refer to all columns in order. -/
def isIdentity (expressions : List HostExpr) (columns : List Column) : Bool :=
  expressions.length = columns.length
    && (expressions.zip columns).all fun pair => refersTo pair.1 pair.2

/-- A projection onto its input's own columns is left out. -/
def identityProjection (context : Context) : Finding :=
  match context.node.children with
  | [child] => ⟨[], isIdentity context.node.expressions child.output⟩
  | _ => .clear

def filterCondition (context : Context) : Finding :=
  match context.node.expressions with
  | [] => .ofReasons ["FilterExec has no condition"]
  | condition :: _ =>
    .ofReasons (Finding.reasonIf (condition.type ≠ .boolean)
      s!"filter condition must be boolean, but is {condition.type.name}")

/-- A complaint about every expression whose type is not of a class. -/
def complaints (isOfClass : DataType → Bool) (activity : String) (keys : List HostExpr) :
    List String :=
  (keys.filter fun key => !isOfClass key.type).map fun key =>
    s!"{activity} on {key.type.name} is not supported"

/-- The grouping keys lead the expressions and have to be hashable. -/
def groupingKeys (context : Context) : Finding :=
  let expressions := context.node.expressions
  let grouping := context.node.params.count "num_grouping"
  if expressions.length < grouping then
    .ofReasons [s!"num_grouping {grouping} exceeds the {expressions.length} aggregate expressions"]
  else .ofReasons (complaints DataType.isHashable "grouping" (expressions.take grouping))

def sortKeys (context : Context) : Finding :=
  .ofReasons (complaints DataType.isOrderable "sorting" context.node.expressions)

def limit (context : Context) : Finding :=
  let valid :=
    match context.node.params.int? "limit" with
    | some limit => decide (0 ≤ limit)
    | none => false
  .ofReasons (Finding.reasonIf (!valid) "limit must be a non-negative integer")

/-- Whether all inputs have equally many columns. -/
def sameWidths (plans : List HostPlan) : Bool :=
  match plans with
  | [] => true
  | first :: rest => rest.all fun plan => plan.output.length = first.output.length

def unionArity (context : Context) : Finding :=
  .ofReasons (Finding.reasonIf (!sameWidths context.node.children)
    "union inputs must have the same number of columns")

def shufflePartitioning (context : Context) : Finding :=
  .ofReasons (Finding.reasonIf context.node.partitioning.isNone
    "ShuffleExchangeExec has no output partitioning")

/-- The reasons against a hash join: its expressions are the left keys and as many right keys. -/
def joinReasons (context : Context) : List String :=
  let plan := context.node
  let joinType := (plan.params.text? "join_type").getD "inner"
  let leftKeys := plan.params.count "num_left_keys"
  Finding.reasonIf (!context.config.joinEnabled)
      ("hash joins have been disabled by configuration; "
        ++ "set accel.sql.join.enabled to true to enable")
    ++ Finding.reasonIf (!supportedJoinTypes.contains joinType)
      s!"{joinType} joins are not supported"
    ++ Finding.reasonIf (2 * leftKeys ≠ plan.expressions.length)
      (s!"join has {plan.expressions.length} keys but {leftKeys} left keys; "
        ++ "left and right key counts must match")
    ++ complaints DataType.isHashable "joining" plan.expressions

def hashJoin (context : Context) : Finding :=
  .ofReasons (joinReasons context)

/-- The place of a broadcast join's build side among its inputs. -/
def buildSide (plan : HostPlan) : Nat :=
  if plan.params.text? "build_side" = some "left" then 0 else 1

/-- The build side has to be a broadcast that runs on the device. -/
def buildSideReasons (context : Context) : List String :=
  match context.children[buildSide context.node]? with
  | none => ["broadcast join is missing its build side"]
  | some build =>
    if build.short ≠ "BroadcastExchangeExec" then
      [s!"the build side must be a BroadcastExchangeExec, not {build.short}"]
    else
      Finding.reasonIf (!build.eligible) "the broadcast for this join must be on the GPU too"

def broadcastJoin (context : Context) : Finding :=
  .ofReasons (joinReasons context ++ buildSideReasons context)

/-- The reasons against a scan of a format: the format is unknown or switched off, or it cannot
hold a column. -/
def formatReasons (config : Config) (format : String) (output : List Column) : List String :=
  if !scanFormats.contains format then [s!"{format} files are not supported"]
  else
    Finding.reasonIf (!config.formatEnabled format)
        (s!"reading {format} files has been disabled by configuration; "
          ++ s!"set accel.sql.format.{format}.enabled to true to enable")
      ++ (if format = "csv" then
          (output.filter fun column => column.type.isNested).map fun column =>
            s!"csv does not support column {column.name} of type {column.type.name}"
        else [])

def fileScan (context : Context) : Finding :=
  match context.node.params.text? "format" with
  | none => .ofReasons ["scan has no file format"]
  | some format =>
    .ofReasons (formatReasons context.config (lowerAscii format) context.node.output)

/-- The default conversion with the batch size as one more parameter, as far as a signed word
holds it. -/
def withBatchSize (key : String) (plan : HostPlan) (config : Config) (exprs : List GpuExpr) :
    GpuOperator :=
  (GpuOperator.ofHost plan exprs).withParam key
    (.int (.ofInt (min config.batchSizeBytes.toNat Int64.maxValue.toInt)))

end OperatorCheck

end GpuPlacement
