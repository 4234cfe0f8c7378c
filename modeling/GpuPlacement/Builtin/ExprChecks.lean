import GpuPlacement.Rule
import GpuPlacement.Scalar.Cast
/-!
The checks and converters of the built-in expression rules.
-/
namespace GpuPlacement.ExprCheck

abbrev Context := TagContext HostExpr ExprDecision

variable (context : Context)

def short : String :=
  context.node.className.short

/-- Whether the first argument, if there is one, has a type of a class. -/
def firstArgument (isOfClass : DataType → Bool) : Bool :=
  match context.node.children with
  | [] => false
  | child :: _ => isOfClass child.type

/-- Divisions by zero cannot be raised as errors. -/
def ansiDivision : Finding :=
  .ofReasons (Finding.reasonIf context.config.ansiEnabled
    s!"{short context} cannot raise division by zero errors under ANSI mode")

/-- Overflow of integral results cannot be detected. -/
def ansiOverflow : Finding :=
  .ofReasons (Finding.reasonIf
    (context.config.ansiEnabled && context.node.type.isIntegral)
    s!"{short context} on integral types cannot detect overflow under ANSI mode")

def zoneReasons : List String :=
  Finding.reasonIf (!context.config.isUtc)
    ("only UTC is supported for time zone aware expressions, but the session time zone is "
      ++ context.config.sessionTimeZone)

/-- Expressions that depend on the session time zone need UTC. -/
def utcOnly : Finding :=
  .ofReasons (zoneReasons context)

/-- The reasons against a cast between two different types. -/
def castReasons (source target : DataType) : List String :=
  Finding.reasonIf
      (source.isFloating && target = .string && !context.config.castFloatToString)
      (s!"casting {source.name} to string can produce different results than the host; "
        ++ "set accel.sql.castFloatToString.enabled to true to enable")
    ++ Finding.reasonIf
      (source = .string && target.isFloating && !context.config.castStringToFloat)
      (s!"casting string to {target.name} can produce different results than the host; "
        ++ "set accel.sql.castStringToFloat.enabled to true to enable")
    ++ Finding.reasonIf
      (context.config.ansiEnabled && (source = .string || source.isFloating)
        && target.isIntegral)
      s!"casting {source.name} to {target.name} cannot detect overflow under ANSI mode"
    ++ Finding.reasonIf (source = .string && (target = .date || target = .timestamp))
      s!"casting string to {target.name} is not supported"
    ++ (if source.isZoned || target.isZoned then zoneReasons context else [])

/-- A cast to its argument's own type is left out. -/
def cast : Finding :=
  match context.node.children with
  | [] => .ofReasons ["Cast requires exactly one input"]
  | child :: _ =>
    if child.type = context.node.type then .elided
    else .ofReasons (castReasons context child.type context.node.type)

/-- Aggregates run inside hash aggregations only, wherever an operator owns them. -/
def aggregateOwner : Finding :=
  match context.owner with
  | none => .clear
  | some owner =>
    .ofReasons (Finding.reasonIf (owner.className.short ≠ "HashAggregateExec")
      ("aggregate expressions are only supported in HashAggregateExec, not "
        ++ owner.className.short))

/-- Sums of floating point values depend on their order. -/
def variableFloatAgg : List String :=
  Finding.reasonIf
    (firstArgument context DataType.isFloating && !context.config.variableFloatAgg)
    (s!"{short context} over floating point input can produce different results depending on the "
      ++ "order of aggregation; set accel.sql.variableFloatAgg.enabled to true to enable")

def ansiIntegralAgg : List String :=
  Finding.reasonIf (firstArgument context DataType.isIntegral && context.config.ansiEnabled)
    s!"{short context} over integral input cannot detect overflow under ANSI mode"

/-- Sums and averages. -/
def summation : Finding :=
  .ofReasons (variableFloatAgg context ++ ansiIntegralAgg context)

/-- Least and greatest values order NaN in another way than the host. -/
def nanOrder : Finding :=
  .ofReasons (Finding.reasonIf
    (firstArgument context DataType.isFloating && context.config.hasNaNs)
    (s!"{short context} over floating point input does not order NaN like the host; "
      ++ "set accel.sql.hasNans to false if the data contains no NaN"))

/-- Every partitioning key has to be hashable. -/
def hashableKeys : Finding :=
  let unhashable := context.node.children.filter fun key => !key.type.isHashable
  .ofReasons (unhashable.map fun key => s!"hashing {key.type.name} is not supported")

/-- A cast of a literal becomes a literal when its value can be cast. -/
def foldCast (host : HostExpr) (config : Config) (children : List GpuExpr) : GpuExpr :=
  let mode := if config.ansiEnabled then CastMode.ansi else CastMode.legacy
  match children.head?.bind GpuExpr.literalValue? with
  | none => .ofHost host children
  | some value =>
    match value.cast host.type mode with
    | .ok folded => .literal folded
    | .error _ => .ofHost host children

end GpuPlacement.ExprCheck
