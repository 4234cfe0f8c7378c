import GpuPlacement.DataType.Signature
import GpuPlacement.Host.Plan
import GpuPlacement.Rule.Kind
import GpuPlacement.Settings.Config
/-!
What a rule declares about the class that it replaces: its category, its documentation, whether
settings switch it on, and the types that it takes and gives.
-/
namespace GpuPlacement

/-- What rules read of a host node. -/
class HostNode (Node : Type) where
  className : Node → ClassName
  /-- The text of a node in reports. -/
  describe : Node → String
  /-- The types that the node consumes. -/
  inputTypes : Node → List DataType
  /-- The types that the node produces. -/
  outputTypes : Node → List DataType

instance : HostNode HostExpr where
  className := HostExpr.className
  describe := HostExpr.sql
  inputTypes expr := expr.children.map (·.type)
  outputTypes expr := [expr.type]

instance : HostNode HostPlan where
  className := HostPlan.className
  describe := HostPlan.describe
  inputTypes plan := plan.children.flatMap fun child => child.output.map (·.type)
  outputTypes plan := plan.output.map (·.type)

structure RuleSpec where
  className : ClassName
  kind : RuleKind
  description : String
  /-- How results differ from those of the host, for rules that are not fully compatible. -/
  incompatibility : Option String
  /-- Why the rule is off unless its key is set. -/
  offByDefault : Option String
  inputs : Option TypeSignature
  output : Option TypeSignature
  /-- Whether the operator exchanges data between processes. -/
  isExchange : Bool

namespace RuleSpec

/-- A rule that is on, takes and gives any type, and has nothing to note. -/
def ofClass (className : ClassName) (kind : RuleKind) (description : String) : RuleSpec :=
  ⟨className, kind, description, none, none, none, none, false⟩

def short (spec : RuleSpec) : String :=
  spec.className.short

/-- The setting that switches the rule on or off. -/
def key (spec : RuleSpec) : String :=
  s!"accel.sql.{spec.kind.keyPart}.{spec.short}"

def enabledByDefault (spec : RuleSpec) : Bool :=
  spec.incompatibility.isNone && spec.offByDefault.isNone

def enabled (spec : RuleSpec) (config : Config) : Bool :=
  config.ruleEnabled spec.key spec.incompatibility.isSome spec.offByDefault.isSome

/-- The reason of a rule that is switched off, with its note in parentheses. -/
def disabledReason (spec : RuleSpec) : String :=
  let note :=
    match spec.incompatibility.or spec.offByDefault with
    | some text => s!" ({text})"
    | none => ""
  s!"{lowerAscii spec.kind.label} {spec.short} has been disabled by configuration; "
    ++ s!"set {spec.key} to true to enable{note}"

/-- The complaints about types that a signature, if there is one, rejects. -/
def rejections (signature : Option TypeSignature) (types : List DataType) : List String :=
  match signature with
  | none => []
  | some signature => types.filterMap signature.rejection?

/-- The complaints about a node's types, about inputs before outputs. -/
def typeReasons {Node : Type} [HostNode Node] (spec : RuleSpec) (node : Node) : List String :=
  (rejections spec.inputs (HostNode.inputTypes node)).map (s!"{spec.short} input type {·}")
    ++ (rejections spec.output (HostNode.outputTypes node)).map (s!"{spec.short} output type {·}")

end RuleSpec

end GpuPlacement
