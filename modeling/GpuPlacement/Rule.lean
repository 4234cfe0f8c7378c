import GpuPlacement.Decision
/-!
Rules: a declaration, a check of single nodes, and a converter.
-/
namespace GpuPlacement

/-- What the check of a rule sees: the node, its surroundings in the host plan, the settings, and
the decisions about everything that the node depends on. -/
structure TagContext (Node Child : Type) where
  node : Node
  parent : Option Node
  owner : Option HostPlan
  config : Config
  children : List Child
  exprs : List ExprDecision

/-- What a check finds: reasons against the node, and whether conversion may leave it out. -/
structure Finding where
  reasons : List String
  noOp : Bool

namespace Finding

/-- Nothing stands against the node. -/
def clear : Finding := ⟨[], false⟩

def ofReasons (reasons : List String) : Finding := ⟨reasons, false⟩

/-- Conversion leaves the node out. -/
def elided : Finding := ⟨[], true⟩

/-- The reason is added when the condition holds. -/
def reasonIf (condition : Bool) (reason : String) : List String :=
  if condition then [reason] else []

end Finding

structure Rule (Node Child Op : Type) where
  spec : RuleSpec
  check : TagContext Node Child → Finding
  convert : Node → Config → List GpuExpr → Op

/-- Rules for expressions and partitionings. -/
abbrev ExprRule := Rule HostExpr ExprDecision GpuExpr

/-- Rules for operators and scans. Their converters take the converted expressions and, behind
them, the converted partitioning. -/
abbrev OperatorRule := Rule HostPlan PlanDecision GpuOperator

namespace Rule

variable {Node Child Op : Type}

/-- What stands against a node apart from its dependencies: the rule is switched off, a type is
rejected, or the check found something. -/
def examine [HostNode Node] (rule : Rule Node Child Op) (context : TagContext Node Child) :
    Finding :=
  let finding := rule.check context
  { finding with
    reasons := Finding.reasonIf (!rule.spec.enabled context.config) rule.spec.disabledReason
      ++ rule.spec.typeReasons context.node ++ finding.reasons }

def withIncompatibility (rule : Rule Node Child Op) (note : String) : Rule Node Child Op :=
  { rule with spec := { rule.spec with incompatibility := some note } }

def withOffByDefault (rule : Rule Node Child Op) (note : String) : Rule Node Child Op :=
  { rule with spec := { rule.spec with offByDefault := some note } }

def withInputs (rule : Rule Node Child Op) (signature : TypeSignature) : Rule Node Child Op :=
  { rule with spec := { rule.spec with inputs := some signature } }

def withOutput (rule : Rule Node Child Op) (signature : TypeSignature) : Rule Node Child Op :=
  { rule with spec := { rule.spec with output := some signature } }

def asExchange (rule : Rule Node Child Op) : Rule Node Child Op :=
  { rule with spec := { rule.spec with isExchange := true } }

def withCheck (rule : Rule Node Child Op) (check : TagContext Node Child → Finding) :
    Rule Node Child Op :=
  { rule with check }

def withConverter (rule : Rule Node Child Op) (convert : Node → Config → List GpuExpr → Op) :
    Rule Node Child Op :=
  { rule with convert }

end Rule

namespace ExprRule

/-- A rule without a check, which converts nodes in the default way. -/
def ofClass (className : ClassName) (kind : RuleKind) (description : String) : ExprRule where
  spec := .ofClass className kind description
  check _ := .clear
  convert node _ children := .ofHost node children

def expression (name description : String) : ExprRule :=
  ofClass (.expression name) .expression description

def partitioning (name description : String) : ExprRule :=
  ofClass (.expression name) .partitioning description

end ExprRule

namespace OperatorRule

/-- A rule without a check, which converts nodes in the default way. -/
def ofClass (className : ClassName) (kind : RuleKind) (description : String) : OperatorRule where
  spec := .ofClass className kind description
  check _ := .clear
  convert node _ exprs := .ofHost node exprs

def operator (name description : String) : OperatorRule :=
  ofClass (.operator name) .operator description

def scan (name description : String) : OperatorRule :=
  ofClass (.operator name) .scan description

end OperatorRule

end GpuPlacement
