import GpuPlacement.Registry
/-!
Tagging: every node of a host tree is looked up in a registry and examined, dependencies before
the nodes that depend on them. A later pass sends exchanges back to the host that have no device
neighbour.
-/
namespace GpuPlacement

/-- The reason against a node whose class has no rule. -/
def missingRuleReason (kind : RuleKind) (short : String) : String :=
  s!"no GPU implementation of {lowerAscii kind.label} {short} could be found"

/-- Notes what a pass found out about a node: nothing is found without a rule, and a reason that
comes from the node's dependencies stands last. -/
def Decision.judge {Node Op : Type} [HostNode Node] (decision : Decision Node Op)
    (finding : Option Finding) (dependency : Option String) : Decision Node Op :=
  match finding with
  | none => decision.reject (missingRuleReason decision.kind decision.short)
  | some finding =>
    { decision with
      reasons := decision.reasons ++ (finding.reasons ++ dependency.toList)
      noOp := decision.noOp || finding.noOp }

namespace ExprDecision

mutual

/-- An undecided tree. Only the root has the given kind by default; arguments are expressions. -/
def ofExprAt (registry : Registry) (defaultKind : RuleKind) (parent : Option HostExpr)
    (owner : Option HostPlan) : HostExpr → ExprDecision
  | ⟨className, type, nullable, name, params, children⟩ =>
    let expr := ⟨className, type, nullable, name, params, children⟩
    let rule := registry.exprs.find? className
    ⟨.undecided expr (rule.map Rule.spec) defaultKind parent owner,
      ofArguments registry (some expr) owner children⟩

def ofArguments (registry : Registry) (parent : Option HostExpr) (owner : Option HostPlan) :
    List HostExpr → List ExprDecision
  | [] => []
  | expr :: rest =>
    ofExprAt registry .expression parent owner expr :: ofArguments registry parent owner rest

end

/-- The undecided tree of an expression that stands alone. -/
def ofExpr (registry : Registry) (expr : HostExpr) : ExprDecision :=
  ofExprAt registry .expression none none expr

/-- The reason that the first ineligible argument gives against an expression. -/
def dependencyReason (children : List ExprDecision) : Option String :=
  (children.find? fun child => !child.eligible).map fun child =>
    s!"not all child expressions can run on GPU: {child.short}"

/-- Examines one expression whose arguments are tagged. -/
def examine (registry : Registry) (config : Config) (decision : Decision HostExpr GpuExpr)
    (children : List ExprDecision) : Decision HostExpr GpuExpr :=
  decision.judge
    ((registry.exprs.find? decision.node.className).map fun rule =>
      rule.examine ⟨decision.node, decision.parent, decision.owner, config, children, []⟩)
    (dependencyReason children)

mutual

/-- Tags every node of an expression tree. -/
def tag (registry : Registry) (config : Config) : ExprDecision → ExprDecision
  | ⟨decision, children⟩ =>
    let children := tagAll registry config children
    ⟨examine registry config decision children, children⟩

def tagAll (registry : Registry) (config : Config) : List ExprDecision → List ExprDecision
  | [] => []
  | tree :: rest => tree.tag registry config :: tagAll registry config rest

end

end ExprDecision

namespace PlanDecision

/-- The undecided trees of an operator's expressions and of its partitioning. -/
def ofExpressions (registry : Registry) (plan : HostPlan) : List ExprDecision :=
  plan.expressions.map (ExprDecision.ofExprAt registry .expression none (some plan))
    ++ plan.partitioning.toList.map
      (ExprDecision.ofExprAt registry .partitioning none (some plan))

mutual

/-- The undecided tree below a host parent. -/
def ofPlanBelow (registry : Registry) (parent : Option HostPlan) : HostPlan → PlanDecision
  | ⟨className, output, expressions, partitioning, params, children⟩ =>
    let plan := ⟨className, output, expressions, partitioning, params, children⟩
    let rule := registry.operators.find? className
    ⟨.undecided plan (rule.map Rule.spec) .operator parent none, ofExpressions registry plan,
      ofInputs registry (some plan) children⟩

def ofInputs (registry : Registry) (parent : Option HostPlan) :
    List HostPlan → List PlanDecision
  | [] => []
  | plan :: rest => ofPlanBelow registry parent plan :: ofInputs registry parent rest

end

/-- The undecided tree of a plan. -/
def ofPlan (registry : Registry) (plan : HostPlan) : PlanDecision :=
  ofPlanBelow registry none plan

/-- The reason that ineligible expressions give against their operator. Inputs give none, as
transitions stand between operators. -/
def dependencyReason (exprs : List ExprDecision) : Option String :=
  match exprs.filter fun expr => !expr.eligible with
  | [] => none
  | failing =>
    some ("not all expressions can be replaced: "
      ++ ", ".intercalate (failing.map ExprDecision.short))

/-- Examines one operator whose expressions and inputs are tagged. -/
def examine (registry : Registry) (config : Config) (decision : Decision HostPlan GpuOperator)
    (exprs : List ExprDecision) (children : List PlanDecision) : Decision HostPlan GpuOperator :=
  decision.judge
    ((registry.operators.find? decision.node.className).map fun rule =>
      rule.examine ⟨decision.node, decision.parent, decision.owner, config, children, exprs⟩)
    (dependencyReason exprs)

mutual

/-- Tags every operator and expression of a plan. -/
def tag (registry : Registry) (config : Config) : PlanDecision → PlanDecision
  | ⟨decision, exprs, children⟩ =>
    let children := tagAll registry config children
    let exprs := ExprDecision.tagAll registry config exprs
    ⟨examine registry config decision exprs children, exprs, children⟩

def tagAll (registry : Registry) (config : Config) : List PlanDecision → List PlanDecision
  | [] => []
  | tree :: rest => tree.tag registry config :: tagAll registry config rest

end

/-- The reason against an exchange that only the host would use. -/
def exchangeReason : String :=
  "columnar exchange without columnar children and parent is inefficient"

/-- Rejects an eligible exchange when neither its consumer nor any of its inputs is eligible. -/
def settleExchange (parentEligible : Bool) (decision : Decision HostPlan GpuOperator)
    (children : List PlanDecision) : Decision HostPlan GpuOperator :=
  if decision.isExchange && decision.eligible && !parentEligible
      && children.all (fun child => !child.eligible) then
    decision.reject exchangeReason
  else decision

mutual

/-- Settles every exchange, each one after its consumer and before its inputs. -/
def settleBelow (parentEligible : Bool) : PlanDecision → PlanDecision
  | ⟨decision, exprs, children⟩ =>
    let settled := settleExchange parentEligible decision children
    ⟨settled, exprs, settleInputs settled.eligible children⟩

def settleInputs (parentEligible : Bool) : List PlanDecision → List PlanDecision
  | [] => []
  | tree :: rest => tree.settleBelow parentEligible :: settleInputs parentEligible rest

end

/-- Settles the exchanges of a plan. Whoever takes the plan's result runs on the host. -/
def settleExchanges (tree : PlanDecision) : PlanDecision :=
  tree.settleBelow false

end PlanDecision

end GpuPlacement
