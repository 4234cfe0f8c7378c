import GpuPlacement.Device.Plan
import GpuPlacement.Rule.Spec
/-!
Decisions about the nodes of host trees. A decision tree has the shape of the host tree, and
reasons against a node only accumulate: nothing makes a node eligible again.
-/
namespace GpuPlacement

/-- What is known about one host node. -/
structure Decision (Node Op : Type) where
  node : Node
  /-- The rule of the node's class. -/
  rule : Option RuleSpec
  kind : RuleKind
  /-- The host parent in the same kind of tree. -/
  parent : Option Node
  /-- The operator that owns an expression. -/
  owner : Option HostPlan
  /-- Why the node cannot run on the device, oldest first. -/
  reasons : List String
  /-- Whether conversion leaves the node out. -/
  noOp : Bool
  /-- What the last successful conversion made of the node. -/
  converted : Option Op

namespace Decision

variable {Node Op : Type}

/-- The decision before any tagging. -/
def undecided (node : Node) (rule : Option RuleSpec) (defaultKind : RuleKind)
    (parent : Option Node) (owner : Option HostPlan) : Decision Node Op where
  node := node
  rule := rule
  kind := (rule.map RuleSpec.kind).getD defaultKind
  parent := parent
  owner := owner
  reasons := []
  noOp := false
  converted := none

def eligible (decision : Decision Node Op) : Bool :=
  decision.reasons.isEmpty

/-- Adds a reason against the node. -/
def reject (decision : Decision Node Op) (reason : String) : Decision Node Op :=
  { decision with reasons := decision.reasons ++ [reason] }

def isExchange (decision : Decision Node Op) : Bool :=
  (decision.rule.map RuleSpec.isExchange).getD false

variable [HostNode Node]

/-- The short name of the node's class. -/
def short (decision : Decision Node Op) : String :=
  (HostNode.className decision.node).short

/-- The node's rule, or an error with the reasons that stand against it. -/
def ensureEligible (decision : Decision Node Op) : Except PlacementError RuleSpec :=
  match decision.rule, decision.eligible with
  | some rule, true => .ok rule
  | _, _ => .error (.notConvertible decision.short decision.reasons)

end Decision

structure ExprDecision where
  decision : Decision HostExpr GpuExpr
  children : List ExprDecision

structure PlanDecision where
  decision : Decision HostPlan GpuOperator
  /-- The expressions that the operator evaluates and, behind them, its partitioning. -/
  exprs : List ExprDecision
  children : List PlanDecision

namespace ExprDecision

def short (tree : ExprDecision) : String :=
  tree.decision.short

def eligible (tree : ExprDecision) : Bool :=
  tree.decision.eligible

/-- Adds a reason against the root. -/
def reject (tree : ExprDecision) (reason : String) : ExprDecision :=
  { tree with decision := tree.decision.reject reason }

mutual

/-- How many nodes are eligible, and how many there are. -/
def counts : ExprDecision → Nat × Nat
  | ⟨decision, children⟩ =>
    let (eligible, total) := countsOfAll children
    (decision.eligible.toNat + eligible, total + 1)

def countsOfAll : List ExprDecision → Nat × Nat
  | [] => (0, 0)
  | tree :: rest =>
    let (eligible, total) := tree.counts
    let (eligible', total') := countsOfAll rest
    (eligible + eligible', total + total')

end

mutual

/-- The decisions of a tree, parents before children. -/
def walk : ExprDecision → List (Decision HostExpr GpuExpr)
  | ⟨decision, children⟩ => decision :: walkAll children

def walkAll : List ExprDecision → List (Decision HostExpr GpuExpr)
  | [] => []
  | tree :: rest => tree.walk ++ walkAll rest

end

end ExprDecision

namespace PlanDecision

def short (tree : PlanDecision) : String :=
  tree.decision.short

def eligible (tree : PlanDecision) : Bool :=
  tree.decision.eligible

/-- Adds a reason against the root. -/
def reject (tree : PlanDecision) (reason : String) : PlanDecision :=
  { tree with decision := tree.decision.reject reason }

mutual

/-- How many nodes are eligible, and how many there are; expressions count, too. -/
def counts : PlanDecision → Nat × Nat
  | ⟨decision, exprs, children⟩ =>
    let (inExprs, exprTotal) := ExprDecision.countsOfAll exprs
    let (inChildren, childTotal) := countsOfAll children
    (decision.eligible.toNat + inExprs + inChildren, exprTotal + childTotal + 1)

def countsOfAll : List PlanDecision → Nat × Nat
  | [] => (0, 0)
  | tree :: rest =>
    let (eligible, total) := tree.counts
    let (eligible', total') := countsOfAll rest
    (eligible + eligible', total + total')

end

mutual

/-- The decisions about operators, parents before children. -/
def walk : PlanDecision → List (Decision HostPlan GpuOperator)
  | ⟨decision, _, children⟩ => decision :: walkAll children

def walkAll : List PlanDecision → List (Decision HostPlan GpuOperator)
  | [] => []
  | tree :: rest => tree.walk ++ walkAll rest

end

end PlanDecision

end GpuPlacement
