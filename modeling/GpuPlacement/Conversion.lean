import GpuPlacement.Tagging
/-!
Conversion of tagged trees. A conversion gives its result together with the tree as it leaves it:
nodes keep what they were converted to, also those that were converted before a later failure.
-/
namespace GpuPlacement

namespace ExprDecision

/-- What the rule of a class makes of an expression. -/
def convertNode (registry : Registry) (config : Config) (expr : HostExpr)
    (children : List GpuExpr) : GpuExpr :=
  match registry.exprs.find? expr.className with
  | some rule => rule.convert expr config children
  | none => .ofHost expr children

/-- The device expression of a node whose arguments are converted: a node that is left out gives
way to its first argument. -/
def combine (registry : Registry) (config : Config) (decision : Decision HostExpr GpuExpr)
    (children : List GpuExpr) : Except PlacementError GpuExpr :=
  if decision.noOp then
    match children with
    | child :: _ => .ok child
    | [] => .error (.invalidPlan (.elidedWithoutChild decision.short))
  else .ok (convertNode registry config decision.node children)

mutual

/-- Converts an eligible tree. A node that was converted before gives the same result again. -/
def convert (registry : Registry) (config : Config) :
    ExprDecision → Except PlacementError GpuExpr × ExprDecision
  | ⟨decision, children⟩ =>
    match decision.converted with
    | some done => (.ok done, ⟨decision, children⟩)
    | none =>
      match decision.ensureEligible with
      | .error error => (.error error, ⟨decision, children⟩)
      | .ok _ =>
        match convertAll registry config children with
        | (.error error, children) => (.error error, ⟨decision, children⟩)
        | (.ok arguments, children) =>
          match combine registry config decision arguments with
          | .error error => (.error error, ⟨decision, children⟩)
          | .ok expr => (.ok expr, ⟨{ decision with converted := some expr }, children⟩)

/-- Converts trees from first to last and stops at the first failure. -/
def convertAll (registry : Registry) (config : Config) :
    List ExprDecision → Except PlacementError (List GpuExpr) × List ExprDecision
  | [] => (.ok [], [])
  | tree :: rest =>
    match tree.convert registry config with
    | (.error error, tree) => (.error error, tree :: rest)
    | (.ok expr, tree) =>
      match convertAll registry config rest with
      | (.error error, rest) => (.error error, tree :: rest)
      | (.ok exprs, rest) => (.ok (expr :: exprs), tree :: rest)

end

end ExprDecision

namespace PlanDecision

/-- What the rule of a class makes of an operator. -/
def convertNode (registry : Registry) (config : Config) (plan : HostPlan)
    (exprs : List GpuExpr) : GpuOperator :=
  match registry.operators.find? plan.className with
  | some rule => rule.convert plan config exprs
  | none => .ofHost plan exprs

/-- The device operator of a node: the one that it was converted to before, if any. -/
def operatorOf (registry : Registry) (config : Config) (decision : Decision HostPlan GpuOperator)
    (exprs : List GpuExpr) : GpuOperator :=
  decision.converted.getD (convertNode registry config decision.node exprs)

mutual

/-- Converts an eligible operator, and its inputs as they need it. A node that is left out gives
way to its first input. -/
def convert (registry : Registry) (config : Config) :
    PlanDecision → Except PlacementError PlacedNode × PlanDecision
  | ⟨decision, exprs, children⟩ =>
    match decision.ensureEligible with
    | .error error => (.error error, ⟨decision, exprs, children⟩)
    | .ok _ =>
      if decision.noOp then
        match convertFirst registry config children with
        | some (result, children) => (result, ⟨decision, exprs, children⟩)
        | none =>
          (.error (.invalidPlan (.elidedWithoutInput decision.short)),
            ⟨decision, exprs, children⟩)
      else
        match ExprDecision.convertAll registry config exprs with
        | (.error error, exprs) => (.error error, ⟨decision, exprs, children⟩)
        | (.ok converted, exprs) =>
          let operator := operatorOf registry config decision converted
          let decision := { decision with converted := some operator }
          match convertInputs registry config children with
          | (.error error, children) => (.error error, ⟨decision, exprs, children⟩)
          | (.ok inputs, children) =>
            (.ok ⟨.gpu operator, inputs.map (PlacedNode.intoColumnar config.batchSizeBytes)⟩,
              ⟨decision, exprs, children⟩)

/-- Keeps an operator on the host and converts its inputs as they need it. -/
def keepOnHost (registry : Registry) (config : Config) :
    PlanDecision → Except PlacementError PlacedNode × PlanDecision
  | ⟨decision, exprs, children⟩ =>
    match convertInputs registry config children with
    | (.error error, children) => (.error error, ⟨decision, exprs, children⟩)
    | (.ok inputs, children) =>
      (.ok ⟨.host (.ofPlan decision.node), inputs.map PlacedNode.intoRows⟩,
        ⟨decision, exprs, children⟩)

/-- Converts the first of some trees if it is eligible, and keeps it on the host otherwise. -/
def convertFirst (registry : Registry) (config : Config) :
    List PlanDecision → Option (Except PlacementError PlacedNode × List PlanDecision)
  | [] => none
  | tree :: rest =>
    let (result, tree) :=
      if tree.eligible then tree.convert registry config else tree.keepOnHost registry config
    some (result, tree :: rest)

/-- Converts eligible trees and keeps the others on the host, from first to last; stops at the
first failure. -/
def convertInputs (registry : Registry) (config : Config) :
    List PlanDecision → Except PlacementError (List PlacedNode) × List PlanDecision
  | [] => (.ok [], [])
  | tree :: rest =>
    match
      if tree.eligible then tree.convert registry config else tree.keepOnHost registry config with
    | (.error error, tree) => (.error error, tree :: rest)
    | (.ok node, tree) =>
      match convertInputs registry config rest with
      | (.error error, rest) => (.error error, tree :: rest)
      | (.ok nodes, rest) => (.ok (node :: nodes), tree :: rest)

end

/-- Converts an eligible tree and keeps any other one on the host. -/
def convertIfNeeded (registry : Registry) (config : Config) (tree : PlanDecision) :
    Except PlacementError PlacedNode × PlanDecision :=
  if tree.eligible then tree.convert registry config else tree.keepOnHost registry config

end PlanDecision

end GpuPlacement
