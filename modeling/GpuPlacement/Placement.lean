import GpuPlacement.Conversion
import GpuPlacement.Report
/-!
Placement: a host plan is tagged, its exchanges are settled, and what is eligible moves to the
device.
-/
namespace GpuPlacement

/-- A placed plan and the report of the configured mode. -/
structure Placement where
  plan : PlacedPlan
  report : String

/-- The decisions about a plan; exchanges are settled unless the settings say otherwise. -/
def tagPlan (registry : Registry) (config : Config) (plan : HostPlan) : PlanDecision :=
  let tree := (PlanDecision.ofPlan registry plan).tag registry config
  if config.fixupExchangeOverhead then tree.settleExchanges else tree

/-- The error against a node that stays on the host although its name is not among those that
may. -/
def Decision.unexpected? {Node Op : Type} [HostNode Node] (allowed : List String)
    (decision : Decision Node Op) : Option PlacementError :=
  if !decision.eligible && !allowed.contains decision.short then
    some (.leftOnHost decision.short decision.reasons)
  else none

mutual

/-- The first unexpected node of an expression tree, parents before children. -/
def ExprDecision.unexpected? (allowed : List String) : ExprDecision → Option PlacementError
  | ⟨decision, children⟩ =>
    match decision.unexpected? allowed with
    | some error => some error
    | none => unexpectedExpr? allowed children

def unexpectedExpr? (allowed : List String) : List ExprDecision → Option PlacementError
  | [] => none
  | tree :: rest =>
    match tree.unexpected? allowed with
    | some error => some error
    | none => unexpectedExpr? allowed rest

end

mutual

/-- The first unexpected node of a plan: an operator, then its expressions, then its inputs. -/
def PlanDecision.unexpected? (allowed : List String) : PlanDecision → Option PlacementError
  | ⟨decision, exprs, children⟩ =>
    match decision.unexpected? allowed with
    | some error => some error
    | none =>
      match unexpectedExpr? allowed exprs with
      | some error => some error
      | none => unexpectedPlan? allowed children

def unexpectedPlan? (allowed : List String) : List PlanDecision → Option PlacementError
  | [] => none
  | tree :: rest =>
    match tree.unexpected? allowed with
    | some error => some error
    | none => unexpectedPlan? allowed rest

end

/-- Places a plan. With the master switch off it stays on the host as it is; in test mode the
first node that stays there unexpectedly is an error. -/
def place (registry : Registry) (config : Config) (plan : HostPlan) :
    Except PlacementError Placement :=
  if !config.sqlEnabled then .ok ⟨.hostOnly plan, ""⟩
  else
    let tree := tagPlan registry config plan
    let unexpected :=
      if config.testEnabled then tree.unexpected? config.testAllowedNonGpu else none
    match unexpected with
    | some error => .error error
    | none =>
      (tree.convertIfNeeded registry config).1.map fun node =>
        ⟨.ofNode node, tree.report config.explain⟩

end GpuPlacement
