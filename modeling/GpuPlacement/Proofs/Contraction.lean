import GpuPlacement.Proofs.Counts
/-!
Placed plans without their transitions. What is left is the tree of decisions with its left out
operators contracted, each operator on the side that was decided.
-/
namespace GpuPlacement

namespace PlacedNode

mutual

/-- The trees that are left when transitions give way to their inputs. -/
def withoutTransitions : PlacedNode → List PlacedNode
  | ⟨.gpu operator, inputs⟩ => [⟨.gpu operator, allWithoutTransitions inputs⟩]
  | ⟨.host operator, inputs⟩ => [⟨.host operator, allWithoutTransitions inputs⟩]
  | ⟨.rowToColumnar _, inputs⟩ => allWithoutTransitions inputs
  | ⟨.columnarToRow, inputs⟩ => allWithoutTransitions inputs

def allWithoutTransitions : List PlacedNode → List PlacedNode
  | [] => []
  | node :: rest => node.withoutTransitions ++ allWithoutTransitions rest

end

theorem allWithoutTransitions_eq_flatMap (nodes : List PlacedNode) :
    allWithoutTransitions nodes = nodes.flatMap withoutTransitions :=
  eq_flatMap_of_cons rfl (fun _ _ => rfl) nodes

theorem withoutTransitions_intoRows (node : PlacedNode) :
    node.intoRows.withoutTransitions = node.withoutTransitions := by
  unfold intoRows
  split
  · rw [withoutTransitions, allWithoutTransitions_eq_flatMap, List.flatMap_singleton]
  · rfl

theorem withoutTransitions_intoColumnar (batchBytes : UInt64) (node : PlacedNode) :
    (node.intoColumnar batchBytes).withoutTransitions = node.withoutTransitions := by
  unfold intoColumnar
  split
  · rfl
  · rw [withoutTransitions, allWithoutTransitions_eq_flatMap, List.flatMap_singleton]

theorem allWithoutTransitions_intoRows (nodes : List PlacedNode) :
    allWithoutTransitions (nodes.map .intoRows) = allWithoutTransitions nodes := by
  simp only [allWithoutTransitions_eq_flatMap, List.flatMap_map, withoutTransitions_intoRows]

theorem allWithoutTransitions_intoColumnar (batchBytes : UInt64) (nodes : List PlacedNode) :
    allWithoutTransitions (nodes.map (.intoColumnar batchBytes)) = allWithoutTransitions nodes := by
  simp only [allWithoutTransitions_eq_flatMap, List.flatMap_map, withoutTransitions_intoColumnar]

end PlacedNode

/-- The conversion of an expression or a partitioning of an operator. -/
def HostPlan.convertedExpr (registry : Registry) (config : Config) (plan : HostPlan)
    (kind : RuleKind) (expr : HostExpr) : Except PlacementError GpuExpr :=
  let tree := (ExprDecision.ofExprAt registry kind none (some plan) expr).tag registry config
  (tree.convert registry config).1

/-- A device operator that stands for a host operator: nothing of it is lost, and every expression
is converted in its place. -/
structure GpuOperator.Replaces (registry : Registry) (config : Config) (operator : GpuOperator)
    (plan : HostPlan) : Prop where
  replaces : operator.replaces = plan.className
  output : operator.output = plan.output
  exprs : operator.exprs.map .ok =
    plan.expressions.map (plan.convertedExpr registry config .expression)
  partitioning : operator.partitioning.map .ok =
    plan.partitioning.map (plan.convertedExpr registry config .partitioning)

namespace PlanDecision

/-- A placed tree that follows the decisions operator by operator. -/
inductive RealizedBy (registry : Registry) (config : Config) : PlanDecision → PlacedNode → Prop
  | host {decision exprs children inputs} : decision.eligible = false →
      List.Forall₂ (RealizedBy registry config) children inputs →
      RealizedBy registry config ⟨decision, exprs, children⟩
        ⟨.host (.ofPlan decision.node), inputs⟩
  | gpu {decision exprs children operator inputs} : decision.eligible = true →
      decision.noOp = false → operator.Replaces registry config decision.node →
      List.Forall₂ (RealizedBy registry config) children inputs →
      RealizedBy registry config ⟨decision, exprs, children⟩ ⟨.gpu operator, inputs⟩

end PlanDecision

/-- Converters change parameters only, and no parameters but their own. -/
theorem Builtin.convert_eq : ∀ rule ∈ operatorRules, ∀ plan config exprs, ∃ params,
    rule.convert plan config exprs = { GpuOperator.ofHost plan exprs with params } ∧
      ∀ key ∉ batchKeys, params.get? key = plan.params.get? key := by
  apply forall_operator_convert fun convert => ∀ plan config exprs, ∃ params,
    convert plan config exprs = { GpuOperator.ofHost plan exprs with params } ∧
      ∀ key ∉ batchKeys, params.get? key = plan.params.get? key
  case ofHost => exact fun plan config exprs => ⟨_, rfl, fun key _ => rfl⟩
  case withBatchSize =>
    intro added own plan config exprs
    refine ⟨_, rfl, fun key foreign => ?_⟩
    have differs : key ≠ added := fun same => foreign (same ▸ own)
    exact (Dict.get?_insert ..).trans (if_neg differs)

theorem Builtin.convertNode_eq (config : Config) (plan : HostPlan) (exprs : List GpuExpr) :
    ∃ params,
      PlanDecision.convertNode registry config plan exprs =
        { GpuOperator.ofHost plan exprs with params } ∧
      ∀ key ∉ batchKeys, params.get? key = plan.params.get? key := by
  rw [PlanDecision.convertNode]
  cases found : registry.operators.find? plan.className with
  | none => exact ⟨_, rfl, fun key _ => rfl⟩
  | some rule => exact convert_eq rule (mem_of_find?_operators found) plan config exprs

/-- The default conversion takes the partitioning back from behind the expressions. -/
theorem GpuOperator.replaces_ofHost {registry : Registry} {config : Config} {plan : HostPlan}
    {exprs : List GpuExpr}
    (converted : (ExprDecision.convertAll registry config
      ((PlanDecision.ofExpressions registry plan).map (.tag registry config))).1 = .ok exprs)
    (params : Params) :
    Replaces registry config { GpuOperator.ofHost plan exprs with params } plan := by
  have same : exprs.map .ok = plan.expressions.map (plan.convertedExpr registry config .expression)
      ++ (plan.partitioning.map (plan.convertedExpr registry config .partitioning)).toList := by
    rw [← ExprDecision.convertAll_ok_iff.mp converted]
    simp only [PlanDecision.ofExpressions, List.map_append, List.map_map, Option.toList_map]
    rfl
  cases given : plan.partitioning with
  | none =>
      rw [given] at same
      constructor
      case replaces => rfl
      case output => rfl
      case exprs => simpa [ofHost, given] using same
      case partitioning => simp [ofHost, given]
  | some partitioning =>
      rw [given] at same
      constructor
      case replaces => rfl
      case output => rfl
      case exprs => simp [ofHost, given, List.map_dropLast, same]
      case partitioning => simp [ofHost, given, ← List.getLast?_map, same]

namespace PlanDecision

variable {registry : Registry} {config : Config}

/-- The device operator of an operator that was never converted replaces it. -/
theorem Ready.replaces {decision : Decision HostPlan GpuOperator} {exprs : List ExprDecision}
    {children : List PlanDecision} {converted : List GpuExpr}
    (h : Ready config ⟨decision, exprs, children⟩)
    (done : (ExprDecision.convertAll Builtin.registry config exprs).1 = .ok converted) :
    (operatorOf Builtin.registry config decision converted).Replaces Builtin.registry config
      decision.node := by
  have untouched : decision.converted = none := h.converted
  have tagged : exprs =
      (ofExpressions Builtin.registry decision.node).map (.tag Builtin.registry config) := h.exprs
  obtain ⟨params, same, -⟩ := Builtin.convertNode_eq config decision.node converted
  rw [operatorOf, untouched, Option.getD_none, same]
  rw [tagged] at done
  exact GpuOperator.replaces_ofHost done params

/-- The device operator keeps the parameters that no converter adds. -/
theorem Ready.params {decision : Decision HostPlan GpuOperator} {exprs : List ExprDecision}
    {children : List PlanDecision} (h : Ready config ⟨decision, exprs, children⟩)
    (converted : List GpuExpr) :
    ∀ key ∉ Builtin.batchKeys,
      (operatorOf Builtin.registry config decision converted).params.get? key =
        decision.node.params.get? key := by
  have untouched : decision.converted = none := h.converted
  obtain ⟨params, same, kept⟩ := Builtin.convertNode_eq config decision.node converted
  rw [operatorOf, untouched, Option.getD_none, same]
  exact kept

theorem PlacedAs.realized {tree : PlanDecision} {node : PlacedNode}
    (placed : tree.PlacedAs Builtin.registry config node)
    (ready : tree.AllReady config) :
    ∃ bare, node.withoutTransitions = [bare] ∧
      tree.contract.RealizedBy Builtin.registry config bare := by
  induction placed using PlacedAs.rec
    (motive_2 := fun trees nodes _ => (∀ tree ∈ trees, tree.AllReady config) →
      List.Forall₂ (RealizedBy Builtin.registry config) (contractAll trees)
        (PlacedNode.allWithoutTransitions nodes)) with
    | kept ineligible _ inputs =>
        refine ⟨_, rfl, ?_⟩
        rw [contract_of_stays (Decision.leftOut_of_ineligible ineligible),
          PlacedNode.allWithoutTransitions_intoRows]
        exact .host ineligible (inputs ready.child)
    | elided allowed leaves _ below =>
        obtain ⟨child, only⟩ := ready.ready.single leaves
        obtain ⟨rfl, rfl⟩ := List.cons.inj only
        rw [contract_of_leftOut
          (Decision.leftOut_of_marked (Decision.eligible_of_ensureEligible allowed) leaves)]
        exact below (ready.child _ List.mem_cons_self)
    | replaced allowed stays arguments _ inputs =>
        refine ⟨_, rfl, ?_⟩
        rw [contract_of_stays (Decision.leftOut_of_unmarked stays),
          PlacedNode.allWithoutTransitions_intoColumnar]
        exact .gpu (Decision.eligible_of_ensureEligible allowed) stays
          (ready.ready.replaces arguments) (inputs ready.child)
    | nil => exact .nil
    | cons _ _ first later =>
        rename_i ready
        obtain ⟨head, rest⟩ := List.forall_mem_cons.mp ready
        obtain ⟨bare, only, realized⟩ := first head
        rw [contractAll, PlacedNode.allWithoutTransitions, only]
        exact .cons realized (later rest)

end PlanDecision

/-- A placement that keeps the operators of a plan. Apart from transitions its tree follows the
decisions about the plan once the left out operators are contracted, and transitions stand between
the two sides of that tree and behind its root. -/
structure Placement.Follows (registry : Registry) (config : Config) (plan : HostPlan)
    (placement : Placement) : Prop where
  mirrors : (tagPlan registry config plan).Mirrors plan
  single : ∀ operator ∈ (tagPlan registry config plan).subtrees,
    operator.decision.leftOut = true → ∃ child, operator.children = [child]
  realized : ∃ node, placement.plan.root.withoutTransitions = [node] ∧
    (tagPlan registry config plan).contract.RealizedBy registry config node
  gpuNodes : placement.plan.stats.gpuNodes =
    (tagPlan registry config plan).walk.countP fun decision => decision.eligible && !decision.noOp
  hostNodes : placement.plan.stats.hostNodes =
    (tagPlan registry config plan).walk.countP fun decision => !decision.eligible
  transitions : placement.plan.stats.transitions =
    (tagPlan registry config plan).contract.crossings +
      if (tagPlan registry config plan).contract.eligible then 1 else 0

/-- With the built-in rules a placed plan keeps every operator that is not left out, in its
place. -/
theorem place_follows (config : Config) (plan : HostPlan) (placement : Placement)
    (enabled : config.sqlEnabled = true)
    (placed : place Builtin.registry config plan = .ok placement) :
    placement.Follows Builtin.registry config plan := by
  obtain ⟨node, made, same⟩ := placedAs_of_place enabled placed
  have ready := tagPlan_allReady config plan
  obtain ⟨bare, only, realized⟩ := made.realized ready
  obtain ⟨onGpu, onHost, between⟩ := made.finishedStats ready
  constructor
  case mirrors => exact tagPlan_mirrors Builtin.registry config plan
  case single =>
    intro operator within leftOut
    exact (ready operator within).single (Bool.and_eq_true_iff.mp leftOut).2
  case realized =>
    rw [same]
    exact ⟨bare, (node.withoutTransitions_intoRows).trans only, realized⟩
  case gpuNodes => rw [same, onGpu]
  case hostNodes => rw [same, onHost]
  case transitions => rw [same, between]

/-- A shuffle with its partitioning, above a projection that is left out, between host operators. -/
theorem place_follows_shuffle :
    let columns := [Column.ofType "k" .int]
    let keys := [HostExpr.column "k" .int]
    let range := (HostPlan.ofClass "RangeExec").withOutput columns
    let project := { (HostPlan.ofClass "ProjectExec").withOutput columns with
      expressions := keys
      children := [{ (HostPlan.ofClass "UnionExec").withOutput columns with children := [range] }] }
    let shuffle := { (HostPlan.ofClass "ShuffleExchangeExec").withOutput columns with
      partitioning := some (.call "HashPartitioning" .int keys)
      children := [project] }
    let plan := { (HostPlan.ofClass "CollectExec").withOutput columns with children := [shuffle] }
    Config.default.sqlEnabled = true ∧
      ∃ placement, place Builtin.registry .default plan = .ok placement ∧
        placement.Follows Builtin.registry .default plan := by
  intro columns keys range project shuffle plan
  obtain ⟨placement, placed⟩ := exists_placement .default plan rfl
  exact ⟨rfl, placement, placed, place_follows .default plan placement rfl placed⟩

end GpuPlacement
