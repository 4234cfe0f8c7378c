import GpuPlacement.Proofs.Ready
/-!
Transitions of placed plans: rows and batches never meet without one, and none is superfluous.
-/
namespace GpuPlacement

namespace PlacedNode

/-- What a node asks of its inputs. Device operators take batches and host operators take rows; a
transition has one input, which is an operator of the side that it comes from. -/
def Bridged (batchBytes : UInt64) : PlacedNode → Prop
  | ⟨.gpu _, inputs⟩ => ∀ input ∈ inputs, input.isColumnar = true
  | ⟨.host _, inputs⟩ => ∀ input ∈ inputs, input.isColumnar = false
  | ⟨.rowToColumnar target, inputs⟩ =>
      target = batchBytes ∧ ∃ operator below, inputs = [⟨.host operator, below⟩]
  | ⟨.columnarToRow, inputs⟩ => ∃ operator below, inputs = [⟨.gpu operator, below⟩]

def AllBridged (batchBytes : UInt64) (node : PlacedNode) : Prop :=
  ∀ below ∈ node.subtrees, below.Bridged batchBytes

/-- A tree with an operator, not a transition, at its top. Only such trees may get a transition. -/
inductive Operates (batchBytes : UInt64) : PlacedNode → Prop
  | gpu {operator inputs} : AllBridged batchBytes ⟨.gpu operator, inputs⟩ →
      Operates batchBytes ⟨.gpu operator, inputs⟩
  | host {operator inputs} : AllBridged batchBytes ⟨.host operator, inputs⟩ →
      Operates batchBytes ⟨.host operator, inputs⟩

variable {batchBytes : UInt64}

theorem AllBridged.node {operator : PlacedOperator} {inputs : List PlacedNode}
    (top : Bridged batchBytes ⟨operator, inputs⟩)
    (below : ∀ input ∈ inputs, input.AllBridged batchBytes) :
    AllBridged batchBytes ⟨operator, inputs⟩ := by
  intro node member
  rcases mem_subtrees_iff.mp member with rfl | ⟨input, among, within⟩
  · exact top
  · exact below input among node within

theorem Operates.intoColumnar {node : PlacedNode} (h : node.Operates batchBytes) :
    (node.intoColumnar batchBytes).isColumnar = true ∧
      (node.intoColumnar batchBytes).AllBridged batchBytes := by
  cases h with
  | gpu all => exact ⟨rfl, all⟩
  | @host operator inputs all =>
      refine ⟨rfl, .node ⟨rfl, operator, inputs, rfl⟩ ?_⟩
      intro input member
      rw [List.mem_singleton.mp member]
      exact all

theorem Operates.intoRows {node : PlacedNode} (h : node.Operates batchBytes) :
    node.intoRows.isColumnar = false ∧ node.intoRows.AllBridged batchBytes := by
  cases h with
  | host all => exact ⟨rfl, all⟩
  | @gpu operator inputs all =>
      refine ⟨rfl, .node ⟨operator, inputs, rfl⟩ ?_⟩
      intro input member
      rw [List.mem_singleton.mp member]
      exact all

theorem Operates.onGpu {operator : GpuOperator} {nodes : List PlacedNode}
    (h : ∀ node ∈ nodes, node.Operates batchBytes) :
    Operates batchBytes ⟨.gpu operator, nodes.map (.intoColumnar batchBytes)⟩ := by
  refine .gpu (.node ?_ ?_)
  · exact List.forall_mem_map.mpr fun node member => (h node member).intoColumnar.1
  · exact List.forall_mem_map.mpr fun node member => (h node member).intoColumnar.2

theorem Operates.onHost {operator : HostOperator} {nodes : List PlacedNode}
    (h : ∀ node ∈ nodes, node.Operates batchBytes) :
    Operates batchBytes ⟨.host operator, nodes.map .intoRows⟩ := by
  refine .host (.node ?_ ?_)
  · exact List.forall_mem_map.mpr fun node member => (h node member).intoRows.1
  · exact List.forall_mem_map.mpr fun node member => (h node member).intoRows.2

/-- A host tree needs no transitions, because none of its nodes produces batches. -/
theorem operates_ofHostPlan (plan : HostPlan) : (ofHostPlan plan).Operates batchBytes := by
  induction plan with
  | node className output expressions partitioning params children ih =>
      have rows : (ofHostPlans children).map .intoRows = ofHostPlans children := by
        rw [ofHostPlans_eq_map, List.map_map]
        exact List.map_congr_left fun ⟨_, _, _, _, _, _⟩ _ => rfl
      rw [ofHostPlan, ← rows, ofHostPlans_eq_map]
      exact .onHost (List.forall_mem_map.mpr ih)

end PlacedNode

/-- Conversion puts no transition at the top; whoever takes its result adds one where it must. -/
theorem PlanDecision.PlacedAs.operates {registry : Registry} {config : Config}
    {tree : PlanDecision} {node : PlacedNode} (placed : tree.PlacedAs registry config node) :
    node.Operates config.batchSizeBytes := by
  induction placed using PlacedAs.rec
    (motive_2 := fun _ nodes _ => ∀ node ∈ nodes, node.Operates config.batchSizeBytes) with
    | kept _ _ inputs => exact .onHost inputs
    | elided _ _ _ below => exact below
    | replaced _ _ _ _ inputs => exact .onGpu inputs
    | nil =>
        rename_i member
        cases member
    | cons _ _ first later =>
        rename_i member
        rcases List.mem_cons.mp member with rfl | among
        · exact first
        · exact later _ among

/-- Every node of a placed plan gets the format that it takes, every transition is needed, and the
root produces rows. -/
theorem place_bridged (registry : Registry) (config : Config) (plan : HostPlan)
    (placement : Placement) (placed : place registry config plan = .ok placement) :
    (∀ node ∈ placement.plan.root.subtrees, node.Bridged config.batchSizeBytes) ∧
      placement.plan.root.isColumnar = false := by
  rcases place_ok_iff.mp placed with ⟨_, rfl⟩ | ⟨_, _, node, made, rfl⟩
  · exact (PlacedNode.operates_ofHostPlan plan).intoRows.symm
  · exact made.operates.intoRows.symm

/-- Two host operators around a device operator: one transition into it and one out of it. -/
theorem place_bridged_union :
    let plan : HostPlan := { HostPlan.ofClass "CollectExec" with
      children := [{ HostPlan.ofClass "UnionExec" with
        children := [HostPlan.ofClass "RangeExec", HostPlan.ofClass "UnionExec"] }] }
    ∃ placement, place Builtin.registry .default plan = .ok placement ∧
      (∀ node ∈ placement.plan.root.subtrees, node.Bridged Config.default.batchSizeBytes) ∧
      placement.plan.root.isColumnar = false := by
  intro plan
  obtain ⟨placement, placed⟩ := exists_placement .default plan rfl
  exact ⟨placement, placed, place_bridged Builtin.registry .default plan placement placed⟩

end GpuPlacement
