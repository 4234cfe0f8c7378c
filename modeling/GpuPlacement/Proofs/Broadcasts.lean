import GpuPlacement.Proofs.Contracts
/-!
Broadcast joins on the device. Tagging makes them depend on the broadcast that they build from,
settling keeps that broadcast for their sake, and conversion leaves it in its place.
-/
namespace GpuPlacement

/-- The place of the build side among the inputs of a broadcast join on the device. -/
def GpuOperator.buildSide (join : GpuOperator) : Nat :=
  if join.params.text? "build_side" = some "left" then 0 else 1

theorem GpuOperator.Copies.buildSide {config : Config} {operator : GpuOperator}
    {plan : HostPlan} (h : operator.Copies config plan) :
    operator.buildSide = OperatorCheck.buildSide plan := by
  rw [GpuOperator.buildSide, h.text? "build_side" (by decide)]
  rfl

/-- A join whose build side is, without any transition, a broadcast on the device. -/
def PlacedNode.BuildsFromBroadcast (node : PlacedNode) (join : GpuOperator) : Prop :=
  ∃ broadcast inputs, node.inputs[join.buildSide]? = some ⟨.gpu broadcast, inputs⟩ ∧
    broadcast.replaces = .operator "BroadcastExchangeExec"

namespace PlanDecision

variable {config : Config}

/-- The input of a broadcast join that is a broadcast, stays on the device and is not left out. -/
structure Builds (build : PlanDecision) : Prop where
  broadcast : build.decision.node.className = .operator "BroadcastExchangeExec"
  eligible : build.eligible = true
  stays : build.decision.noOp = false

/-- An eligible operator with the short name of a broadcast is one, as other classes have no
rule. -/
theorem builds_of_short {parent : Option HostPlan} {plan : HostPlan}
    (short : plan.className.short = "BroadcastExchangeExec")
    (eligible : ((ofPlanBelow Builtin.registry parent plan).tag Builtin.registry
      config).eligible = true) :
    ((ofPlanBelow Builtin.registry parent plan).tag Builtin.registry config).Builds := by
  obtain ⟨rule, found⟩ := (supported_of_eligible_tag eligible).1
  have mark : ((ofPlanBelow Builtin.registry parent plan).tag Builtin.registry
      config).decision.noOp = _ := noOp_tag (ofPlanBelow_noOp ..) found
  rw [ofPlanBelow_node] at found
  have member := Builtin.mem_of_find?_operators found
  have same := Builtin.className_of_find?_operators found
  have broadcast : plan.className = .operator "BroadcastExchangeExec" := by
    rw [← same, Builtin.className_of_operatorRule rule member, RuleSpec.short, same, short]
  have clear : rule.check = fun _ => .clear :=
    Builtin.check_of_class member (by simp [same, broadcast, Builtin.operatorRules_checks])
  constructor
  case broadcast => rwa [tag_node, ofPlanBelow_node]
  case eligible => exact eligible
  case stays => rw [mark, clear, Finding.clear]

theorem Builds.settleBelow {build : PlanDecision} (h : build.Builds) :
    (build.settleBelow true).Builds where
  broadcast := by rw [settleBelow_node, h.broadcast]
  eligible := eligible_settleBelow_of_parent h.eligible
  stays := by rw [settleBelow_noOp, h.stays]

/-- The input that an eligible broadcast join builds from is an eligible broadcast. -/
theorem build_of_eligible_tag {tree : PlanDecision}
    (join : tree.decision.node.className = .operator "BroadcastHashJoinExec")
    (eligible : (tree.tag Builtin.registry config).eligible = true) :
    ∃ build, tree.children[OperatorCheck.buildSide tree.decision.node]? = some build ∧
      (build.tag Builtin.registry config).short = "BroadcastExchangeExec" ∧
      (build.tag Builtin.registry config).eligible = true := by
  rw [tag_eq] at eligible
  obtain ⟨-, ⟨rule, found, supports⟩, -⟩ := examine_eligible_iff.mp eligible
  have same := Builtin.className_of_find?_operators found
  have check : rule.check = OperatorCheck.broadcastJoin :=
    Builtin.check_of_class (Builtin.mem_of_find?_operators found)
      (by simp [same, join, Builtin.operatorRules_checks])
  have clear := supports.check
  rw [check] at clear
  obtain ⟨build, place, seen⟩ :=
    OperatorCheck.buildSideReasons_eq_nil_iff.mp (List.append_eq_nil_iff.mp clear).2
  -- The check looks at tagged inputs.
  rw [context, List.getElem?_map, Option.map_eq_some_iff] at place
  obtain ⟨input, place, rfl⟩ := place
  exact ⟨input, place, seen⟩

theorem exists_build_tag {parent : Option HostPlan} {plan : HostPlan}
    (join : plan.className = .operator "BroadcastHashJoinExec")
    (eligible : ((ofPlanBelow Builtin.registry parent plan).tag Builtin.registry
      config).eligible = true) :
    ∃ build, ((ofPlanBelow Builtin.registry parent plan).tag Builtin.registry
      config).children[OperatorCheck.buildSide plan]? = some build ∧ build.Builds := by
  have joins : (ofPlanBelow Builtin.registry parent plan).decision.node.className =
      .operator "BroadcastHashJoinExec" := by
    rw [ofPlanBelow_node, join]
  obtain ⟨build, place, short, onGpu⟩ := build_of_eligible_tag joins eligible
  rw [ofPlanBelow_node] at place
  refine ⟨build.tag Builtin.registry config,
    by rw [tag_children, List.getElem?_map, place]; rfl, ?_⟩
  rw [ofPlanBelow_children, List.getElem?_map, Option.map_eq_some_iff] at place
  obtain ⟨child, -, rfl⟩ := place
  rw [PlanDecision.short, Decision.short, tag_node, ofPlanBelow_node] at short
  exact builds_of_short short onGpu

/-- Settling keeps the broadcast, since the join above it is eligible. -/
theorem exists_build {plan : HostPlan} {part : PlanDecision}
    (within : part ∈ (tagPlan Builtin.registry config plan).subtrees)
    (eligible : part.eligible = true)
    (join : part.decision.node.className = .operator "BroadcastHashJoinExec") :
    ∃ build, part.children[OperatorCheck.buildSide part.decision.node]? = some build ∧
      build.Builds := by
  obtain ⟨parent, tagged, rfl, allowed, settled⟩ := tag_of_eligible within eligible
  obtain ⟨build, place, builds⟩ := exists_build_tag join allowed
  rcases settled with kept | settled
  · exact ⟨build, kept ▸ place, builds⟩
  · refine ⟨build.settleBelow true, ?_, builds.settleBelow⟩
    rw [settled, List.getElem?_map, place, Option.map_some]

end PlanDecision

/-- With the built-in rules every broadcast join on the device builds from a broadcast on the
device. -/
theorem place_buildsFromBroadcast (config : Config) (plan : HostPlan) (placement : Placement)
    (placed : place Builtin.registry config plan = .ok placement) :
    ∀ node ∈ placement.plan.root.subtrees, ∀ join, node.operator = .gpu join →
      join.replaces = .operator "BroadcastHashJoinExec" → node.BuildsFromBroadcast join := by
  intro node within join onGpu replaces
  obtain ⟨part, inside, sent⟩ := sentAs_of_place placed within onGpu
  obtain ⟨build, place, builds⟩ :=
    PlanDecision.exists_build inside sent.eligible (sent.copies.replaces.symm.trans replaces)
  obtain ⟨nodes, made, inputs⟩ := sent.inputs
  obtain ⟨input, here, placedBuild⟩ := exists_getElem?_of_forall₂ made place
  have ready : build.AllReady config := by
    cases part with
    | mk decision exprs children => exact sent.ready.child build (List.mem_of_getElem? place)
  obtain ⟨broadcast, below, rfl, sentBuild⟩ :=
    placedBuild.sent_root ready builds.eligible builds.stays
  refine ⟨broadcast, below, ?_, sentBuild.copies.replaces.trans builds.broadcast⟩
  rw [inputs, sent.copies.buildSide, List.getElem?_map, here]
  rfl

/-- A join of what the host produces with a broadcast of it. -/
def joinedRange : HostPlan :=
  let range := (HostPlan.ofClass "RangeExec").withOutput [.ofType "k" .int]
  let broadcast :=
    { (HostPlan.ofClass "BroadcastExchangeExec").withOutput [.ofType "k" .int] with
      children := [range] }
  { (HostPlan.ofClass "BroadcastHashJoinExec").withParam "num_left_keys" (.int 1) with
    expressions := [HostExpr.column "k" .int, HostExpr.column "k" .int]
    children := [range, broadcast] }

theorem joinedRange_tag :
    (tagPlan Builtin.registry .default joinedRange).eligible = true ∧
      (tagPlan Builtin.registry .default joinedRange).decision.noOp = false := by
  have key := (ExprDecision.tag_keyColumn (some joinedRange)).1
  exact tagPlan_of_rule (List.forall_mem_cons.mpr ⟨key, List.forall_mem_singleton.mpr key⟩)
    (by decide +kernel)

theorem place_buildsFromBroadcast_joined :
    ∃ placement, place Builtin.registry .default joinedRange = .ok placement ∧
      ∃ node ∈ placement.plan.root.subtrees, ∃ join, node.operator = .gpu join ∧
        join.replaces = .operator "BroadcastHashJoinExec" ∧ node.BuildsFromBroadcast join := by
  obtain ⟨placement, placed⟩ := exists_placement .default joinedRange rfl
  obtain ⟨eligible, stays⟩ := joinedRange_tag
  obtain ⟨join, inputs, within, copies, -⟩ := sent_root_of_place rfl placed eligible stays
  exact ⟨placement, placed, _, within, join, rfl, copies.replaces,
    place_buildsFromBroadcast .default joinedRange placement placed _ within join rfl
      copies.replaces⟩

end GpuPlacement
