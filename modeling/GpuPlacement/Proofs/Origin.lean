import GpuPlacement.Proofs.Contraction
import GpuPlacement.Proofs.Converted
/-!
Where device operators come from. Each one in a placed plan stands for an operator of the host plan
with a rule that supports it, and reads what is made of that operator's inputs.
-/
namespace GpuPlacement

namespace PlacedNode

theorem mem_subtrees_intoRows {node below : PlacedNode} (within : below ∈ node.intoRows.subtrees) :
    below = ⟨.columnarToRow, [node]⟩ ∨ below ∈ node.subtrees := by
  unfold intoRows at within
  split at within
  · rcases mem_subtrees_iff.mp within with rfl | ⟨input, member, deeper⟩
    · exact .inl rfl
    · exact .inr (List.mem_singleton.mp member ▸ deeper)
  · exact .inr within

theorem mem_subtrees_intoColumnar {batchBytes : UInt64} {node below : PlacedNode}
    (within : below ∈ (node.intoColumnar batchBytes).subtrees) :
    below = ⟨.rowToColumnar batchBytes, [node]⟩ ∨ below ∈ node.subtrees := by
  unfold intoColumnar at within
  split at within
  · exact .inr within
  · rcases mem_subtrees_iff.mp within with rfl | ⟨input, member, deeper⟩
    · exact .inl rfl
    · exact .inr (List.mem_singleton.mp member ▸ deeper)

theorem mem_subtrees_ofHostPlan {plan : HostPlan} {below : PlacedNode}
    (within : below ∈ (ofHostPlan plan).subtrees) :
    ∃ operator, below.operator = .host operator := by
  induction plan with
  | node className output expressions partitioning params children ih =>
      rw [ofHostPlan, mem_subtrees_iff, ofHostPlans_eq_map] at within
      rcases within with rfl | ⟨input, member, deeper⟩
      · exact ⟨_, rfl⟩
      · obtain ⟨child, among, rfl⟩ := List.mem_map.mp member
        exact ih child among deeper

end PlacedNode

/-- A device operator that replaces a host operator and keeps its parameters, except for those that
converters add. -/
structure GpuOperator.Copies (config : Config) (operator : GpuOperator) (plan : HostPlan) : Prop
    extends operator.Replaces Builtin.registry config plan where
  params : ∀ key ∉ Builtin.batchKeys, operator.params.get? key = plan.params.get? key

namespace PlanDecision

theorem Ready.copies {config : Config} {decision : Decision HostPlan GpuOperator}
    {exprs : List ExprDecision} {children : List PlanDecision} {converted : List GpuExpr}
    (h : Ready config ⟨decision, exprs, children⟩)
    (done : (ExprDecision.convertAll Builtin.registry config exprs).1 = .ok converted) :
    (operatorOf Builtin.registry config decision converted).Copies config decision.node :=
  ⟨h.replaces done, h.params converted⟩

variable {registry : Registry} {config : Config}

theorem Mirrors.child {decision : Decision HostPlan GpuOperator} {exprs : List ExprDecision}
    {children : List PlanDecision} {plan : HostPlan} {child : PlanDecision}
    (h : Mirrors ⟨decision, exprs, children⟩ plan) (member : child ∈ children) :
    child.Mirrors child.decision.node where
  root := rfl
  inputs := fun node below => h.inputs node (mem_subtrees_of_child member below)
  expressions := fun node below => h.expressions node (mem_subtrees_of_child member below)
  arguments := fun node below => h.arguments node (mem_subtrees_of_child member below)

theorem Mirrors.children {tree : PlanDecision} {plan : HostPlan} (h : tree.Mirrors plan) :
    tree.children.map (·.decision.node) = plan.children := by
  rw [h.inputs tree tree.mem_subtrees_self, h.root]

theorem Mirrors.node_mem_subtrees {tree part : PlanDecision} {plan : HostPlan}
    (h : tree.Mirrors plan) (within : part ∈ tree.subtrees) :
    part.decision.node ∈ plan.subtrees := by
  induction tree generalizing plan with
  | node decision exprs children ih =>
      rcases mem_subtrees_iff.mp within with rfl | ⟨child, member, deeper⟩
      · exact HostPlan.mem_subtrees_iff.mpr (.inl h.root)
      · have input : child.decision.node ∈ plan.children := by
          rw [← h.children]
          exact List.mem_map_of_mem member
        exact HostPlan.mem_subtrees_iff.mpr
          (.inr ⟨_, input, ih child member (h.child member) deeper⟩)

/-- Every part of a tagged plan is a tagged operator, settled unless the settings say otherwise. -/
theorem mem_subtrees_tagPlan {plan : HostPlan} {part : PlanDecision}
    (within : part ∈ (tagPlan registry config plan).subtrees) :
    ∃ parent tagged,
      tagged = (ofPlanBelow registry parent part.decision.node).tag registry config ∧
        (part = tagged ∨ ∃ parentEligible, part = tagged.settleBelow parentEligible) := by
  unfold tagPlan at within
  split at within
  · obtain ⟨inner, below, parentEligible, rfl⟩ := mem_subtrees_settleBelow within
    obtain ⟨parent, node, rfl⟩ := mem_subtrees_tag_ofPlan below
    refine ⟨parent, _, rfl, .inr ⟨parentEligible, ?_⟩⟩
    rw [settleBelow_node, tag_node, ofPlanBelow_node]
  · obtain ⟨parent, node, rfl⟩ := mem_subtrees_tag_ofPlan within
    refine ⟨parent, _, rfl, .inl ?_⟩
    rw [tag_node, ofPlanBelow_node]

/-- What is eligible was eligible before exchanges were settled, and settling kept its inputs or
settled them below an eligible consumer. -/
theorem tag_of_eligible {plan : HostPlan} {part : PlanDecision}
    (within : part ∈ (tagPlan registry config plan).subtrees) (eligible : part.eligible = true) :
    ∃ parent tagged,
      tagged = (ofPlanBelow registry parent part.decision.node).tag registry config ∧
        tagged.eligible = true ∧ (part.children = tagged.children ∨
          part.children = tagged.children.map (settleBelow true)) := by
  obtain ⟨parent, tagged, same, kept | ⟨parentEligible, settled⟩⟩ := mem_subtrees_tagPlan within
  · exact ⟨parent, tagged, same, kept ▸ eligible, .inl (congrArg children kept)⟩
  · rw [settled] at eligible
    refine ⟨parent, tagged, same, eligible_of_settleBelow eligible, .inr ?_⟩
    exact (congrArg children settled).trans (settleBelow_children_of_eligible eligible)

theorem ineligible_of_no_rule {plan : HostPlan} {part : PlanDecision}
    (within : part ∈ (tagPlan registry config plan).subtrees)
    (missing : registry.operators.find? part.decision.node.className = none) :
    part.eligible = false := by
  rw [← Bool.not_eq_true]
  intro eligible
  obtain ⟨parent, tagged, rfl, allowed, -⟩ := tag_of_eligible within eligible
  obtain ⟨rule, found⟩ := (supported_of_eligible_tag allowed).1
  rw [ofPlanBelow_node, missing] at found
  cases found

/-- A device operator that the root of a tree is converted to, and its inputs. -/
structure SentAs (config : Config) (tree : PlanDecision) (operator : GpuOperator)
    (inputs : List PlacedNode) : Prop where
  ready : tree.AllReady config
  eligible : tree.eligible = true
  copies : operator.Copies config tree.decision.node
  inputs : ∃ nodes, List.Forall₂ (PlacedAs Builtin.registry config) tree.children nodes ∧
    inputs = nodes.map (.intoColumnar config.batchSizeBytes)

/-- An eligible operator that is not left out goes to the device. -/
theorem PlacedAs.sent_root {tree : PlanDecision} {node : PlacedNode}
    (placed : tree.PlacedAs Builtin.registry config node) (ready : tree.AllReady config)
    (eligible : tree.eligible = true) (stays : tree.decision.noOp = false) :
    ∃ operator inputs, node = ⟨.gpu operator, inputs⟩ ∧ tree.SentAs config operator inputs := by
  cases placed with
  | kept ineligible => cases eligible.symm.trans ineligible
  | elided _ leaves => cases stays.symm.trans leaves
  | replaced allowed _ arguments inputs =>
      have copies := ready.ready.copies arguments
      exact ⟨_, _, rfl, ready, eligible, copies, _, inputs.forall₂, rfl⟩

/-- An input that stays on the host is behind a transition. -/
theorem SentAs.hostInput {tree child : PlanDecision} {operator : GpuOperator}
    {inputs : List PlacedNode} (h : tree.SentAs config operator inputs)
    (member : child ∈ tree.children) (onHost : child.eligible = false) :
    ∃ below, ⟨.rowToColumnar config.batchSizeBytes,
      [⟨.host (.ofPlan child.decision.node), below⟩]⟩ ∈ inputs := by
  obtain ⟨nodes, placed, rfl⟩ := h.inputs
  obtain ⟨node, among, made⟩ := exists_of_forall₂ placed.flip child member
  cases made with
  | kept => exact ⟨_, List.mem_map_of_mem among⟩
  | elided allowed =>
      have eligible := Decision.eligible_of_ensureEligible allowed
      cases eligible.symm.trans onHost
  | replaced allowed =>
      have eligible := Decision.eligible_of_ensureEligible allowed
      cases eligible.symm.trans onHost

/-- So is an input of a class without a rule. -/
theorem SentAs.unruledInput {plan source : HostPlan} {operator : GpuOperator}
    {inputs : List PlacedNode}
    (h : (tagPlan Builtin.registry config plan).SentAs config operator inputs)
    (member : source ∈ plan.children)
    (missing : Builtin.registry.operators.find? source.className = none) :
    ∃ below, ⟨.rowToColumnar config.batchSizeBytes, [⟨.host (.ofPlan source), below⟩]⟩ ∈
      inputs := by
  rw [← (tagPlan_mirrors Builtin.registry config plan).children] at member
  obtain ⟨child, among, rfl⟩ := List.mem_map.mp member
  exact h.hostInput among (ineligible_of_no_rule (mem_subtrees_of_mem_children among) missing)

/-- Transitions between an operator and its inputs bring no device operator. -/
theorem sentAs_of_inputs {decision : Decision HostPlan GpuOperator} {exprs : List ExprDecision}
    {children : List PlanDecision} {nodes : List PlacedNode} {top : PlacedOperator}
    {wrap : PlacedNode → PlacedNode} {operator : GpuOperator}
    (bare : ∀ node, ∀ below ∈ (wrap node).subtrees, below.operator = .gpu operator →
      below ∈ node.subtrees)
    (inputs : List.Forall₂ (fun child node => ∀ below ∈ node.subtrees,
      below.operator = .gpu operator →
        ∃ part ∈ child.subtrees, part.SentAs config operator below.inputs) children nodes)
    (root : top = .gpu operator →
      SentAs config ⟨decision, exprs, children⟩ operator (nodes.map wrap)) :
    ∀ below ∈ PlacedNode.subtrees ⟨top, nodes.map wrap⟩, below.operator = .gpu operator →
      ∃ part ∈ subtrees ⟨decision, exprs, children⟩, part.SentAs config operator below.inputs := by
  intro below within onGpu
  rcases PlacedNode.mem_subtrees_iff.mp within with rfl | ⟨input, member, deeper⟩
  · exact ⟨_, mem_subtrees_self _, root onGpu⟩
  · obtain ⟨node, among, rfl⟩ := List.mem_map.mp member
    obtain ⟨child, consumes, known⟩ := exists_of_forall₂ inputs node among
    obtain ⟨part, inside, sent⟩ := known below (bare node below deeper onGpu) onGpu
    exact ⟨part, mem_subtrees_of_child consumes inside, sent⟩

theorem PlacedAs.sent {tree : PlanDecision} {node : PlacedNode} {operator : GpuOperator}
    (placed : tree.PlacedAs Builtin.registry config node) (ready : tree.AllReady config) :
    ∀ below ∈ node.subtrees, below.operator = .gpu operator →
      ∃ part ∈ tree.subtrees, part.SentAs config operator below.inputs := by
  induction placed using PlacedAs.rec
    (motive_2 := fun trees nodes _ => (∀ tree ∈ trees, tree.AllReady config) →
      List.Forall₂ (fun tree node => ∀ below ∈ node.subtrees, below.operator = .gpu operator →
        ∃ part ∈ tree.subtrees, part.SentAs config operator below.inputs) trees nodes) with
    | kept _ _ inputs =>
        apply sentAs_of_inputs _ (inputs ready.child) PlacedOperator.noConfusion
        intro node below within onGpu
        rcases PlacedNode.mem_subtrees_intoRows within with rfl | inside
        · cases onGpu
        · exact inside
    | elided _ _ _ below =>
        -- What is left out has no node of its own: its input's origins are one level deeper.
        intro part within onGpu
        obtain ⟨origin, inside, sent⟩ :=
          below (ready.child _ List.mem_cons_self) part within onGpu
        exact ⟨origin, mem_subtrees_of_child List.mem_cons_self inside, sent⟩
    | replaced allowed _ arguments placed inputs =>
        apply sentAs_of_inputs _ (inputs ready.child) _
        · intro node below within onGpu
          rcases PlacedNode.mem_subtrees_intoColumnar within with rfl | inside
          · cases onGpu
          · exact inside
        · intro same
          obtain rfl := PlacedOperator.gpu.inj same
          have copies := ready.ready.copies arguments
          exact ⟨ready, Decision.eligible_of_ensureEligible allowed, copies, _, placed.forall₂, rfl⟩
    | nil => exact .nil
    | cons _ _ first later =>
        rename_i ready
        obtain ⟨head, rest⟩ := List.forall_mem_cons.mp ready
        exact .cons (first head) (later rest)

end PlanDecision

theorem sent_root_of_place {config : Config} {plan : HostPlan} {placement : Placement}
    (enabled : config.sqlEnabled = true)
    (placed : place Builtin.registry config plan = .ok placement)
    (eligible : (tagPlan Builtin.registry config plan).eligible = true)
    (stays : (tagPlan Builtin.registry config plan).decision.noOp = false) :
    ∃ operator inputs, ⟨.gpu operator, inputs⟩ ∈ placement.plan.root.subtrees ∧
      operator.Copies config plan ∧
      (tagPlan Builtin.registry config plan).SentAs config operator inputs := by
  obtain ⟨node, made, same⟩ := placedAs_of_place enabled placed
  obtain ⟨operator, inputs, rfl, sent⟩ :=
    made.sent_root (tagPlan_allReady config plan) eligible stays
  have root : placement.plan.root = ⟨.columnarToRow, [⟨.gpu operator, inputs⟩]⟩ :=
    congrArg PlacedPlan.root same
  have here := (tagPlan_mirrors Builtin.registry config plan).root
  refine ⟨operator, inputs, ?_, here ▸ sent.copies, sent⟩
  rw [root]
  exact PlacedNode.mem_subtrees_of_input (List.mem_singleton_self _)
    (PlacedNode.mem_subtrees_self _)

theorem sentAs_of_place {config : Config} {plan : HostPlan} {placement : Placement}
    (placed : place Builtin.registry config plan = .ok placement) {below : PlacedNode}
    (within : below ∈ placement.plan.root.subtrees) {operator : GpuOperator}
    (onGpu : below.operator = .gpu operator) :
    ∃ part ∈ (tagPlan Builtin.registry config plan).subtrees,
      part.SentAs config operator below.inputs := by
  have inside : ∀ node : PlacedNode, below ∈ node.intoRows.subtrees → below ∈ node.subtrees := by
    intro node finished
    rcases PlacedNode.mem_subtrees_intoRows finished with rfl | inner
    · cases onGpu
    · exact inner
  -- With acceleration off the plan is copied, and nothing in it runs on the device.
  rcases place_ok_iff.mp placed with ⟨-, rfl⟩ | ⟨-, -, node, made, rfl⟩
  · obtain ⟨host, onHost⟩ := PlacedNode.mem_subtrees_ofHostPlan (inside _ within)
    cases onHost.symm.trans onGpu
  · exact made.sent (tagPlan_allReady config plan) below (inside node within) onGpu

namespace GpuOperator

section

variable {config : Config} {operator : GpuOperator} {plan : HostPlan}

theorem Replaces.becomes (h : operator.Replaces Builtin.registry config plan) :
    List.Forall₂ (HostExpr.Becomes config (some plan)) plan.expressions operator.exprs :=
  forall₂_of_map_eq h.exprs.symm fun _ _ _ done => ExprDecision.becomes_of_convert done

theorem Replaces.expressionTypes (h : operator.Replaces Builtin.registry config plan) :
    operator.exprs.map (·.type) = plan.expressions.map (·.type) :=
  HostExpr.Becomes.types h.becomes

theorem Replaces.length_exprs (h : operator.Replaces Builtin.registry config plan) :
    operator.exprs.length = plan.expressions.length :=
  h.becomes.length_eq.symm

theorem Replaces.isSome_partitioning (h : operator.Replaces Builtin.registry config plan) :
    operator.partitioning.isSome = plan.partitioning.isSome := by
  have same := congrArg Option.isSome h.partitioning
  rwa [Option.isSome_map, Option.isSome_map] at same

/-- Every part of an expression or a partitioning stands for a supported host expression. -/
theorem Replaces.parts (h : operator.Replaces Builtin.registry config plan) :
    ∀ expr ∈ operator.allExpressions, ∀ part ∈ expr.subtrees,
      ∃ source, part.StandsFor (some plan) source := by
  intro expr member
  rcases List.mem_append.mp member with evaluated | partitioning
  · obtain ⟨host, -, becomes⟩ := exists_of_forall₂ h.becomes expr evaluated
    exact becomes.parts
  · have given : operator.partitioning = some expr := Option.mem_toList.mp partitioning
    have same := h.partitioning
    rw [given, Option.map_some] at same
    obtain ⟨host, -, done⟩ := Option.map_eq_some_iff.mp same.symm
    exact (ExprDecision.becomes_of_convert done).parts

theorem Copies.int? (h : operator.Copies config plan) (key : String)
    (foreign : key ∉ Builtin.batchKeys) : operator.params.int? key = plan.params.int? key := by
  unfold Params.int?
  rw [h.params key foreign]

theorem Copies.text? (h : operator.Copies config plan) (key : String)
    (foreign : key ∉ Builtin.batchKeys) : operator.params.text? key = plan.params.text? key := by
  unfold Params.text?
  rw [h.params key foreign]

end

/-- A device operator that copies a host operator, which a built-in rule supports. -/
structure Implements (config : Config) (operator : GpuOperator) (plan : HostPlan) : Prop
    extends operator.Copies config plan where
  supported : ∃ rule ∈ Builtin.operatorRules, rule.spec.className = plan.className ∧
    ∃ context, context.node = plan ∧ rule.Supports context

end GpuOperator

/-- Every device operator of a placed plan implements an operator of the host plan. -/
theorem implements_of_place {config : Config} {plan : HostPlan} {placement : Placement}
    (placed : place Builtin.registry config plan = .ok placement) {below : PlacedNode}
    (within : below ∈ placement.plan.root.subtrees) {operator : GpuOperator}
    (onGpu : below.operator = .gpu operator) :
    ∃ source ∈ plan.subtrees, operator.Implements config source := by
  obtain ⟨part, inside, sent⟩ := sentAs_of_place placed within onGpu
  obtain ⟨parent, tagged, rfl, eligible, -⟩ := PlanDecision.tag_of_eligible inside sent.eligible
  have untagged := PlanDecision.ofPlanBelow_reasons Builtin.registry parent part.decision.node
  obtain ⟨rule, found, supports⟩ := ((PlanDecision.eligible_tag_iff untagged).mp eligible).1
  rw [PlanDecision.tag_node, PlanDecision.ofPlanBelow_node] at found
  refine ⟨part.decision.node, (tagPlan_mirrors ..).node_mem_subtrees inside, sent.copies, ?_⟩
  refine ⟨rule, Builtin.mem_of_find?_operators found, Builtin.className_of_find?_operators found,
    _, ?_, supports⟩
  rw [PlanDecision.context, PlanDecision.tag_node, PlanDecision.ofPlanBelow_node]

end GpuPlacement
