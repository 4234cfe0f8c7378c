import GpuPlacement.Proofs.Contraction
/-!
Exchanges between host operators. Settling looks at the direct neighbours of an exchange, so a
device exchange keeps host operators on both sides only where conversion leaves out such a
neighbour.
-/
namespace GpuPlacement

def exchangeClasses : List ClassName :=
  [.operator "ShuffleExchangeExec", .operator "BroadcastExchangeExec"]

theorem Builtin.exists_exchange_rule : ∀ className ∈ exchangeClasses,
    ∃ rule ∈ operatorRules, rule.spec.className = className ∧ rule.spec.isExchange = true := by
  decide +kernel

namespace PlanDecision

variable {config : Config}

theorem isExchange_tag_ofPlanBelow {parent : Option HostPlan} {plan : HostPlan}
    (exchange : plan.className ∈ exchangeClasses) :
    ((ofPlanBelow Builtin.registry parent plan).tag Builtin.registry
      config).decision.isExchange = true := by
  obtain ⟨rule, member, same, marked⟩ := Builtin.exists_exchange_rule _ exchange
  have found := Builtin.find?_operators_of_mem member
  rw [same] at found
  rw [Decision.isExchange, tag_rule, ofPlanBelow_rule, found]
  exact marked

/-- Every eligible exchange has an eligible neighbour: its consumer, or one of its inputs. -/
inductive Settled : Bool → PlanDecision → Prop
  | node {parentEligible decision exprs children} :
      (decision.node.className ∈ exchangeClasses → decision.eligible = true →
        parentEligible = true ∨ ∃ child ∈ children, child.eligible = true) →
      (∀ child ∈ children, Settled decision.eligible child) →
      Settled parentEligible ⟨decision, exprs, children⟩

theorem settled_settleBelow {tree : PlanDecision}
    (known : ∀ part ∈ tree.subtrees, part.decision.node.className ∈ exchangeClasses →
      part.decision.isExchange = true) (parentEligible : Bool) :
    (tree.settleBelow parentEligible).Settled parentEligible := by
  -- Settling goes from the top down: every input is settled below the decision just made.
  induction tree generalizing parentEligible with
  | node decision exprs children ih =>
      rw [settleBelow_eq]
      refine .node ?_ (List.forall_mem_map.mpr fun child member =>
        ih child member (fun part within => known part (mem_subtrees_of_child member within)) _)
      intro exchange kept
      rw [settleExchange_node] at exchange
      have marked : decision.isExchange = true := known _ (mem_subtrees_self _) exchange
      rcases (eligible_settleExchange_iff.mp kept).2 marked with above | ⟨child, member, below⟩
      · exact .inl above
      · refine .inr ⟨_, List.mem_map_of_mem member, ?_⟩
        rw [kept]
        exact eligible_settleBelow_of_parent below

end PlanDecision

theorem tagPlan_of_fixup {registry : Registry} {config : Config}
    (fixup : config.fixupExchangeOverhead = true) (plan : HostPlan) :
    tagPlan registry config plan =
      ((PlanDecision.ofPlan registry plan).tag registry config).settleBelow false :=
  if_pos fixup

theorem tagPlan_settled {config : Config} (fixup : config.fixupExchangeOverhead = true)
    (plan : HostPlan) : (tagPlan Builtin.registry config plan).Settled false := by
  rw [tagPlan_of_fixup fixup]
  apply PlanDecision.settled_settleBelow
  intro part within exchange
  obtain ⟨parent, inner, rfl⟩ := PlanDecision.mem_subtrees_tag_ofPlan within
  rw [PlanDecision.tag_node, PlanDecision.ofPlanBelow_node] at exchange
  exact PlanDecision.isExchange_tag_ofPlanBelow exchange

/-- A transition to rows takes the result of a device exchange whose inputs all come as rows. -/
def PlacedNode.Strands (consumer : PlacedNode) (operator : GpuOperator) : Prop :=
  consumer.operator = .columnarToRow ∧ operator.replaces ∈ exchangeClasses ∧
    ∃ inputs, ⟨.gpu operator, inputs⟩ ∈ consumer.inputs ∧
      ∀ input ∈ inputs, ∃ target, input.operator = .rowToColumnar target

theorem PlacedNode.strands_gpu_iff {made operator : GpuOperator} {inputs : List PlacedNode} :
    Strands ⟨.columnarToRow, [⟨.gpu made, inputs⟩]⟩ operator ↔
      operator = made ∧ operator.replaces ∈ exchangeClasses ∧
        ∀ input ∈ inputs, ∃ target, input.operator = .rowToColumnar target := by
  constructor
  · rintro ⟨-, exchange, taken, among, rows⟩
    cases List.mem_singleton.mp among
    exact ⟨rfl, exchange, rows⟩
  · rintro ⟨rfl, exchange, rows⟩
    exact ⟨rfl, exchange, inputs, List.mem_singleton_self _, rows⟩

namespace PlanDecision

/-- A device operator that replaces the consumer or an input of an operator that conversion leaves
out. -/
def BesideLeftOut (config : Config) (tree : PlanDecision) (operator : GpuOperator) : Prop :=
  ∃ consumer ∈ tree.subtrees, ∃ input ∈ consumer.children,
    (consumer.decision.leftOut = true ∧
      operator.Replaces Builtin.registry config input.decision.node) ∨
    (operator.Replaces Builtin.registry config consumer.decision.node ∧
      input.decision.leftOut = true)

variable {config : Config}

theorem BesideLeftOut.of_child {decision : Decision HostPlan GpuOperator}
    {exprs : List ExprDecision} {children : List PlanDecision} {child : PlanDecision}
    {operator : GpuOperator} (member : child ∈ children)
    (h : child.BesideLeftOut config operator) :
    BesideLeftOut config ⟨decision, exprs, children⟩ operator := by
  obtain ⟨consumer, within, rest⟩ := h
  exact ⟨consumer, mem_subtrees_of_child member within, rest⟩

/-- What a placed tree says about stranded exchanges before its consumer is known. An exchange at
its top may still be saved by an eligible consumer, unless that one is left out in turn. -/
structure Accounts (config : Config) (parentEligible : Bool) (tree : PlanDecision)
    (node : PlacedNode) : Prop where
  side : tree.eligible = true → tree.decision.leftOut = false →
    ∃ operator inputs, node = ⟨.gpu operator, inputs⟩
  inside : ∀ below ∈ node.subtrees, ∀ operator, below.Strands operator →
    tree.BesideLeftOut config operator
  top : ∀ operator, PlacedNode.Strands ⟨.columnarToRow, [node]⟩ operator →
    tree.BesideLeftOut config operator ∨
      (parentEligible = true ∧ operator.Replaces Builtin.registry config tree.decision.node)

theorem Accounts.intoRows {tree : PlanDecision} {node : PlacedNode}
    (h : tree.Accounts config false node) : ∀ below ∈ node.intoRows.subtrees, ∀ operator,
      below.Strands operator → tree.BesideLeftOut config operator := by
  intro below within operator strands
  unfold PlacedNode.intoRows at within
  split at within
  · rcases PlacedNode.mem_subtrees_iff.mp within with rfl | ⟨input, member, deeper⟩
    · rcases h.top operator strands with beside | ⟨above, _⟩
      · exact beside
      · cases above
    · rw [List.mem_singleton.mp member] at deeper
      exact h.inside below deeper operator strands
  · exact h.inside below within operator strands

theorem Accounts.intoColumnar {parentEligible : Bool} {tree : PlanDecision} {node : PlacedNode}
    (h : tree.Accounts config parentEligible node) (batchBytes : UInt64) :
    ∀ below ∈ (node.intoColumnar batchBytes).subtrees, ∀ operator,
      below.Strands operator → tree.BesideLeftOut config operator := by
  intro below within operator strands
  unfold PlacedNode.intoColumnar at within
  split at within
  · exact h.inside below within operator strands
  · rcases PlacedNode.mem_subtrees_iff.mp within with rfl | ⟨input, member, deeper⟩
    · cases strands.1
    · rw [List.mem_singleton.mp member] at deeper
      exact h.inside below deeper operator strands

/-- Transitions between an operator and its inputs strand nothing new. -/
theorem besideLeftOut_of_inputs {decision : Decision HostPlan GpuOperator}
    {exprs : List ExprDecision} {children : List PlanDecision} {nodes : List PlacedNode}
    {top : PlacedOperator} {wrap : PlacedNode → PlacedNode} (operates : top ≠ .columnarToRow)
    (inputs : List.Forall₂ (fun child node => ∀ below ∈ (wrap node).subtrees, ∀ operator,
      below.Strands operator → child.BesideLeftOut config operator) children nodes) :
    ∀ below ∈ PlacedNode.subtrees ⟨top, nodes.map wrap⟩, ∀ operator, below.Strands operator →
      BesideLeftOut config ⟨decision, exprs, children⟩ operator := by
  intro below within operator strands
  rcases PlacedNode.mem_subtrees_iff.mp within with rfl | ⟨input, member, deeper⟩
  · exact absurd strands.1 operates
  · obtain ⟨node, among, rfl⟩ := List.mem_map.mp member
    obtain ⟨child, consumes, known⟩ := exists_of_forall₂ inputs node among
    exact .of_child consumes (known below deeper operator strands)

/-- An exchange that is placed on the device above rows has a consumer on the device, or an input
that is left out. -/
theorem besideLeftOut_or_parent {parentEligible : Bool} {decision : Decision HostPlan GpuOperator}
    {exprs : List ExprDecision} {children : List PlanDecision} {nodes : List PlacedNode}
    {operator : GpuOperator} {batchBytes : UInt64} (eligible : decision.eligible = true)
    (replaces : operator.Replaces Builtin.registry config decision.node)
    (settled : Settled parentEligible ⟨decision, exprs, children⟩)
    (inputs : List.Forall₂ (Accounts config true) children nodes)
    (exchange : operator.replaces ∈ exchangeClasses)
    (rows : ∀ input ∈ nodes.map (PlacedNode.intoColumnar batchBytes),
      ∃ target, input.operator = .rowToColumnar target) :
    BesideLeftOut config ⟨decision, exprs, children⟩ operator ∨ parentEligible = true := by
  rw [replaces.replaces] at exchange
  cases settled with
  | node neighbour _ =>
      rcases neighbour exchange eligible with above | ⟨child, member, onGpu⟩
      · exact .inr above
      · refine .inl ⟨_, mem_subtrees_self _, child, member, .inr ⟨replaces, ?_⟩⟩
        by_contra stays
        obtain ⟨node, beside, known⟩ := exists_of_forall₂ inputs.flip child member
        obtain ⟨input, below, rfl⟩ := known.side onGpu (Bool.not_eq_true _ ▸ stays)
        obtain ⟨target, row⟩ := rows _ (List.mem_map_of_mem beside)
        cases row

/-- Conversion accounts for every stranded exchange of a settled tree. -/
theorem PlacedAs.accounts {tree : PlanDecision} {node : PlacedNode}
    (placed : tree.PlacedAs Builtin.registry config node) (ready : tree.AllReady config)
    {parentEligible : Bool} (settled : tree.Settled parentEligible) :
    tree.Accounts config parentEligible node := by
  induction placed using PlacedAs.rec
    (motive_2 := fun trees nodes _ => (∀ tree ∈ trees, tree.AllReady config) →
      ∀ parentEligible, (∀ tree ∈ trees, tree.Settled parentEligible) →
        List.Forall₂ (Accounts config parentEligible) trees nodes)
    generalizing parentEligible with
    | kept ineligible _ inputs =>
        cases settled with
        | node _ below =>
            rw [ineligible] at below
            have known := inputs ready.child false below
            constructor
            case side => exact fun eligible => absurd (ineligible.symm.trans eligible) nofun
            case inside =>
              exact besideLeftOut_of_inputs PlacedOperator.noConfusion
                (known.imp fun _ _ => Accounts.intoRows)
            case top =>
              -- A host operator at the top is no device exchange.
              rintro operator ⟨-, -, taken, among, -⟩
              cases List.mem_singleton.mp among
    | @elided decision exprs child rest node rule allowed leaves _ below =>
        have eligible := Decision.eligible_of_ensureEligible allowed
        have leftOut := Decision.leftOut_of_marked eligible leaves
        cases settled with
        | node _ belowSettled =>
            rw [eligible] at belowSettled
            have member : child ∈ child :: rest := List.mem_cons_self
            have known := below (ready.child child member) (belowSettled child member)
            constructor
            case side =>
              intro _ stays
              exact absurd (stays.symm.trans leftOut) nofun
            case inside =>
              intro part within operator strands
              exact .of_child member (known.inside part within operator strands)
            case top =>
              intro operator strands
              -- An exchange that counted on this operator now has it as its left out consumer.
              rcases known.top operator strands with beside | ⟨-, replaces⟩
              · exact .inl (.of_child member beside)
              · exact .inl ⟨_, mem_subtrees_self _, child, member, .inl ⟨leftOut, replaces⟩⟩
    | replaced allowed stays arguments _ inputs =>
        have eligible := Decision.eligible_of_ensureEligible allowed
        have replaces := ready.ready.replaces arguments
        have known := inputs ready.child true (by
          cases settled with
          | node _ below => exact eligible ▸ below)
        constructor
        case side => exact fun _ _ => ⟨_, _, rfl⟩
        case inside =>
          exact besideLeftOut_of_inputs PlacedOperator.noConfusion
            (known.imp fun _ _ account => account.intoColumnar _)
        case top =>
          intro operator strands
          obtain ⟨rfl, exchange, rows⟩ := PlacedNode.strands_gpu_iff.mp strands
          exact (besideLeftOut_or_parent eligible replaces settled known exchange rows).imp_right
            fun above => ⟨above, replaces⟩
    | nil => exact .nil
    | cons _ _ first later =>
        rename_i ready parentEligible settled
        obtain ⟨head, rest⟩ := List.forall_mem_cons.mp ready
        obtain ⟨headSettled, restSettled⟩ := List.forall_mem_cons.mp settled
        exact .cons (first head headSettled) (later rest parentEligible restSettled)

variable {registry : Registry}

theorem PlacedAs.rows_of_ineligible {tree : PlanDecision} {node : PlacedNode}
    (placed : tree.PlacedAs registry config node) (ineligible : tree.eligible = false) :
    node.isColumnar = false := by
  cases placed with
  | kept => rfl
  | elided allowed =>
      have eligible := Decision.eligible_of_ensureEligible allowed
      cases eligible.symm.trans ineligible
  | replaced allowed =>
      have eligible := Decision.eligible_of_ensureEligible allowed
      cases eligible.symm.trans ineligible

/-- Over host operators an exchange is stranded as soon as its consumer is left out. -/
theorem PlacedAs.strands_of_leftOut {consumer exchange : PlanDecision} {node : PlacedNode}
    (placed : consumer.PlacedAs Builtin.registry config node) (ready : consumer.AllReady config)
    (only : consumer.children = [exchange]) (leaves : consumer.decision.leftOut = true)
    (exchanges : exchange.decision.node.className ∈ exchangeClasses)
    (eligible : exchange.eligible = true) (stays : exchange.decision.noOp = false)
    (rows : ∀ child ∈ exchange.children, child.eligible = false) :
    ∃ operator, node.intoRows.Strands operator := by
  obtain ⟨allowed, marked⟩ := Bool.and_eq_true_iff.mp leaves
  cases placed with
  | kept ineligible => cases allowed.symm.trans ineligible
  | replaced _ unmarked => cases marked.symm.trans unmarked
  | elided _ _ below =>
      obtain ⟨rfl, rfl⟩ := List.cons.inj only
      cases below with
      | kept ineligible => cases eligible.symm.trans ineligible
      | elided _ left => cases left.symm.trans stays
      | replaced _ _ converted inputs =>
          have replaces := ((ready.child _ List.mem_cons_self).ready.replaces converted).replaces
          refine ⟨_, PlacedNode.strands_gpu_iff.mpr ⟨rfl, replaces ▸ exchanges, ?_⟩⟩
          refine List.forall_mem_map.mpr fun input member => ?_
          obtain ⟨child, consumed, placed⟩ := exists_of_forall₂ inputs.forall₂ input member
          have row := placed.rows_of_ineligible (rows child consumed)
          exact ⟨config.batchSizeBytes, by rw [PlacedNode.intoColumnar, row]; rfl⟩

/-- An exchange between rows that stays eligible for the sake of its consumer is stranded when that
consumer is left out. -/
theorem PlacedAs.strands_of_settleBelow {consumer exchange : PlanDecision} {node : PlacedNode}
    (placed : (consumer.settleBelow false).PlacedAs Builtin.registry config node)
    (ready : (consumer.settleBelow false).AllReady config) (only : consumer.children = [exchange])
    (allowed : consumer.eligible = true) (marked : consumer.decision.noOp = true)
    (exchanges : exchange.decision.node.className ∈ exchangeClasses)
    (eligible : exchange.eligible = true) (stays : exchange.decision.noOp = false)
    (rows : ∀ child ∈ exchange.children, child.eligible = false) :
    ∃ operator, node.intoRows.Strands operator := by
  have stands : (consumer.settleBelow false).eligible = true :=
    eligible_settleBelow_of_child allowed (only ▸ List.mem_singleton_self exchange) eligible
  have kept : (exchange.settleBelow true).eligible = true := eligible_settleBelow_of_parent eligible
  apply placed.strands_of_leftOut ready
  case only => rw [settleBelow_children_of_eligible stands, only, List.map_singleton]
  case leaves => exact Decision.leftOut_of_marked stands ((settleBelow_noOp ..).trans marked)
  case exchanges => rwa [settleBelow_node]
  case eligible => exact kept
  case stays => exact (settleBelow_noOp ..).trans stays
  case rows =>
    rw [settleBelow_children_of_eligible kept]
    refine List.forall_mem_map.mpr fun child member => Bool.eq_false_iff.mpr fun onGpu => ?_
    cases (eligible_of_settleBelow onGpu).symm.trans (rows child member)

theorem ineligible_tag_of_no_rule {parent : Option HostPlan} {plan : HostPlan}
    (missing : registry.operators.find? plan.className = none) :
    ((ofPlanBelow registry parent plan).tag registry config).eligible = false := by
  rw [PlanDecision.eligible, Decision.eligible,
    reasons_tag_of_no_rule (ofPlanBelow_reasons ..) (by rw [ofPlanBelow_node, missing])]
  rfl

end PlanDecision

def keyColumns : List Column :=
  [.ofType "k" .int]

/-- A broadcast of what the host produces. -/
def hostBroadcast : HostPlan :=
  { (HostPlan.ofClass "BroadcastExchangeExec").withOutput keyColumns with
    children := [(HostPlan.ofClass "RangeExec").withOutput keyColumns] }

/-- A projection that changes nothing, over a broadcast of what the host produces. -/
def projectedBroadcast : HostPlan :=
  { (HostPlan.ofClass "ProjectExec").withOutput keyColumns with
    expressions := [HostExpr.column "k" .int]
    children := [hostBroadcast] }

namespace PlanDecision

theorem hostBroadcast_tag :
    let tree := (ofPlanBelow Builtin.registry (some projectedBroadcast) hostBroadcast).tag
      Builtin.registry .default
    (tree.eligible = true ∧ tree.decision.noOp = false) ∧
      ∀ child ∈ tree.children, child.eligible = false := by
  intro tree
  constructor
  · exact tag_of_rule (ofPlanBelow_reasons ..) rfl (List.forall_mem_nil _) (by decide +kernel)
  · rw [tag_children, ofPlanBelow_children, List.map_map]
    refine List.forall_mem_map.mpr (List.forall_mem_singleton.mpr ?_)
    exact ineligible_tag_of_no_rule (RuleTable.find?_ofList_eq_none (by decide +kernel))

theorem projectedBroadcast_tag :
    let tree := (ofPlan Builtin.registry projectedBroadcast).tag Builtin.registry .default
    tree.eligible = true ∧ tree.decision.noOp = true := by
  have key : ∀ expr ∈ (ofPlan Builtin.registry projectedBroadcast).exprs,
      (expr.tag Builtin.registry .default).eligible = true :=
    List.forall_mem_singleton.mpr (ExprDecision.tag_keyColumn _).1
  exact tag_of_rule (ofPlanBelow_reasons ..) rfl key (by decide +kernel)

end PlanDecision

theorem place_projectedBroadcast :
    ∃ placement, place Builtin.registry .default projectedBroadcast = .ok placement ∧
      ∃ consumer ∈ placement.plan.root.subtrees, ∃ operator, consumer.Strands operator := by
  obtain ⟨placement, placed⟩ := exists_placement .default projectedBroadcast rfl
  obtain ⟨node, made, same⟩ := placedAs_of_place rfl placed
  have result : placement.plan.root = node.intoRows := congrArg PlacedPlan.root same
  refine ⟨placement, placed, node.intoRows, result ▸ node.intoRows.mem_subtrees_self, ?_⟩
  have ready := tagPlan_allReady .default projectedBroadcast
  rw [tagPlan_of_fixup rfl] at made ready
  obtain ⟨⟨kept, stays⟩, source⟩ := PlanDecision.hostBroadcast_tag
  obtain ⟨allowed, marked⟩ := PlanDecision.projectedBroadcast_tag
  apply made.strands_of_settleBelow ready _ allowed marked _ kept stays source
  · rw [PlanDecision.tag_children, PlanDecision.ofPlan, PlanDecision.ofPlanBelow_children]
    rfl
  · rw [PlanDecision.tag_node, PlanDecision.ofPlanBelow_node]
    exact List.mem_cons_of_mem _ List.mem_cons_self

/-- With the built-in rules an exchange ends up on the device between host neighbours only where
conversion leaves out its consumer or one of its inputs. -/
theorem place_strands_beside_leftOut (config : Config) (plan : HostPlan) (placement : Placement)
    (enabled : config.sqlEnabled = true) (fixup : config.fixupExchangeOverhead = true)
    (placed : place Builtin.registry config plan = .ok placement) :
    ∀ consumer ∈ placement.plan.root.subtrees, ∀ operator, consumer.Strands operator →
      (tagPlan Builtin.registry config plan).BesideLeftOut config operator := by
  obtain ⟨node, made, same⟩ := placedAs_of_place enabled placed
  have known := made.accounts (tagPlan_allReady config plan) (tagPlan_settled fixup plan)
  rw [same]
  exact known.intoRows

/-- The left out projection is the reason why this broadcast is stranded. -/
theorem place_strands_beside_leftOut_projected :
    Config.default.sqlEnabled = true ∧ Config.default.fixupExchangeOverhead = true ∧
      ∃ placement, place Builtin.registry .default projectedBroadcast = .ok placement ∧
        ∃ consumer ∈ placement.plan.root.subtrees, ∃ operator, consumer.Strands operator ∧
          (tagPlan Builtin.registry .default projectedBroadcast).BesideLeftOut .default
            operator := by
  obtain ⟨placement, placed, consumer, within, operator, strands⟩ := place_projectedBroadcast
  exact ⟨rfl, rfl, placement, placed, consumer, within, operator, strands,
    place_strands_beside_leftOut .default projectedBroadcast placement rfl rfl placed consumer
      within operator strands⟩

/-- Placed plans do strand exchanges, although exchanges are settled before. -/
theorem not_forall_place_not_strands :
    ¬ ∀ config plan placement, config.sqlEnabled = true → config.fixupExchangeOverhead = true →
      place Builtin.registry config plan = .ok placement →
      ∀ consumer ∈ placement.plan.root.subtrees, ∀ operator, ¬ consumer.Strands operator := by
  intro never
  obtain ⟨placement, placed, consumer, within, operator, strands⟩ := place_projectedBroadcast
  exact never .default projectedBroadcast placement rfl rfl placed consumer within operator strands

end GpuPlacement
