import GpuPlacement.Proofs.Builtin
import GpuPlacement.Proofs.Placing
import GpuPlacement.Proofs.Support
/-!
Conversion after tagging with the built-in rules never fails. What it needs holds of every part of a
tagged plan.
-/
namespace GpuPlacement

/-- Only projections onto the columns of a single input are ever left out. -/
theorem Builtin.identity_of_noOp : ∀ rule ∈ operatorRules, ∀ context,
    (rule.check context).noOp = true → ∃ child, context.node.children = [child] ∧
      OperatorCheck.isIdentity context.node.expressions child.output = true := by
  apply forall_operator_check fun check =>
    ∀ context, (check context).noOp = true → ∃ child, context.node.children = [child] ∧
      OperatorCheck.isIdentity context.node.expressions child.output = true
  case identityProjection =>
    intro context marked
    unfold OperatorCheck.identityProjection at marked
    split at marked
    next child only => exact ⟨child, only, marked⟩
    next => cases marked
  case filterCondition =>
    intro context marked
    unfold OperatorCheck.filterCondition at marked
    split at marked <;> cases marked
  case groupingKeys =>
    intro context marked
    unfold OperatorCheck.groupingKeys at marked
    dsimp only at marked
    split at marked <;> cases marked
  case fileScan =>
    intro context marked
    unfold OperatorCheck.fileScan at marked
    split at marked <;> cases marked
  all_goals
    intro context marked
    cases marked

/-- Only casts are ever left out, and their first argument has their own type. -/
theorem Builtin.sameType_of_noOp : ∀ rule ∈ exprRules, ∀ context,
    (rule.check context).noOp = true →
      ∃ child rest, context.node.children = child :: rest ∧ child.type = context.node.type := by
  apply forall_expr_check fun check => ∀ context, (check context).noOp = true →
    ∃ child rest, context.node.children = child :: rest ∧ child.type = context.node.type
  case cast =>
    intro context marked
    unfold ExprCheck.cast at marked
    split at marked
    next => cases marked
    next child rest some =>
      split at marked
      next same => exact ⟨child, rest, some, same⟩
      next => cases marked
  case aggregateOwner =>
    intro context marked
    unfold ExprCheck.aggregateOwner at marked
    split at marked <;> cases marked
  all_goals
    intro context marked
    cases marked

/-- What tagging makes of an expression with a built-in rule that supports it. -/
theorem ExprDecision.tag_of_rule {config : Config} {tree : ExprDecision} {marked : Bool}
    (untagged : tree.decision.reasons = []) (unmarked : tree.decision.noOp = false)
    (below : ∀ child ∈ tree.children, (child.tag Builtin.registry config).eligible = true)
    (h : ∃ rule ∈ Builtin.exprRules, rule.spec.className = tree.decision.node.className ∧
      let seen := context config ⟨tree.decision, tree.children.map (.tag Builtin.registry config)⟩
      rule.Supports seen ∧ (rule.check seen).noOp = marked) :
    (tree.tag Builtin.registry config).eligible = true ∧
      (tree.tag Builtin.registry config).decision.noOp = marked := by
  obtain ⟨rule, member, same, supports, mark⟩ := h
  have found := same ▸ Builtin.find?_exprs_of_mem member
  exact ⟨eligible_tag_of_supported untagged ⟨rule, found, supports⟩ below,
    (noOp_tag unmarked found).trans mark⟩

/-- By default a reference to an integer column is eligible in every operator. -/
theorem ExprDecision.tag_keyColumn (owner : Option HostPlan) :
    let tree := (ofExprAt Builtin.registry .expression none owner (.column "k" .int)).tag
      Builtin.registry .default
    tree.eligible = true ∧ tree.decision.noOp = false := by
  have member : Builtin.leafRules[1] ∈ Builtin.exprRules := by simp [Builtin.exprRules]
  refine tag_of_rule (ofExprAt_reasons ..) rfl (List.forall_mem_nil _) ⟨_, member, rfl, ?_, rfl⟩
  constructor
  case enabled => exact (by decide +kernel : Builtin.leafRules[1].spec.enabled .default = true)
  case types => rfl
  case check => rfl

/-- What tagging makes of an operator with a built-in rule that supports it. -/
theorem PlanDecision.tag_of_rule {config : Config} {tree : PlanDecision} {marked : Bool}
    (untagged : tree.decision.reasons = []) (unmarked : tree.decision.noOp = false)
    (below : ∀ expr ∈ tree.exprs, (expr.tag Builtin.registry config).eligible = true)
    (h : ∃ rule ∈ Builtin.operatorRules, rule.spec.className = tree.decision.node.className ∧
      let seen := context config ⟨tree.decision, tree.exprs.map (.tag Builtin.registry config),
        tree.children.map (.tag Builtin.registry config)⟩
      rule.Supports seen ∧ (rule.check seen).noOp = marked) :
    (tree.tag Builtin.registry config).eligible = true ∧
      (tree.tag Builtin.registry config).decision.noOp = marked := by
  obtain ⟨rule, member, same, supports, mark⟩ := h
  have found := same ▸ Builtin.find?_operators_of_mem member
  exact ⟨eligible_tag_of_supported untagged ⟨rule, found, supports⟩ below,
    (noOp_tag unmarked found).trans mark⟩

/-- Exchanges aside, a supported root stays eligible when exchanges are settled. -/
theorem tagPlan_of_rule {config : Config} {plan : HostPlan} {marked : Bool}
    (below : ∀ expr ∈ PlanDecision.ofExpressions Builtin.registry plan,
      (expr.tag Builtin.registry config).eligible = true)
    (h : ∃ rule ∈ Builtin.operatorRules, rule.spec.className = plan.className ∧
      rule.spec.isExchange = false ∧
      let tree := PlanDecision.ofPlan Builtin.registry plan
      let seen := PlanDecision.context config ⟨tree.decision,
        tree.exprs.map (.tag Builtin.registry config),
        tree.children.map (.tag Builtin.registry config)⟩
      rule.Supports seen ∧ (rule.check seen).noOp = marked) :
    (tagPlan Builtin.registry config plan).eligible = true ∧
      (tagPlan Builtin.registry config plan).decision.noOp = marked := by
  obtain ⟨rule, member, same, internal, supports⟩ := h
  have tagged : ((PlanDecision.ofPlan Builtin.registry plan).tag Builtin.registry config).eligible
      = true ∧ ((PlanDecision.ofPlan Builtin.registry plan).tag Builtin.registry
        config).decision.noOp = marked := by
    refine PlanDecision.tag_of_rule (PlanDecision.ofPlanBelow_reasons ..)
      (PlanDecision.ofPlanBelow_noOp ..) ?_ ⟨rule, member, ?_, supports⟩
    · rwa [PlanDecision.ofPlan, PlanDecision.ofPlanBelow_exprs]
    · rw [PlanDecision.ofPlan, PlanDecision.ofPlanBelow_node, same]
  have found := Builtin.find?_operators_of_mem member
  have stays : ((PlanDecision.ofPlan Builtin.registry plan).tag Builtin.registry
      config).decision.isExchange = false := by
    rw [Decision.isExchange, PlanDecision.tag_rule, PlanDecision.ofPlan,
      PlanDecision.ofPlanBelow_rule, ← same, found]
    exact internal
  unfold tagPlan
  split
  · rw [PlanDecision.settleExchanges, PlanDecision.settleBelow_noOp, PlanDecision.settleBelow_eq]
    refine ⟨PlanDecision.eligible_settleExchange_iff.mpr ⟨tagged.1, fun exchange => ?_⟩, tagged.2⟩
    exact absurd exchange (stays ▸ Bool.false_ne_true)
  · exact tagged

theorem Decision.ensureEligible_eq_ok {Node Op : Type} [HostNode Node] {decision : Decision Node Op}
    {rule : RuleSpec} (found : decision.rule = some rule) (eligible : decision.eligible = true) :
    decision.ensureEligible = .ok rule := by
  rw [ensureEligible, found, eligible]

namespace ExprDecision

variable {registry : Registry} {config : Config}

theorem convert_fst {decision : Decision HostExpr GpuExpr} {rule : RuleSpec}
    (fresh : decision.converted = none) (allowed : decision.ensureEligible = .ok rule)
    (children : List ExprDecision) :
    (convert registry config ⟨decision, children⟩).1 =
      (convertAll registry config children).1.bind (combine registry config decision) := by
  rw [convert, fresh, allowed]
  dsimp only
  rcases convertAll registry config children with ⟨error | arguments, left⟩
  · rfl
  · dsimp only [Except.bind]
    cases combine registry config decision arguments <;> rfl

theorem convertAll_ok {trees : List ExprDecision}
    (each : ∀ tree ∈ trees, ∃ expr, (tree.convert registry config).1 = .ok expr) :
    ∃ exprs, (convertAll registry config trees).1 = .ok exprs := by
  induction trees with
  | nil => exact ⟨[], rfl⟩
  | cons tree rest ih =>
      obtain ⟨first, later⟩ := List.forall_mem_cons.mp each
      obtain ⟨expr, done⟩ := first
      obtain ⟨exprs, others⟩ := ih later
      exact ⟨expr :: exprs, by rw [convertAll_cons_fst, done, others]; rfl⟩

theorem combine_ok {decision : Decision HostExpr GpuExpr} {arguments : List GpuExpr}
    (given : decision.noOp = true → arguments ≠ []) :
    ∃ expr, combine registry config decision arguments = .ok expr := by
  unfold combine
  split
  next marked =>
    obtain ⟨first, rest, rfl⟩ := List.exists_cons_of_ne_nil (given marked)
    exact ⟨first, rfl⟩
  next => exact ⟨_, rfl⟩

/-- What tagging leaves to conversion: no earlier result, a rule and eligible arguments wherever the
expression is eligible, and an argument to take its place where it is left out. -/
structure Ready (tree : ExprDecision) : Prop where
  converted : tree.decision.converted = none
  rule : tree.eligible = true → ∃ rule, tree.decision.rule = some rule
  arguments : tree.eligible = true → ∀ child ∈ tree.children, child.eligible = true
  given : tree.decision.noOp = true → tree.children ≠ []

theorem ready_tag_ofExprAt {kind : RuleKind} {parent : Option HostExpr} {owner : Option HostPlan}
    {expr : HostExpr} :
    ((ofExprAt Builtin.registry kind parent owner expr).tag Builtin.registry config).Ready := by
  constructor
  case converted => rw [tag_converted, ofExprAt_converted]
  case rule =>
    intro eligible
    obtain ⟨rule, found⟩ := (supported_of_eligible_tag eligible).1
    rw [ofExprAt_node] at found
    exact ⟨rule.spec, by rw [tag_rule, ofExprAt_rule, found, Option.map_some]⟩
  case arguments => exact fun eligible => (supported_of_eligible_tag eligible).2
  case given =>
    intro marked
    obtain ⟨rule, context, found, here, check⟩ := exists_check_of_marked (ofExprAt_noOp ..) marked
    obtain ⟨child, rest, given, -⟩ :=
      Builtin.sameType_of_noOp rule (Builtin.mem_of_find?_exprs found) context check
    rw [here, ofExprAt_node] at given
    simp [given]

/-- An eligible expression converts, since its arguments are eligible, too. -/
theorem convert_ok {tree : ExprDecision} (ready : ∀ part ∈ tree.subtrees, part.Ready)
    (eligible : tree.eligible = true) :
    ∃ expr, (tree.convert registry config).1 = .ok expr := by
  induction tree with
  | node decision children ih =>
      obtain ⟨top, below⟩ := forall_mem_subtrees_iff.mp ready
      obtain ⟨rule, found⟩ := top.rule eligible
      obtain ⟨arguments, done⟩ := convertAll_ok fun child member =>
        ih child member (below child member) (top.arguments eligible child member)
      have given : decision.noOp = true → arguments ≠ [] := by
        intro marked
        have same := congrArg List.length (convertAll_ok_iff.mp done)
        rw [List.length_map, List.length_map] at same
        exact List.ne_nil_of_length_pos (same ▸ List.length_pos_of_ne_nil (top.given marked))
      obtain ⟨expr, combined⟩ := combine_ok given
      refine ⟨expr, ?_⟩
      rw [convert_fst top.converted (Decision.ensureEligible_eq_ok found eligible), done]
      exact combined

theorem convert_tag_ok {kind : RuleKind} {parent : Option HostExpr} {owner : Option HostPlan}
    {expr : HostExpr}
    (eligible : ((ofExprAt Builtin.registry kind parent owner expr).tag Builtin.registry
      config).eligible = true) :
    ∃ done, (((ofExprAt Builtin.registry kind parent owner expr).tag Builtin.registry
      config).convert Builtin.registry config).1 = .ok done := by
  refine convert_ok (fun part within => ?_) eligible
  rw [subtrees_tag] at within
  obtain ⟨below, deeper, rfl⟩ := List.mem_map.mp within
  obtain ⟨kind, parent, leaf, rfl⟩ := mem_subtrees_ofExprAt deeper
  exact ready_tag_ofExprAt

end ExprDecision

namespace PlanDecision

/-- What tagging leaves to conversion: the tagged expressions of the operator and no earlier result,
a rule and eligible expressions wherever the operator is eligible, and a single input wherever it is
left out. -/
structure Ready (config : Config) (tree : PlanDecision) : Prop where
  exprs : tree.exprs = (ofExpressions Builtin.registry tree.decision.node).map
    (.tag Builtin.registry config)
  converted : tree.decision.converted = none
  rule : tree.eligible = true → ∃ rule, tree.decision.rule = some rule
  dependencies : tree.eligible = true → ∀ expr ∈ tree.exprs, expr.eligible = true
  single : tree.decision.noOp = true → ∃ child, tree.children = [child]

def AllReady (config : Config) (tree : PlanDecision) : Prop :=
  ∀ part ∈ tree.subtrees, part.Ready config

variable {config : Config}

theorem AllReady.ready {tree : PlanDecision} (h : tree.AllReady config) : tree.Ready config :=
  h tree tree.mem_subtrees_self

theorem AllReady.child {decision : Decision HostPlan GpuOperator} {exprs : List ExprDecision}
    {children : List PlanDecision} (h : AllReady config ⟨decision, exprs, children⟩) :
    ∀ child ∈ children, child.AllReady config :=
  fun _ member part within => h part (mem_subtrees_of_child member within)

theorem ready_tag_ofPlanBelow {parent : Option HostPlan} {plan : HostPlan} :
    ((ofPlanBelow Builtin.registry parent plan).tag Builtin.registry config).Ready config := by
  constructor
  case exprs => rw [tag_exprs, tag_node, ofPlanBelow_exprs, ofPlanBelow_node]
  case converted => rw [tag_converted, ofPlanBelow_eq, Decision.undecided]
  case rule =>
    intro eligible
    obtain ⟨rule, found⟩ := (supported_of_eligible_tag eligible).1
    rw [ofPlanBelow_node] at found
    exact ⟨rule.spec, by rw [tag_rule, ofPlanBelow_rule, found, Option.map_some]⟩
  case dependencies => exact fun eligible => (supported_of_eligible_tag eligible).2
  case single =>
    intro marked
    obtain ⟨rule, context, found, here, check⟩ :=
      exists_check_of_marked (ofPlanBelow_noOp ..) marked
    obtain ⟨child, only, -⟩ :=
      Builtin.identity_of_noOp rule (Builtin.mem_of_find?_operators found) context check
    rw [here, ofPlanBelow_node] at only
    rw [tag_children, ofPlanBelow_children, only]
    exact ⟨_, rfl⟩

/-- An exchange that is sent back is no longer eligible, and other operators stay as they are. -/
theorem Ready.settleBelow {tree : PlanDecision} (h : tree.Ready config) (parentEligible : Bool) :
    (tree.settleBelow parentEligible).Ready config := by
  constructor
  case exprs =>
    rw [settleBelow_exprs, settleBelow_node]
    exact h.exprs
  case converted =>
    rw [settleBelow_eq, settleExchange_converted]
    exact h.converted
  case rule =>
    intro eligible
    obtain ⟨rule, found⟩ := h.rule (eligible_of_settleBelow eligible)
    exact ⟨rule, by rw [settleBelow_eq, settleExchange_rule, found]⟩
  case dependencies =>
    intro eligible
    rw [settleBelow_exprs]
    exact h.dependencies (eligible_of_settleBelow eligible)
  case single =>
    intro marked
    rw [settleBelow_eq, settleExchange_noOp] at marked
    obtain ⟨child, only⟩ := h.single marked
    rw [settleBelow_eq, only]
    exact ⟨_, rfl⟩

end PlanDecision

theorem tagPlan_allReady (config : Config) (plan : HostPlan) :
    (tagPlan Builtin.registry config plan).AllReady config := by
  have tagged : ((PlanDecision.ofPlan Builtin.registry plan).tag Builtin.registry config).AllReady
      config := by
    intro part within
    obtain ⟨parent, inner, rfl⟩ := PlanDecision.mem_subtrees_tag_ofPlan within
    exact PlanDecision.ready_tag_ofPlanBelow
  unfold tagPlan
  split
  · intro part within
    obtain ⟨inner, below, parentEligible, rfl⟩ := PlanDecision.mem_subtrees_settleBelow within
    exact (tagged inner below).settleBelow parentEligible
  · exact tagged

namespace PlanDecision

variable {config : Config}

/-- The expressions of an eligible operator convert. -/
theorem Ready.arguments {tree : PlanDecision} (h : tree.Ready config)
    (eligible : tree.eligible = true) :
    ∃ converted,
      (ExprDecision.convertAll Builtin.registry config tree.exprs).1 = .ok converted := by
  apply ExprDecision.convertAll_ok
  intro expr member
  have allowed := h.dependencies eligible expr member
  rw [h.exprs] at member
  obtain ⟨undecided, among, rfl⟩ := List.mem_map.mp member
  obtain ⟨kind, root, rfl⟩ := mem_ofExpressions among
  exact ExprDecision.convert_tag_ok allowed

theorem exists_allPlacedAs {registry : Registry} {trees : List PlanDecision}
    (each : ∀ tree ∈ trees, ∃ node, tree.PlacedAs registry config node) :
    ∃ nodes, AllPlacedAs registry config trees nodes := by
  induction trees with
  | nil => exact ⟨[], .nil⟩
  | cons tree rest ih =>
      obtain ⟨first, later⟩ := List.forall_mem_cons.mp each
      obtain ⟨node, placed⟩ := first
      obtain ⟨nodes, others⟩ := ih later
      exact ⟨node :: nodes, .cons placed others⟩

theorem AllReady.exists_placedAs {tree : PlanDecision} (ready : tree.AllReady config) :
    ∃ node, tree.PlacedAs Builtin.registry config node := by
  induction tree with
  | node decision exprs children ih =>
      have inputs : ∀ child ∈ children, ∃ node, child.PlacedAs Builtin.registry config node :=
        fun child member => ih child member (ready.child child member)
      obtain ⟨nodes, placed⟩ := exists_allPlacedAs inputs
      cases eligible : decision.eligible with
      | false => exact ⟨_, .kept eligible placed⟩
      | true =>
          obtain ⟨rule, found⟩ := ready.ready.rule eligible
          have allowed := Decision.ensureEligible_eq_ok found eligible
          cases marked : decision.noOp with
          | true =>
              obtain ⟨child, only⟩ := ready.ready.single marked
              obtain rfl : children = [child] := only
              obtain ⟨node, below⟩ := inputs child List.mem_cons_self
              exact ⟨node, .elided allowed marked below⟩
          | false =>
              obtain ⟨converted, arguments⟩ := ready.ready.arguments eligible
              exact ⟨_, .replaced allowed marked arguments placed⟩

end PlanDecision

/-- Outside test mode every plan is placed. -/
theorem exists_placement (config : Config) (plan : HostPlan)
    (untested : config.testEnabled = false) :
    ∃ placement, place Builtin.registry config plan = .ok placement := by
  cases enabled : config.sqlEnabled with
  | false => exact ⟨_, place_ok_iff.mpr (.inl ⟨enabled, rfl⟩)⟩
  | true =>
      obtain ⟨node, placed⟩ := (tagPlan_allReady config plan).exists_placedAs
      have quiet : config.testEnabled = true →
          (tagPlan Builtin.registry config plan).unexpected? config.testAllowedNonGpu = none :=
        fun tested => absurd tested (untested ▸ Bool.false_ne_true)
      exact ⟨_, place_ok_iff.mpr (.inr ⟨enabled, quiet, node, placed, rfl⟩)⟩

end GpuPlacement
