import GpuPlacement.Proofs.Tagging
/-!
Tagging finds exactly the supported nodes: nothing unsupported slips through, and nothing supported
is rejected. Support is a matter of single nodes, of their rules and what these see.
-/
namespace GpuPlacement

theorem Finding.reasonIf_eq_nil_iff {condition : Bool} {reason : String} :
    reasonIf condition reason = [] ↔ condition = false := by
  cases condition <;> simp [reasonIf]

/-- A rule supports a node when it is switched on, rejects none of the node's types, and its check
adds no reason. -/
structure Rule.Supports {Node Child Op : Type} [HostNode Node] (rule : Rule Node Child Op)
    (context : TagContext Node Child) : Prop where
  enabled : rule.spec.enabled context.config = true
  types : rule.spec.typeReasons context.node = []
  check : (rule.check context).reasons = []

instance {Node Child Op : Type} [HostNode Node] (rule : Rule Node Child Op)
    (context : TagContext Node Child) : Decidable (rule.Supports context) :=
  decidable_of_iff
    (rule.spec.enabled context.config = true ∧ rule.spec.typeReasons context.node = [] ∧
      (rule.check context).reasons = [])
    ⟨fun ⟨enabled, types, check⟩ => ⟨enabled, types, check⟩,
      fun h => ⟨h.enabled, h.types, h.check⟩⟩

theorem Rule.examine_reasons_eq_nil_iff {Node Child Op : Type} [HostNode Node]
    {rule : Rule Node Child Op} {context : TagContext Node Child} :
    (rule.examine context).reasons = [] ↔ rule.Supports context := by
  simp only [Rule.examine, List.append_eq_nil_iff, Finding.reasonIf_eq_nil_iff, Bool.not_eq_false']
  constructor
  · rintro ⟨⟨enabled, types⟩, check⟩
    exact ⟨enabled, types, check⟩
  · intro h
    exact ⟨⟨h.enabled, h.types⟩, h.check⟩

/-- Without a rule a node is rejected, whatever else is known about it. -/
theorem Decision.judge_eligible_iff {Node Op : Type} [HostNode Node] {decision : Decision Node Op}
    {finding : Option Finding} {dependency : Option String} :
    (decision.judge finding dependency).eligible = true ↔
      decision.reasons = [] ∧ (∃ found, finding = some found ∧ found.reasons = []) ∧
        dependency = none := by
  cases finding with
  | none => simp [Decision.judge, Decision.eligible, Decision.reject]
  | some found => simp [Decision.judge, Decision.eligible]

namespace ExprDecision

/-- What the check of a rule sees of an expression. -/
def context (config : Config) (tree : ExprDecision) : TagContext HostExpr ExprDecision :=
  ⟨tree.decision.node, tree.decision.parent, tree.decision.owner, config, tree.children, []⟩

/-- The expression has a rule, and the rule supports it. Its arguments may be ineligible. -/
def Supported (registry : Registry) (config : Config) (tree : ExprDecision) : Prop :=
  ∃ rule, registry.exprs.find? tree.decision.node.className = some rule ∧
    rule.Supports (tree.context config)

variable {registry : Registry} {config : Config}

theorem dependencyReason_eq_none_iff {children : List ExprDecision} :
    dependencyReason children = none ↔ ∀ child ∈ children, child.eligible = true := by
  simp [dependencyReason]

theorem examine_eligible_iff {decision : Decision HostExpr GpuExpr} {children : List ExprDecision} :
    (examine registry config decision children).eligible = true ↔
      decision.reasons = [] ∧ Supported registry config ⟨decision, children⟩ ∧
        ∀ child ∈ children, child.eligible = true := by
  rw [examine, Decision.judge_eligible_iff, dependencyReason_eq_none_iff]
  simp only [Option.map_eq_some_iff, Supported, context]
  constructor
  · rintro ⟨untagged, ⟨_, ⟨rule, found, rfl⟩, clear⟩, below⟩
    exact ⟨untagged, ⟨rule, found, Rule.examine_reasons_eq_nil_iff.mp clear⟩, below⟩
  · rintro ⟨untagged, ⟨rule, found, supports⟩, below⟩
    exact ⟨untagged, ⟨_, ⟨rule, found, rfl⟩, Rule.examine_reasons_eq_nil_iff.mpr supports⟩, below⟩

theorem supported_of_eligible_tag {tree : ExprDecision}
    (h : (tree.tag registry config).eligible = true) :
    (∃ rule, registry.exprs.find? tree.decision.node.className = some rule) ∧
      ∀ child ∈ (tree.tag registry config).children, child.eligible = true := by
  rw [tag_eq] at h ⊢
  obtain ⟨-, ⟨rule, found, -⟩, below⟩ := examine_eligible_iff.mp h
  exact ⟨⟨rule, found⟩, below⟩

theorem supported_tag_iff {tree : ExprDecision} :
    (tree.tag registry config).Supported registry config ↔
      Supported registry config ⟨tree.decision, tree.children.map (tag registry config)⟩ := by
  rw [tag_eq]
  simp only [Supported, context, examine, Decision.judge_node, Decision.judge_parent,
    Decision.judge_owner]

/-- An expression without older reasons is eligible exactly when its whole tree is supported. -/
theorem eligible_tag_iff {tree : ExprDecision}
    (untagged : ∀ node ∈ tree.subtrees, node.decision.reasons = []) :
    (tree.tag registry config).eligible = true ↔
      ∀ node ∈ (tree.tag registry config).subtrees, node.Supported registry config := by
  rw [subtrees_tag, List.forall_mem_map]
  induction tree with
  | node decision children ih =>
      obtain ⟨top, below⟩ := forall_mem_subtrees_iff.mp untagged
      have arguments : (∀ child ∈ children.map (tag registry config), child.eligible = true) ↔
          ∀ child ∈ children, ∀ node ∈ child.subtrees,
            (node.tag registry config).Supported registry config := by
        rw [List.forall_mem_map]
        exact forall₂_congr fun child member => ih child member (below child member)
      rw [forall_mem_subtrees_iff, ← arguments, supported_tag_iff]
      change (tag registry config ⟨decision, children⟩).decision.eligible = true ↔ _
      rw [tag_eq, examine_eligible_iff]
      exact and_iff_right top

theorem eligible_tag_of_supported {tree : ExprDecision} (untagged : tree.decision.reasons = [])
    (supported : Supported registry config
      ⟨tree.decision, tree.children.map (tag registry config)⟩)
    (below : ∀ child ∈ tree.children, (child.tag registry config).eligible = true) :
    (tree.tag registry config).eligible = true := by
  rw [tag_eq]
  exact examine_eligible_iff.mpr ⟨untagged, supported, List.forall_mem_map.mpr below⟩

/-- A check alone decides whether an unmarked expression is left out. -/
theorem noOp_tag {tree : ExprDecision} {rule : ExprRule} (unmarked : tree.decision.noOp = false)
    (found : registry.exprs.find? tree.decision.node.className = some rule) :
    (tree.tag registry config).decision.noOp =
      (rule.check (context config
        ⟨tree.decision, tree.children.map (tag registry config)⟩)).noOp := by
  rw [tag_eq, examine, Decision.judge_noOp, unmarked, found]
  rfl

theorem untagged_ofExprAt {kind : RuleKind} {parent : Option HostExpr} {owner : Option HostPlan}
    {expr : HostExpr} :
    ∀ node ∈ (ofExprAt registry kind parent owner expr).subtrees, node.decision.reasons = [] := by
  intro node within
  obtain ⟨kind, parent, inner, rfl⟩ := mem_subtrees_ofExprAt within
  exact ofExprAt_reasons ..

/-- Without a rule the only reason is that there is none. -/
theorem reasons_tag_of_no_rule {tree : ExprDecision} (untagged : tree.decision.reasons = [])
    (missing : registry.exprs.find? tree.decision.node.className = none) :
    (tree.tag registry config).decision.reasons =
      [missingRuleReason (tree.tag registry config).decision.kind
        (tree.tag registry config).short] := by
  rw [tag_eq]
  simp only [examine, missing, Option.map_none, Decision.judge, Decision.reject, untagged,
    List.nil_append]
  rfl

end ExprDecision

namespace PlanDecision

/-- What the check of a rule sees of an operator. -/
def context (config : Config) (tree : PlanDecision) : TagContext HostPlan PlanDecision :=
  ⟨tree.decision.node, tree.decision.parent, tree.decision.owner, config, tree.children, tree.exprs⟩

/-- The operator has a rule, and the rule supports it. Its expressions may be ineligible. -/
def Supported (registry : Registry) (config : Config) (tree : PlanDecision) : Prop :=
  ∃ rule, registry.operators.find? tree.decision.node.className = some rule ∧
    rule.Supports (tree.context config)

variable {registry : Registry} {config : Config}

theorem dependencyReason_eq_none_iff {exprs : List ExprDecision} :
    dependencyReason exprs = none ↔ ∀ expr ∈ exprs, expr.eligible = true := by
  unfold dependencyReason
  split
  next none => simpa [List.filter_eq_nil_iff] using none
  next failing some =>
    simpa [List.filter_eq_nil_iff] using some

theorem examine_eligible_iff {decision : Decision HostPlan GpuOperator}
    {exprs : List ExprDecision} {children : List PlanDecision} :
    (examine registry config decision exprs children).eligible = true ↔
      decision.reasons = [] ∧ Supported registry config ⟨decision, exprs, children⟩ ∧
        ∀ expr ∈ exprs, expr.eligible = true := by
  rw [examine, Decision.judge_eligible_iff, dependencyReason_eq_none_iff]
  simp only [Option.map_eq_some_iff, Supported, context]
  constructor
  · rintro ⟨untagged, ⟨_, ⟨rule, found, rfl⟩, clear⟩, below⟩
    exact ⟨untagged, ⟨rule, found, Rule.examine_reasons_eq_nil_iff.mp clear⟩, below⟩
  · rintro ⟨untagged, ⟨rule, found, supports⟩, below⟩
    exact ⟨untagged, ⟨_, ⟨rule, found, rfl⟩, Rule.examine_reasons_eq_nil_iff.mpr supports⟩, below⟩

theorem supported_of_eligible_tag {tree : PlanDecision}
    (h : (tree.tag registry config).eligible = true) :
    (∃ rule, registry.operators.find? tree.decision.node.className = some rule) ∧
      ∀ expr ∈ (tree.tag registry config).exprs, expr.eligible = true := by
  rw [tag_eq] at h ⊢
  obtain ⟨-, ⟨rule, found, -⟩, below⟩ := examine_eligible_iff.mp h
  exact ⟨⟨rule, found⟩, below⟩

theorem eligible_tag_iff {tree : PlanDecision} (untagged : tree.decision.reasons = []) :
    (tree.tag registry config).eligible = true ↔
      (tree.tag registry config).Supported registry config ∧
        ∀ expr ∈ (tree.tag registry config).exprs, expr.eligible = true := by
  change (tree.tag registry config).decision.eligible = true ↔ _
  rw [tag_eq, examine_eligible_iff]
  simp only [untagged, true_and, Supported, context, examine, Decision.judge_node,
    Decision.judge_parent, Decision.judge_owner]

theorem eligible_tag_of_supported {tree : PlanDecision} (untagged : tree.decision.reasons = [])
    (supported : Supported registry config
      ⟨tree.decision, tree.exprs.map (.tag registry config),
        tree.children.map (tag registry config)⟩)
    (below : ∀ expr ∈ tree.exprs, (expr.tag registry config).eligible = true) :
    (tree.tag registry config).eligible = true := by
  rw [tag_eq]
  exact examine_eligible_iff.mpr ⟨untagged, supported, List.forall_mem_map.mpr below⟩

/-- A check alone decides whether an unmarked operator is left out. -/
theorem noOp_tag {tree : PlanDecision} {rule : OperatorRule} (unmarked : tree.decision.noOp = false)
    (found : registry.operators.find? tree.decision.node.className = some rule) :
    (tree.tag registry config).decision.noOp =
      (rule.check (context config
        ⟨tree.decision, tree.exprs.map (.tag registry config),
          tree.children.map (tag registry config)⟩)).noOp := by
  rw [tag_eq, examine, Decision.judge_noOp, unmarked, found]
  rfl

/-- Without a rule the only reason is that there is none. -/
theorem reasons_tag_of_no_rule {tree : PlanDecision} (untagged : tree.decision.reasons = [])
    (missing : registry.operators.find? tree.decision.node.className = none) :
    (tree.tag registry config).decision.reasons =
      [missingRuleReason (tree.tag registry config).decision.kind
        (tree.tag registry config).short] := by
  rw [tag_eq]
  simp only [examine, missing, Option.map_none, Decision.judge, Decision.reject, untagged,
    List.nil_append]
  rfl

end PlanDecision

/-- After one pass over a plan an expression is eligible exactly when every node of its tree is
supported, and an operator when it is supported and so is every node of all its expressions, the
partitioning included. A node without a rule has one reason. -/
theorem tag_eligible_iff_supported (registry : Registry) (config : Config) (plan : HostPlan) :
    let tree := (PlanDecision.ofPlan registry plan).tag registry config
    tree.Mirrors plan ∧
    (∀ operator ∈ tree.subtrees,
      (operator.eligible = true ↔ operator.Supported registry config ∧
        ∀ expr ∈ operator.exprs, ∀ node ∈ expr.subtrees, node.Supported registry config) ∧
      (registry.operators.find? operator.decision.node.className = none →
        operator.decision.reasons =
          [missingRuleReason operator.decision.kind operator.short])) ∧
    ∀ operator ∈ tree.subtrees, ∀ expr ∈ operator.exprs, ∀ node ∈ expr.subtrees,
      (node.eligible = true ↔ ∀ inner ∈ node.subtrees, inner.Supported registry config) ∧
      (registry.exprs.find? node.decision.node.className = none →
        node.decision.reasons = [missingRuleReason node.decision.kind node.short]) := by
  intro tree
  have parts : ∀ operator ∈ tree.subtrees, ∀ expr ∈ operator.exprs, ∀ node ∈ expr.subtrees,
      (node.eligible = true ↔ ∀ inner ∈ node.subtrees, inner.Supported registry config) ∧
      (registry.exprs.find? node.decision.node.className = none →
        node.decision.reasons = [missingRuleReason node.decision.kind node.short]) := by
    intro operator within expr member node below
    obtain ⟨kind, parent, inner, rfl⟩ := PlanDecision.mem_subtrees_of_mem_exprs within member below
    refine ⟨ExprDecision.eligible_tag_iff ExprDecision.untagged_ofExprAt, fun missing => ?_⟩
    rw [ExprDecision.tag_node] at missing
    exact ExprDecision.reasons_tag_of_no_rule (ExprDecision.ofExprAt_reasons ..) missing
  refine ⟨PlanDecision.tag_ofPlan_mirrors registry config plan, ?_, parts⟩
  intro operator within
  have whole : (∀ expr ∈ operator.exprs, expr.eligible = true) ↔
      ∀ expr ∈ operator.exprs, ∀ node ∈ expr.subtrees, node.Supported registry config :=
    forall₂_congr fun expr member =>
      (parts operator within expr member expr expr.mem_subtrees_self).1
  rw [← whole]
  obtain ⟨parent, inner, rfl⟩ := PlanDecision.mem_subtrees_tag_ofPlan within
  refine ⟨PlanDecision.eligible_tag_iff (PlanDecision.ofPlanBelow_reasons ..), fun missing => ?_⟩
  rw [PlanDecision.tag_node] at missing
  exact PlanDecision.reasons_tag_of_no_rule (PlanDecision.ofPlanBelow_reasons ..) missing

end GpuPlacement
