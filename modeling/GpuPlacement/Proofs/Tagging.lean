import GpuPlacement.Proofs.Tree
/-!
The shape of tagged trees. Tagging and the settling of exchanges change reasons and marks only, so a
tagged tree mirrors its host plan, and every part of it is the tagged tree of the host node there.
-/
namespace GpuPlacement

namespace Decision

variable {Node Op : Type} [HostNode Node]

@[simp] theorem judge_node (decision : Decision Node Op) (finding : Option Finding)
    (dependency : Option String) : (decision.judge finding dependency).node = decision.node := by
  cases finding <;> rfl

@[simp] theorem judge_rule (decision : Decision Node Op) (finding : Option Finding)
    (dependency : Option String) : (decision.judge finding dependency).rule = decision.rule := by
  cases finding <;> rfl

@[simp] theorem judge_kind (decision : Decision Node Op) (finding : Option Finding)
    (dependency : Option String) : (decision.judge finding dependency).kind = decision.kind := by
  cases finding <;> rfl

@[simp] theorem judge_parent (decision : Decision Node Op) (finding : Option Finding)
    (dependency : Option String) :
    (decision.judge finding dependency).parent = decision.parent := by
  cases finding <;> rfl

@[simp] theorem judge_owner (decision : Decision Node Op) (finding : Option Finding)
    (dependency : Option String) : (decision.judge finding dependency).owner = decision.owner := by
  cases finding <;> rfl

@[simp] theorem judge_converted (decision : Decision Node Op) (finding : Option Finding)
    (dependency : Option String) :
    (decision.judge finding dependency).converted = decision.converted := by
  cases finding <;> rfl

theorem judge_noOp (decision : Decision Node Op) (finding : Option Finding)
    (dependency : Option String) :
    (decision.judge finding dependency).noOp =
      (decision.noOp || (finding.map Finding.noOp).getD false) := by
  cases finding with
  | none => exact (Bool.or_false _).symm
  | some found => rfl

end Decision

namespace ExprDecision

variable (registry : Registry) (config : Config)

theorem ofExprAt_eq (kind : RuleKind) (parent : Option HostExpr) (owner : Option HostPlan)
    (expr : HostExpr) :
    ofExprAt registry kind parent owner expr =
      ⟨.undecided expr ((registry.exprs.find? expr.className).map Rule.spec) kind parent owner,
        expr.children.map (ofExprAt registry .expression (some expr) owner)⟩ := by
  cases expr with
  | mk className type nullable name params children => rw [ofExprAt, ofArguments_eq_map]

@[simp] theorem ofExprAt_node (kind : RuleKind) (parent : Option HostExpr) (owner : Option HostPlan)
    (expr : HostExpr) : (ofExprAt registry kind parent owner expr).decision.node = expr := by
  rw [ofExprAt_eq, Decision.undecided]

@[simp] theorem ofExprAt_children (kind : RuleKind) (parent : Option HostExpr)
    (owner : Option HostPlan) (expr : HostExpr) :
    (ofExprAt registry kind parent owner expr).children =
      expr.children.map (ofExprAt registry .expression (some expr) owner) := by
  rw [ofExprAt_eq]

@[simp] theorem ofExprAt_reasons (kind : RuleKind) (parent : Option HostExpr)
    (owner : Option HostPlan) (expr : HostExpr) :
    (ofExprAt registry kind parent owner expr).decision.reasons = [] := by
  rw [ofExprAt_eq, Decision.undecided]

@[simp] theorem ofExprAt_owner (kind : RuleKind) (parent : Option HostExpr)
    (owner : Option HostPlan) (expr : HostExpr) :
    (ofExprAt registry kind parent owner expr).decision.owner = owner := by
  rw [ofExprAt_eq, Decision.undecided]

@[simp] theorem ofExprAt_converted (kind : RuleKind) (parent : Option HostExpr)
    (owner : Option HostPlan) (expr : HostExpr) :
    (ofExprAt registry kind parent owner expr).decision.converted = none := by
  rw [ofExprAt_eq, Decision.undecided]

@[simp] theorem ofExprAt_noOp (kind : RuleKind) (parent : Option HostExpr)
    (owner : Option HostPlan) (expr : HostExpr) :
    (ofExprAt registry kind parent owner expr).decision.noOp = false := by
  rw [ofExprAt_eq, Decision.undecided]

theorem ofExprAt_rule (kind : RuleKind) (parent : Option HostExpr) (owner : Option HostPlan)
    (expr : HostExpr) :
    (ofExprAt registry kind parent owner expr).decision.rule =
      (registry.exprs.find? expr.className).map Rule.spec := by
  rw [ofExprAt_eq, Decision.undecided]

theorem tag_eq (tree : ExprDecision) :
    tree.tag registry config =
      ⟨examine registry config tree.decision (tree.children.map (tag registry config)),
        tree.children.map (tag registry config)⟩ := by
  cases tree with
  | mk decision children => rw [tag, tagAll_eq_map]

@[simp] theorem tag_children (tree : ExprDecision) :
    (tree.tag registry config).children = tree.children.map (tag registry config) := by
  rw [tag_eq]

@[simp] theorem tag_node (tree : ExprDecision) :
    (tree.tag registry config).decision.node = tree.decision.node := by
  rw [tag_eq]
  exact Decision.judge_node ..

@[simp] theorem tag_owner (tree : ExprDecision) :
    (tree.tag registry config).decision.owner = tree.decision.owner := by
  rw [tag_eq]
  exact Decision.judge_owner ..

@[simp] theorem tag_kind (tree : ExprDecision) :
    (tree.tag registry config).decision.kind = tree.decision.kind := by
  rw [tag_eq]
  exact Decision.judge_kind ..

theorem tag_rule (tree : ExprDecision) :
    (tree.tag registry config).decision.rule = tree.decision.rule := by
  rw [tag_eq]
  exact Decision.judge_rule ..

theorem tag_converted (tree : ExprDecision) :
    (tree.tag registry config).decision.converted = tree.decision.converted := by
  rw [tag_eq]
  exact Decision.judge_converted ..

/-- Only a check marks an expression that was not marked before. -/
theorem exists_check_of_marked {registry : Registry} {config : Config} {tree : ExprDecision}
    (unmarked : tree.decision.noOp = false)
    (marked : (tree.tag registry config).decision.noOp = true) :
    ∃ rule context, registry.exprs.find? tree.decision.node.className = some rule ∧
      context.node = tree.decision.node ∧ (rule.check context).noOp = true := by
  rw [tag_eq, examine, Decision.judge_noOp, unmarked, Bool.false_or] at marked
  cases found : registry.exprs.find? tree.decision.node.className with
  | none => simp [found] at marked
  | some rule =>
      simp only [found, Option.map_some, Option.getD_some] at marked
      exact ⟨rule, _, rfl, rfl, marked⟩

theorem subtrees_tag (tree : ExprDecision) :
    (tree.tag registry config).subtrees = tree.subtrees.map (tag registry config) := by
  induction tree with
  | node decision children ih =>
      rw [tag_eq, subtrees, subtrees, subtreesOfAll_eq_flatMap, subtreesOfAll_eq_flatMap,
        List.map_cons, tag_eq, List.map_flatMap, List.flatMap_map]
      exact congrArg (_ :: ·) (List.flatMap_congr ih)

/-- Every part of an undecided tree is the undecided tree of the expression there. -/
theorem mem_subtrees_ofExprAt {registry : Registry} {kind : RuleKind} {parent : Option HostExpr}
    {owner : Option HostPlan} {expr : HostExpr} {node : ExprDecision}
    (h : node ∈ (ofExprAt registry kind parent owner expr).subtrees) :
    ∃ kind parent inner, node = ofExprAt registry kind parent owner inner := by
  induction expr generalizing kind parent with
  | node className type nullable name params children ih =>
      rw [ofExprAt_eq, mem_subtrees_iff] at h
      rcases h with rfl | ⟨child, member, within⟩
      · exact ⟨kind, parent, _, (ofExprAt_eq ..).symm⟩
      · obtain ⟨inner, among, rfl⟩ := List.mem_map.mp member
        exact ih inner among within

end ExprDecision

namespace PlanDecision

variable (registry : Registry) (config : Config)

theorem ofPlanBelow_eq (parent : Option HostPlan) (plan : HostPlan) :
    ofPlanBelow registry parent plan =
      ⟨.undecided plan ((registry.operators.find? plan.className).map Rule.spec) .operator parent
          none,
        ofExpressions registry plan,
        plan.children.map (ofPlanBelow registry (some plan))⟩ := by
  cases plan with
  | mk className output expressions partitioning params children =>
      rw [ofPlanBelow, ofInputs_eq_map]

@[simp] theorem ofPlanBelow_node (parent : Option HostPlan) (plan : HostPlan) :
    (ofPlanBelow registry parent plan).decision.node = plan := by
  rw [ofPlanBelow_eq, Decision.undecided]

@[simp] theorem ofPlanBelow_reasons (parent : Option HostPlan) (plan : HostPlan) :
    (ofPlanBelow registry parent plan).decision.reasons = [] := by
  rw [ofPlanBelow_eq, Decision.undecided]

@[simp] theorem ofPlanBelow_noOp (parent : Option HostPlan) (plan : HostPlan) :
    (ofPlanBelow registry parent plan).decision.noOp = false := by
  rw [ofPlanBelow_eq, Decision.undecided]

theorem ofPlanBelow_rule (parent : Option HostPlan) (plan : HostPlan) :
    (ofPlanBelow registry parent plan).decision.rule =
      (registry.operators.find? plan.className).map Rule.spec := by
  rw [ofPlanBelow_eq, Decision.undecided]

@[simp] theorem ofPlanBelow_exprs (parent : Option HostPlan) (plan : HostPlan) :
    (ofPlanBelow registry parent plan).exprs = ofExpressions registry plan := by
  rw [ofPlanBelow_eq]

@[simp] theorem ofPlanBelow_children (parent : Option HostPlan) (plan : HostPlan) :
    (ofPlanBelow registry parent plan).children =
      plan.children.map (ofPlanBelow registry (some plan)) := by
  rw [ofPlanBelow_eq]

theorem mem_ofExpressions {registry : Registry} {plan : HostPlan} {tree : ExprDecision}
    (h : tree ∈ ofExpressions registry plan) :
    ∃ kind expr, tree = ExprDecision.ofExprAt registry kind none (some plan) expr := by
  rcases List.mem_append.mp h with evaluated | partitioning
  · obtain ⟨expr, _, rfl⟩ := List.mem_map.mp evaluated
    exact ⟨.expression, expr, rfl⟩
  · obtain ⟨expr, _, rfl⟩ := List.mem_map.mp partitioning
    exact ⟨.partitioning, expr, rfl⟩

theorem tag_eq (tree : PlanDecision) :
    tree.tag registry config =
      ⟨examine registry config tree.decision (tree.exprs.map (ExprDecision.tag registry config))
          (tree.children.map (tag registry config)),
        tree.exprs.map (ExprDecision.tag registry config),
        tree.children.map (tag registry config)⟩ := by
  cases tree with
  | mk decision exprs children => rw [tag, tagAll_eq_map, ExprDecision.tagAll_eq_map]

@[simp] theorem tag_children (tree : PlanDecision) :
    (tree.tag registry config).children = tree.children.map (tag registry config) := by
  rw [tag_eq]

@[simp] theorem tag_exprs (tree : PlanDecision) :
    (tree.tag registry config).exprs = tree.exprs.map (ExprDecision.tag registry config) := by
  rw [tag_eq]

@[simp] theorem tag_node (tree : PlanDecision) :
    (tree.tag registry config).decision.node = tree.decision.node := by
  rw [tag_eq]
  exact Decision.judge_node ..

@[simp] theorem tag_kind (tree : PlanDecision) :
    (tree.tag registry config).decision.kind = tree.decision.kind := by
  rw [tag_eq]
  exact Decision.judge_kind ..

theorem tag_rule (tree : PlanDecision) :
    (tree.tag registry config).decision.rule = tree.decision.rule := by
  rw [tag_eq]
  exact Decision.judge_rule ..

theorem tag_converted (tree : PlanDecision) :
    (tree.tag registry config).decision.converted = tree.decision.converted := by
  rw [tag_eq]
  exact Decision.judge_converted ..

/-- Only a check marks an operator that was not marked before. -/
theorem exists_check_of_marked {registry : Registry} {config : Config} {tree : PlanDecision}
    (unmarked : tree.decision.noOp = false)
    (marked : (tree.tag registry config).decision.noOp = true) :
    ∃ rule context, registry.operators.find? tree.decision.node.className = some rule ∧
      context.node = tree.decision.node ∧ (rule.check context).noOp = true := by
  rw [tag_eq, examine, Decision.judge_noOp, unmarked, Bool.false_or] at marked
  cases found : registry.operators.find? tree.decision.node.className with
  | none => simp [found] at marked
  | some rule =>
      simp only [found, Option.map_some, Option.getD_some] at marked
      exact ⟨rule, _, rfl, rfl, marked⟩

theorem subtrees_tag (tree : PlanDecision) :
    (tree.tag registry config).subtrees = tree.subtrees.map (tag registry config) := by
  induction tree with
  | node decision exprs children ih =>
      rw [tag_eq, subtrees, subtrees, subtreesOfAll_eq_flatMap, subtreesOfAll_eq_flatMap,
        List.map_cons, tag_eq, List.map_flatMap, List.flatMap_map]
      exact congrArg (_ :: ·) (List.flatMap_congr ih)

/-- Every part of an undecided tree is the undecided tree of the operator there. -/
theorem mem_subtrees_ofPlanBelow {registry : Registry} {parent : Option HostPlan} {plan : HostPlan}
    {node : PlanDecision} (h : node ∈ (ofPlanBelow registry parent plan).subtrees) :
    ∃ parent inner, node = ofPlanBelow registry parent inner := by
  induction plan generalizing parent with
  | node className output expressions partitioning params children ih =>
      rw [ofPlanBelow_eq, mem_subtrees_iff] at h
      rcases h with rfl | ⟨child, member, within⟩
      · exact ⟨parent, _, (ofPlanBelow_eq ..).symm⟩
      · obtain ⟨inner, among, rfl⟩ := List.mem_map.mp member
        exact ih inner among within

theorem mem_subtrees_tag_ofPlan {registry : Registry} {config : Config} {plan : HostPlan}
    {node : PlanDecision} (h : node ∈ ((ofPlan registry plan).tag registry config).subtrees) :
    ∃ parent inner, node = (ofPlanBelow registry parent inner).tag registry config := by
  rw [subtrees_tag] at h
  obtain ⟨untagged, within, rfl⟩ := List.mem_map.mp h
  obtain ⟨parent, inner, rfl⟩ := mem_subtrees_ofPlanBelow within
  exact ⟨parent, inner, rfl⟩

theorem mem_subtrees_of_mem_exprs {registry : Registry} {config : Config} {plan : HostPlan}
    {operator : PlanDecision} {expr node : ExprDecision}
    (h : operator ∈ ((ofPlan registry plan).tag registry config).subtrees)
    (member : expr ∈ operator.exprs) (below : node ∈ expr.subtrees) :
    ∃ kind parent inner, node = (ExprDecision.ofExprAt registry kind parent
      (some operator.decision.node) inner).tag registry config := by
  obtain ⟨parent, plan, rfl⟩ := mem_subtrees_tag_ofPlan h
  rw [tag_exprs, ofPlanBelow_exprs] at member
  obtain ⟨undecided, among, rfl⟩ := List.mem_map.mp member
  obtain ⟨kind, root, rfl⟩ := mem_ofExpressions among
  rw [ExprDecision.subtrees_tag] at below
  obtain ⟨part, deeper, rfl⟩ := List.mem_map.mp below
  obtain ⟨kind, parent, leaf, rfl⟩ := ExprDecision.mem_subtrees_ofExprAt deeper
  exact ⟨kind, parent, leaf, by rw [tag_node, ofPlanBelow_node]⟩

/-- The exchange pass touches the reasons of operators only. -/
theorem settleBelow_eq (parentEligible : Bool) (tree : PlanDecision) :
    tree.settleBelow parentEligible =
      ⟨settleExchange parentEligible tree.decision tree.children, tree.exprs,
        tree.children.map
          (settleBelow (settleExchange parentEligible tree.decision tree.children).eligible)⟩ := by
  cases tree with
  | mk decision exprs children => rw [settleBelow, settleInputs_eq_map]

section

variable (parentEligible : Bool) (decision : Decision HostPlan GpuOperator)
  (children : List PlanDecision)

@[simp] theorem settleExchange_node :
    (settleExchange parentEligible decision children).node = decision.node := by
  unfold settleExchange
  split <;> rfl

@[simp] theorem settleExchange_rule :
    (settleExchange parentEligible decision children).rule = decision.rule := by
  unfold settleExchange
  split <;> rfl

@[simp] theorem settleExchange_noOp :
    (settleExchange parentEligible decision children).noOp = decision.noOp := by
  unfold settleExchange
  split <;> rfl

@[simp] theorem settleExchange_converted :
    (settleExchange parentEligible decision children).converted = decision.converted := by
  unfold settleExchange
  split <;> rfl

end

/-- An eligible exchange stays so exactly when it has an eligible neighbour. -/
theorem eligible_settleExchange_iff {parentEligible : Bool}
    {decision : Decision HostPlan GpuOperator} {children : List PlanDecision} :
    (settleExchange parentEligible decision children).eligible = true ↔
      decision.eligible = true ∧ (decision.isExchange = true →
        parentEligible = true ∨ ∃ child ∈ children, child.eligible = true) := by
  unfold settleExchange
  split
  next stranded =>
    simp only [Bool.and_eq_true, Bool.not_eq_true', List.all_eq_true] at stranded
    obtain ⟨⟨⟨exchange, _⟩, parent⟩, inputs⟩ := stranded
    constructor
    · intro kept
      simp [Decision.reject, Decision.eligible] at kept
    · rintro ⟨_, neighbour⟩
      rcases neighbour exchange with above | ⟨child, member, below⟩
      · exact absurd above (parent ▸ Bool.false_ne_true)
      · exact absurd below (inputs child member ▸ Bool.false_ne_true)
  next settled =>
    constructor
    · intro eligible
      refine ⟨eligible, fun exchange => ?_⟩
      by_contra alone
      apply settled
      simpa [exchange, eligible] using alone
    · exact And.left

@[simp] theorem settleBelow_node (parentEligible : Bool) (tree : PlanDecision) :
    (tree.settleBelow parentEligible).decision.node = tree.decision.node := by
  rw [settleBelow_eq, settleExchange_node]

@[simp] theorem settleBelow_noOp (parentEligible : Bool) (tree : PlanDecision) :
    (tree.settleBelow parentEligible).decision.noOp = tree.decision.noOp := by
  rw [settleBelow_eq, settleExchange_noOp]

@[simp] theorem settleBelow_exprs (parentEligible : Bool) (tree : PlanDecision) :
    (tree.settleBelow parentEligible).exprs = tree.exprs := by
  rw [settleBelow_eq]

theorem eligible_of_settleBelow {parentEligible : Bool} {tree : PlanDecision}
    (h : (tree.settleBelow parentEligible).eligible = true) : tree.eligible = true := by
  rw [settleBelow_eq] at h
  exact (eligible_settleExchange_iff.mp h).1

theorem eligible_settleBelow_of_parent {tree : PlanDecision} (eligible : tree.eligible = true) :
    (tree.settleBelow true).eligible = true := by
  rw [settleBelow_eq]
  exact eligible_settleExchange_iff.mpr ⟨eligible, fun _ => .inl rfl⟩

theorem eligible_settleBelow_of_child {tree child : PlanDecision} {parentEligible : Bool}
    (eligible : tree.eligible = true) (member : child ∈ tree.children)
    (below : child.eligible = true) : (tree.settleBelow parentEligible).eligible = true := by
  rw [settleBelow_eq]
  exact eligible_settleExchange_iff.mpr ⟨eligible, fun _ => .inr ⟨child, member, below⟩⟩

theorem settleBelow_children_of_eligible {tree : PlanDecision} {parentEligible : Bool}
    (h : (tree.settleBelow parentEligible).eligible = true) :
    (tree.settleBelow parentEligible).children = tree.children.map (settleBelow true) := by
  rw [settleBelow_eq] at h ⊢
  exact congrArg (fun above => tree.children.map (settleBelow above)) h

theorem mem_subtrees_settleBelow {parentEligible : Bool} {tree node : PlanDecision}
    (h : node ∈ (tree.settleBelow parentEligible).subtrees) :
    ∃ inner ∈ tree.subtrees, ∃ parentEligible, node = inner.settleBelow parentEligible := by
  induction tree generalizing parentEligible with
  | node decision exprs children ih =>
      rw [settleBelow_eq, mem_subtrees_iff] at h
      rcases h with rfl | ⟨child, member, within⟩
      · exact ⟨_, mem_subtrees_self _, parentEligible, (settleBelow_eq ..).symm⟩
      · obtain ⟨inner, among, rfl⟩ := List.mem_map.mp member
        obtain ⟨deeper, below, settled⟩ := ih inner among within
        exact ⟨deeper, mem_subtrees_of_child among below, settled⟩

/-- The tree has exactly the nodes of a plan: its operators, their expressions and, behind them,
their partitioning, and the arguments of these, all in the plan's order. -/
structure Mirrors (tree : PlanDecision) (plan : HostPlan) : Prop where
  root : tree.decision.node = plan
  inputs : ∀ node ∈ tree.subtrees,
    node.children.map (·.decision.node) = node.decision.node.children
  expressions : ∀ node ∈ tree.subtrees,
    node.exprs.map (·.decision.node) = node.decision.node.allExpressions
  arguments : ∀ node ∈ tree.subtrees, ∀ expr ∈ node.exprs, ∀ inner ∈ expr.subtrees,
    inner.children.map (·.decision.node) = inner.decision.node.children

theorem ofExpressions_node (plan : HostPlan) :
    (ofExpressions registry plan).map (·.decision.node) = plan.allExpressions := by
  simp [ofExpressions, HostPlan.allExpressions, Function.comp_def]

theorem tag_ofPlan_mirrors (plan : HostPlan) :
    ((ofPlan registry plan).tag registry config).Mirrors plan where
  root := by rw [tag_node, ofPlan, ofPlanBelow_node]
  inputs := by
    intro node within
    obtain ⟨parent, inner, rfl⟩ := mem_subtrees_tag_ofPlan within
    simp [Function.comp_def]
  expressions := by
    intro node within
    obtain ⟨parent, inner, rfl⟩ := mem_subtrees_tag_ofPlan within
    simp [Function.comp_def, ofExpressions_node]
  arguments := by
    intro node within expr member inner below
    obtain ⟨kind, parent, leaf, rfl⟩ := mem_subtrees_of_mem_exprs within member below
    simp [Function.comp_def]

theorem Mirrors.settleBelow {tree : PlanDecision} {plan : HostPlan} (h : tree.Mirrors plan)
    (parentEligible : Bool) : (tree.settleBelow parentEligible).Mirrors plan where
  root := by rw [settleBelow_node, h.root]
  inputs := by
    intro node within
    obtain ⟨inner, below, eligible, rfl⟩ := mem_subtrees_settleBelow within
    rw [settleBelow_node, ← h.inputs inner below, settleBelow_eq, List.map_map]
    exact List.map_congr_left fun child _ => settleBelow_node ..
  expressions := by
    intro node within
    obtain ⟨inner, below, eligible, rfl⟩ := mem_subtrees_settleBelow within
    rw [settleBelow_node, settleBelow_exprs, h.expressions inner below]
  arguments := by
    intro node within expr member
    obtain ⟨inner, below, eligible, rfl⟩ := mem_subtrees_settleBelow within
    rw [settleBelow_exprs] at member
    exact h.arguments inner below expr member

end PlanDecision

theorem tagPlan_mirrors (registry : Registry) (config : Config) (plan : HostPlan) :
    (tagPlan registry config plan).Mirrors plan := by
  unfold tagPlan
  split
  · exact (PlanDecision.tag_ofPlan_mirrors registry config plan).settleBelow false
  · exact PlanDecision.tag_ofPlan_mirrors registry config plan

end GpuPlacement
