import GpuPlacement.Proofs.Counts
import GpuPlacement.Proofs.Permissive
/-!
Configurations that allow more move no work back to the host: every node that was eligible stays
eligible, and a plan gets no more host operators and no fewer device operators.
-/
namespace GpuPlacement

/-- Rules of a registry that reject no more under one configuration than under another. -/
structure Registry.Relaxes (registry : Registry) (strict relaxed : Config) : Prop where
  exprs : ∀ className rule, registry.exprs.find? className = some rule →
    ∀ context other, TagContext.AtMost strict relaxed ExprDecision.AtMost context other →
      (rule.examine context).AtMost (rule.examine other)
  operators : ∀ className rule, registry.operators.find? className = some rule →
    ∀ context other, TagContext.AtMost strict relaxed PlanDecision.AtMost context other →
      (rule.examine context).AtMost (rule.examine other)

theorem Rule.examine_atMost {Node Child Op : Type} [HostNode Node] {rule : Rule Node Child Op}
    {context other : TagContext Node Child} (node : other.node = context.node)
    (enabled : rule.spec.enabled context.config = true → rule.spec.enabled other.config = true)
    (check : (rule.check context).AtMost (rule.check other)) :
    (rule.examine context).AtMost (rule.examine other) := by
  constructor
  case reasons =>
    unfold Rule.examine
    rw [node]
    exact Finding.append_mono (Finding.append_mono (Finding.reasonIf_not_mono enabled) id)
      check.reasons
  case noOp => exact check.noOp

theorem Builtin.registry_relaxes {strict relaxed : Config} (h : relaxed.Relaxes strict) :
    registry.Relaxes strict relaxed := by
  constructor
  case exprs =>
    intro className rule found context other pair
    have member := mem_of_find?_exprs found
    apply Rule.examine_atMost pair.node _ (ExprCheck.mono h rule member context other pair)
    rw [pair.strict, pair.relaxed]
    exact h.exprRules rule member
  case operators =>
    intro className rule found context other pair
    have member := mem_of_find?_operators found
    apply Rule.examine_atMost pair.node _ (OperatorCheck.mono h rule member context other pair)
    rw [pair.strict, pair.relaxed]
    exact h.operatorRules rule member

/-- A finding that rejects no more leaves the node eligible at least as often. -/
theorem Decision.judge_atMost {Node Op : Type} [HostNode Node] (decision : Decision Node Op)
    {finding other : Option Finding} {dependency otherDependency : Option String}
    (found : Option.Rel Finding.AtMost finding other)
    (below : dependency = none → otherDependency = none) :
    (decision.judge finding dependency).AtMost (decision.judge other otherDependency) := by
  constructor
  case node => rw [judge_node, judge_node]
  case rule => rw [judge_rule, judge_rule]
  case noOp =>
    rw [judge_noOp, judge_noOp]
    cases found with
    | none => rfl
    | some same => exact congrArg (decision.noOp || ·) same.noOp
  case eligible =>
    rw [judge_eligible_iff, judge_eligible_iff]
    rintro ⟨older, ⟨first, rfl, clear⟩, free⟩
    cases found with
    | some same => exact ⟨older, ⟨_, rfl, same.reasons clear⟩, below free⟩

variable {registry : Registry} {strict relaxed : Config}

/-- Both findings come from the same rule, if there is one. -/
theorem rel_map_find? {Rule : Type} (rule : Option Rule) {first second : Rule → Finding}
    (h : ∀ found, rule = some found → (first found).AtMost (second found)) :
    Option.Rel Finding.AtMost (rule.map first) (rule.map second) := by
  cases rule with
  | none => exact .none
  | some found => exact .some (h found rfl)

namespace ExprDecision

theorem examine_atMost (h : registry.Relaxes strict relaxed)
    (decision : Decision HostExpr GpuExpr) {children others : List ExprDecision}
    (below : List.Forall₂ AtMost children others) :
    (examine registry strict decision children).AtMost
      (examine registry relaxed decision others) := by
  apply Decision.judge_atMost
  · apply rel_map_find?
    intro rule found
    exact h.exprs _ rule found _ _ ⟨rfl, rfl, rfl, rfl, below⟩
  · rw [dependencyReason_eq_none_iff, dependencyReason_eq_none_iff]
    intro all other member
    obtain ⟨child, among, same⟩ := exists_of_forall₂ below other member
    exact same.decision.eligible (all child among)

theorem tag_atMost (h : registry.Relaxes strict relaxed) (tree : ExprDecision) :
    (tree.tag registry strict).AtMost (tree.tag registry relaxed) := by
  induction tree with
  | node decision children ih =>
      have below : List.Forall₂ AtMost (children.map (tag registry strict))
          (children.map (tag registry relaxed)) := by
        rw [List.forall₂_map_left_iff, List.forall₂_map_right_iff, List.forall₂_same]
        exact ih
      rw [tag_eq, tag_eq]
      exact .node (examine_atMost h decision below) below

end ExprDecision

namespace PlanDecision

theorem examine_atMost (h : registry.Relaxes strict relaxed)
    (decision : Decision HostPlan GpuOperator) {exprs otherExprs : List ExprDecision}
    {children others : List PlanDecision}
    (arguments : List.Forall₂ ExprDecision.AtMost exprs otherExprs)
    (below : List.Forall₂ AtMost children others) :
    (examine registry strict decision exprs children).AtMost
      (examine registry relaxed decision otherExprs others) := by
  apply Decision.judge_atMost
  · apply rel_map_find?
    intro rule found
    exact h.operators _ rule found _ _ ⟨rfl, rfl, rfl, rfl, below⟩
  · rw [dependencyReason_eq_none_iff, dependencyReason_eq_none_iff]
    intro all other member
    obtain ⟨expr, among, same⟩ := exists_of_forall₂ arguments other member
    exact same.decision.eligible (all expr among)

theorem tag_atMost (h : registry.Relaxes strict relaxed) (tree : PlanDecision) :
    (tree.tag registry strict).AtMost (tree.tag registry relaxed) := by
  induction tree with
  | node decision exprs children ih =>
      have arguments : List.Forall₂ ExprDecision.AtMost (exprs.map (.tag registry strict))
          (exprs.map (.tag registry relaxed)) := by
        rw [List.forall₂_map_left_iff, List.forall₂_map_right_iff, List.forall₂_same]
        exact fun expr _ => expr.tag_atMost h
      have below : List.Forall₂ AtMost (children.map (tag registry strict))
          (children.map (tag registry relaxed)) := by
        rw [List.forall₂_map_left_iff, List.forall₂_map_right_iff, List.forall₂_same]
        exact ih
      rw [tag_eq, tag_eq]
      exact .node (examine_atMost h decision arguments below) arguments below

/-- An exchange that is sent back has no eligible neighbour, so it was sent back before, too. -/
theorem settleExchange_atMost {decision other : Decision HostPlan GpuOperator}
    {children others : List PlanDecision} {parentEligible otherParent : Bool}
    (same : decision.AtMost other) (below : List.Forall₂ AtMost children others)
    (above : parentEligible = true → otherParent = true) :
    (settleExchange parentEligible decision children).AtMost
      (settleExchange otherParent other others) := by
  constructor
  case node => rw [settleExchange_node, settleExchange_node, same.node]
  case rule => rw [settleExchange_rule, settleExchange_rule, same.rule]
  case noOp => rw [settleExchange_noOp, settleExchange_noOp, same.noOp]
  case eligible =>
    rw [eligible_settleExchange_iff, eligible_settleExchange_iff]
    rintro ⟨eligible, neighbour⟩
    refine ⟨same.eligible eligible, fun exchange => ?_⟩
    rw [Decision.isExchange, same.rule] at exchange
    rcases neighbour exchange with parent | ⟨child, member, input⟩
    · exact .inl (above parent)
    · obtain ⟨otherChild, among, pair⟩ := exists_of_forall₂ below.flip child member
      exact .inr ⟨otherChild, among, pair.decision.eligible input⟩

theorem settleExchange_atMost_left {decision other : Decision HostPlan GpuOperator}
    (same : decision.AtMost other) (parentEligible : Bool) (children : List PlanDecision) :
    (settleExchange parentEligible decision children).AtMost other := by
  constructor
  case node => rw [settleExchange_node, same.node]
  case rule => rw [settleExchange_rule, same.rule]
  case noOp => rw [settleExchange_noOp, same.noOp]
  case eligible => exact fun kept => same.eligible (eligible_settleExchange_iff.mp kept).1

/-- Settling decides more exchanges against the device, never for it. -/
theorem AtMost.settleBelow_left {tree other : PlanDecision} (h : tree.AtMost other)
    (parentEligible : Bool) : (tree.settleBelow parentEligible).AtMost other := by
  induction tree generalizing other parentEligible with
  | node decision exprs children ih =>
      cases h with
      | node same arguments below =>
          rw [settleBelow_eq]
          refine .node (settleExchange_atMost_left same _ children) arguments ?_
          rw [List.forall₂_map_left_iff]
          exact ((List.forall₂_and_left _ _).mpr ⟨ih, below⟩).imp
            fun child other step => step.1 step.2 _

theorem AtMost.settleBelow {tree other : PlanDecision} (h : tree.AtMost other)
    {parentEligible otherParent : Bool} (above : parentEligible = true → otherParent = true) :
    (tree.settleBelow parentEligible).AtMost (other.settleBelow otherParent) := by
  induction tree generalizing other parentEligible otherParent with
  | node decision exprs children ih =>
      cases h with
      | node same arguments below =>
          have settled := settleExchange_atMost same below above
          rw [settleBelow_eq, settleBelow_eq]
          refine .node settled arguments ?_
          rw [List.forall₂_map_left_iff, List.forall₂_map_right_iff]
          exact ((List.forall₂_and_left _ _).mpr ⟨ih, below⟩).imp
            fun child other step => step.1 step.2 settled.eligible

theorem walkAll_forall₂ {trees others : List PlanDecision}
    (h : List.Forall₂ (fun tree other => List.Forall₂ Decision.AtMost tree.walk other.walk) trees
      others) : List.Forall₂ Decision.AtMost (walkAll trees) (walkAll others) := by
  induction h with
  | nil => exact .nil
  | cons same _ ih => exact List.rel_append same ih

theorem AtMost.walk {tree other : PlanDecision} (h : tree.AtMost other) :
    List.Forall₂ Decision.AtMost tree.walk other.walk := by
  induction tree generalizing other with
  | node decision exprs children ih =>
      cases h with
      | node same _ below =>
          refine .cons same (walkAll_forall₂ ?_)
          exact ((List.forall₂_and_left _ _).mpr ⟨ih, below⟩).imp
            fun child other step => step.1 step.2

end PlanDecision

theorem countP_le_of_forall₂ {α β : Type} {related : α → β → Prop} {items : List α}
    {others : List β} {holds : α → Bool} {otherHolds : β → Bool}
    (h : List.Forall₂ related items others)
    (mono : ∀ item other, related item other → holds item = true → otherHolds other = true) :
    items.countP holds ≤ others.countP otherHolds := by
  induction h with
  | nil => exact Nat.le_refl _
  | @cons item other items others same _ ih =>
      rw [List.countP_cons, List.countP_cons]
      by_cases held : holds item = true
      · rw [if_pos held, if_pos (mono item other same held)]
        exact Nat.succ_le_succ ih
      · rw [if_neg held]
        exact Nat.le_add_right_of_le ih

/-- Settling may be left out where more is allowed. -/
theorem tagPlan_atMost (h : registry.Relaxes strict relaxed)
    (fixup : relaxed.fixupExchangeOverhead = true → strict.fixupExchangeOverhead = true)
    (plan : HostPlan) : (tagPlan registry strict plan).AtMost (tagPlan registry relaxed plan) := by
  have tagged := (PlanDecision.ofPlan registry plan).tag_atMost h
  unfold tagPlan
  cases settled : relaxed.fixupExchangeOverhead with
  | true =>
      rw [if_pos (fixup settled), if_pos rfl]
      exact tagged.settleBelow id
  | false =>
      rw [if_neg Bool.false_ne_true]
      split
      · exact tagged.settleBelow_left false
      · exact tagged

/-- A configuration that allows more keeps every eligible node eligible, and places a plan with at
least as many device operators and at most as many host operators. -/
theorem place_mono (strict relaxed : Config) (relaxes : relaxed.Relaxes strict) (plan : HostPlan) :
    (tagPlan Builtin.registry strict plan).AtMost (tagPlan Builtin.registry relaxed plan) ∧
      (strict.sqlEnabled = true → relaxed.sqlEnabled = true → ∀ before after,
        place Builtin.registry strict plan = .ok before →
        place Builtin.registry relaxed plan = .ok after →
          before.plan.stats.gpuNodes ≤ after.plan.stats.gpuNodes ∧
            after.plan.stats.hostNodes ≤ before.plan.stats.hostNodes) := by
  have trees := tagPlan_atMost (Builtin.registry_relaxes relaxes) relaxes.fixup plan
  refine ⟨trees, fun strictOn relaxedOn before after placed otherPlaced => ?_⟩
  obtain ⟨node, made, same⟩ := placedAs_of_place strictOn placed
  obtain ⟨otherNode, otherMade, otherSame⟩ := placedAs_of_place relaxedOn otherPlaced
  obtain ⟨onGpu, onHost, -⟩ := made.finishedStats (tagPlan_allReady strict plan)
  obtain ⟨otherOnGpu, otherOnHost, -⟩ := otherMade.finishedStats (tagPlan_allReady relaxed plan)
  rw [same, otherSame, onGpu, onHost, otherOnGpu, otherOnHost]
  constructor
  · apply countP_le_of_forall₂ trees.walk
    intro decision other pair
    rw [pair.noOp, Bool.and_eq_true, Bool.and_eq_true]
    exact And.imp_left pair.eligible
  · apply countP_le_of_forall₂ trees.walk.flip
    intro other decision pair
    rw [Bool.not_eq_true', Bool.not_eq_true', ← Bool.not_eq_true, ← Bool.not_eq_true]
    exact mt pair.eligible

/-- Reading of another file format is switched on, and exchanges are no longer settled. -/
theorem place_mono_csv :
    let relaxed := { Config.default with csvEnabled := true, fixupExchangeOverhead := false }
    let plan := { HostPlan.ofClass "CollectExec" with
      children := [.scan "csv" [.ofType "k" .int]] }
    relaxed.Relaxes .default ∧
      (tagPlan Builtin.registry .default plan).AtMost (tagPlan Builtin.registry relaxed plan) ∧
      ∃ before after, place Builtin.registry .default plan = .ok before ∧
        place Builtin.registry relaxed plan = .ok after ∧
        before.plan.stats.gpuNodes ≤ after.plan.stats.gpuNodes ∧
        after.plan.stats.hostNodes ≤ before.plan.stats.hostNodes := by
  intro relaxed plan
  have relaxes : relaxed.Relaxes .default :=
    ⟨fun _ _ => id, fun _ _ => id, id, id, id, id, id, id, fun _ => rfl, id, id, id, fun _ => rfl⟩
  obtain ⟨before, placed⟩ := exists_placement .default plan rfl
  obtain ⟨after, otherPlaced⟩ := exists_placement relaxed plan rfl
  obtain ⟨trees, counts⟩ := place_mono .default relaxed relaxes plan
  exact ⟨relaxes, trees, before, after, placed, otherPlaced,
    counts rfl rfl before after placed otherPlaced⟩

end GpuPlacement
