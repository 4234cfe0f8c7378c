import GpuPlacement.Cli.Run
import GpuPlacement.Proofs.Reported
/-!
The master switch. Placement obeys it; no rule reads it, so what tagging decides and reports is the
same on both sides of it.
-/
namespace GpuPlacement

namespace Config

/-- The snapshot with the master switch turned on or off. -/
def switched (config : Config) (enabled : Bool) : Config :=
  { config with sqlEnabled := enabled }

end Config

namespace TagContext

variable {Node Child : Type}

def switched (context : TagContext Node Child) (enabled : Bool) : TagContext Node Child :=
  { context with config := context.config.switched enabled }

end TagContext

theorem Rule.examine_switched {Node Child Op : Type} [HostNode Node] {rule : Rule Node Child Op}
    {context : TagContext Node Child} {enabled : Bool}
    (unread : rule.check (context.switched enabled) = rule.check context) :
    rule.examine (context.switched enabled) = rule.examine context := by
  rw [examine, examine, unread]
  rfl

namespace Builtin

theorem exprCheck_switched : ∀ rule ∈ exprRules, ∀ context enabled,
    rule.check (context.switched enabled) = rule.check context := by
  apply forall_expr_check fun check =>
    ∀ context enabled, check (TagContext.switched context enabled) = check context
  all_goals exact fun context enabled => rfl

theorem formatReasons_switched (config : Config) (enabled : Bool) (format : String)
    (output : List Column) :
    OperatorCheck.formatReasons (config.switched enabled) format output =
      OperatorCheck.formatReasons config format output := by
  have unread : (config.switched enabled).formatEnabled format = config.formatEnabled format := by
    unfold Config.formatEnabled
    rfl
  rw [OperatorCheck.formatReasons, OperatorCheck.formatReasons, unread]

theorem operatorCheck_switched : ∀ rule ∈ operatorRules, ∀ context enabled,
    rule.check (context.switched enabled) = rule.check context := by
  apply forall_operator_check fun check =>
    ∀ context enabled, check (TagContext.switched context enabled) = check context
  case fileScan =>
    intro context enabled
    unfold OperatorCheck.fileScan
    dsimp only [TagContext.switched]
    simp only [formatReasons_switched]
  all_goals exact fun context enabled => rfl

end Builtin

theorem ExprDecision.tag_switched (config : Config) (enabled : Bool) (tree : ExprDecision) :
    tree.tag Builtin.registry (config.switched enabled) = tree.tag Builtin.registry config := by
  induction tree with
  | node decision children ih =>
      have arguments : children.map (tag Builtin.registry (config.switched enabled)) =
          children.map (tag Builtin.registry config) := List.map_congr_left ih
      rw [tag_eq, tag_eq, arguments, examine, examine]
      cases found : Builtin.registry.exprs.find? decision.node.className with
      | none => rfl
      | some rule =>
          have unread := Builtin.exprCheck_switched rule (Builtin.mem_of_find?_exprs found)
            ⟨decision.node, decision.parent, decision.owner, config,
              children.map (tag Builtin.registry config), []⟩ enabled
          rw [Option.map_some, Option.map_some, ← Rule.examine_switched unread]
          rfl

namespace PlanDecision

theorem tag_switched (config : Config) (enabled : Bool) (tree : PlanDecision) :
    tree.tag Builtin.registry (config.switched enabled) = tree.tag Builtin.registry config := by
  induction tree with
  | node decision exprs children ih =>
      have evaluated : exprs.map (ExprDecision.tag Builtin.registry (config.switched enabled)) =
          exprs.map (ExprDecision.tag Builtin.registry config) :=
        List.map_congr_left fun expr _ => expr.tag_switched config enabled
      have inputs : children.map (tag Builtin.registry (config.switched enabled)) =
          children.map (tag Builtin.registry config) := List.map_congr_left ih
      rw [tag_eq, tag_eq, evaluated, inputs, examine, examine]
      cases found : Builtin.registry.operators.find? decision.node.className with
      | none => rfl
      | some rule =>
          have unread := Builtin.operatorCheck_switched rule
            (Builtin.mem_of_find?_operators found)
            ⟨decision.node, decision.parent, decision.owner, config,
              children.map (tag Builtin.registry config),
              exprs.map (ExprDecision.tag Builtin.registry config)⟩ enabled
          rw [Option.map_some, Option.map_some, ← Rule.examine_switched unread]
          rfl

end PlanDecision

theorem tagPlan_switched (config : Config) (enabled : Bool) (plan : HostPlan) :
    tagPlan Builtin.registry (config.switched enabled) plan =
      tagPlan Builtin.registry config plan := by
  unfold tagPlan
  rw [PlanDecision.tag_switched]
  rfl

/-- The command that explains a plan does not look at the master switch. With the switch off it
shows the placement that the switch prevents: every operator stays on the host, and placement itself
reports nothing. -/
theorem explain_switched (config : Config) (plan : HostPlan) (mode : Option ReportMode) :
    (∀ enabled,
      tagPlan Builtin.registry (config.switched enabled) plan =
        tagPlan Builtin.registry config plan ∧
      Cli.explain (config.switched enabled) plan mode = Cli.explain config plan mode) ∧
    place Builtin.registry (config.switched false) plan = .ok ⟨.hostOnly plan, ""⟩ ∧
    ∀ node ∈ (PlacedPlan.hostOnly plan).root.subtrees,
      ∃ operator, node.operator = .host operator := by
  refine ⟨fun enabled => ⟨tagPlan_switched config enabled plan, ?_⟩, ?_, ?_⟩
  · unfold Cli.explain
    rw [tagPlan_switched]
    rfl
  · exact place_ok_iff.mpr (.inl ⟨rfl, rfl⟩)
  · intro node within
    have root : (PlacedPlan.hostOnly plan).root = .ofHostPlan plan := by
      cases plan
      rfl
    rw [root] at within
    exact PlacedNode.mem_subtrees_ofHostPlan within

example : Cli.explain (Config.default.switched false) (.ofClass "UnionExec") none =
    .ofOutput "*Exec <UnionExec> will run on GPU\n" := by
  decide +kernel

/-- Marks do not respect the master switch, not even on a single operator. -/
theorem not_forall_mark_switched :
    ¬ ∀ (config : Config) (plan : HostPlan), config.sqlEnabled = false →
      ∀ node ∈ (tagPlan Builtin.registry config plan).nodes,
        node.mark ≠ .onGpu ∧ node.mark ≠ .removed := by
  intro claimed
  have promised : ∃ node ∈ (tagPlan Builtin.registry (Config.default.switched false)
      (.ofClass "UnionExec")).nodes, node.mark = .onGpu := by decide +kernel
  obtain ⟨node, listed, mark⟩ := promised
  exact (claimed (Config.default.switched false) (.ofClass "UnionExec") rfl node listed).1 mark

end GpuPlacement
