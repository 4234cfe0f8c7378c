import GpuPlacement.Proofs.Visibility
/-!
Operators are tagged apart from their inputs. With the built-in rules two operators that differ in
nothing but what stands below them get the same reasons, and so do their expressions. The build side
of a broadcast join is the one exception.
-/
namespace GpuPlacement

namespace ExprDecision

variable {config : Config}

theorem summary_congr {tree other : ExprDecision} (node : tree.decision.node = other.decision.node)
    (reasons : tree.decision.reasons = other.decision.reasons) : tree.summary = other.summary := by
  have short : tree.short = other.short :=
    congrArg (fun node => (HostNode.className node).short) node
  have eligible : tree.eligible = other.eligible := congrArg List.isEmpty reasons
  rw [summary, summary, short, eligible]

/-- The reasons against an expression depend on no more of its owner than the class. -/
theorem reasons_tag_congr {owner otherOwner : Option HostPlan}
    (same : owner.map HostPlan.className = otherOwner.map HostPlan.className) (kind : RuleKind)
    (parent otherParent : Option HostExpr) (expr : HostExpr) :
    ((ofExprAt Builtin.registry kind parent owner expr).tag Builtin.registry
        config).decision.reasons =
      ((ofExprAt Builtin.registry kind otherParent otherOwner expr).tag Builtin.registry
        config).decision.reasons := by
  induction expr generalizing kind parent otherParent with
  | node className type nullable name params children ih =>
      rw [reasons_tag, reasons_tag, ofExprAt_reasons, ofExprAt_reasons]
      refine congrArg ([] ++ ·) (found_congr ?here ?category ?above ?below)
      case here => rw [ofExprAt_node, ofExprAt_node]
      case category =>
        rw [ofExprAt_eq, ofExprAt_eq]
        rfl
      case above =>
        rw [ofExprAt_owner, ofExprAt_owner]
        exact same
      case below =>
        rw [ofExprAt_children, ofExprAt_children, List.map_map, List.map_map]
        refine List.map_congr_left fun child member => ?_
        refine summary_congr ?_ (ih child member .expression _ _)
        rw [tag_node, tag_node, ofExprAt_node, ofExprAt_node]

/-- What is said about each node of an expression, parents before arguments. -/
def remarks (tree : ExprDecision) : List (HostExpr × List String) :=
  tree.walk.map fun decision => (decision.node, decision.reasons)

theorem remarks_eq (tree : ExprDecision) :
    tree.remarks =
      (tree.decision.node, tree.decision.reasons) :: tree.children.flatMap remarks := by
  obtain ⟨decision, children⟩ := tree
  rw [remarks, walk, walkAll_eq_flatMap, List.map_cons, List.map_flatMap]
  rfl

theorem remarks_tag_congr {owner otherOwner : Option HostPlan}
    (same : owner.map HostPlan.className = otherOwner.map HostPlan.className) (kind : RuleKind)
    (parent otherParent : Option HostExpr) (expr : HostExpr) :
    ((ofExprAt Builtin.registry kind parent owner expr).tag Builtin.registry config).remarks =
      ((ofExprAt Builtin.registry kind otherParent otherOwner expr).tag Builtin.registry
        config).remarks := by
  induction expr generalizing kind parent otherParent with
  | node className type nullable name params children ih =>
      rw [remarks_eq, remarks_eq, reasons_tag_congr same kind parent otherParent, tag_node,
        tag_node, ofExprAt_node, ofExprAt_node, tag_children, tag_children, ofExprAt_children,
        ofExprAt_children, List.flatMap_map, List.flatMap_map, List.flatMap_map, List.flatMap_map]
      refine congrArg (List.cons _) (List.flatMap_congr fun child member => ?_)
      exact ih child member .expression _ _

end ExprDecision

namespace PlanDecision

variable {config : Config}

/-- The expressions of an operator are those of every operator that differs in its inputs only. -/
theorem map_ofExpressions_congr {α : Type} {plan other : HostPlan} (same : plan.SameButInputs other)
    {f : ExprDecision → α} (each : ∀ kind expr,
      f (.ofExprAt Builtin.registry kind none (some plan) expr) =
        f (.ofExprAt Builtin.registry kind none (some other) expr)) :
    (ofExpressions Builtin.registry plan).map f = (ofExpressions Builtin.registry other).map f := by
  simp only [ofExpressions, List.map_append, List.map_map, Function.comp_def, each,
    same.expressions, same.partitioning]

/-- The reasons against an operator depend on no more of its inputs than their widths and, for a
broadcast join, what its build side looks like. -/
theorem reasons_tag_congr {plan other : HostPlan} (same : plan.SameButInputs other)
    (parent otherParent : Option HostPlan)
    (build : plan.className = .operator "BroadcastHashJoinExec" →
      OperatorCheck.buildSummary plan
          ((ofPlanBelow Builtin.registry parent plan).tag Builtin.registry config).children =
        OperatorCheck.buildSummary other
          ((ofPlanBelow Builtin.registry otherParent other).tag Builtin.registry config).children) :
    ((ofPlanBelow Builtin.registry parent plan).tag Builtin.registry config).decision.reasons =
      ((ofPlanBelow Builtin.registry otherParent other).tag Builtin.registry
        config).decision.reasons := by
  have owners : (some plan).map HostPlan.className = (some other).map HostPlan.className :=
    congrArg some same.className
  rw [reasons_tag, reasons_tag, ofPlanBelow_reasons, ofPlanBelow_reasons]
  refine congrArg ([] ++ ·) (found_congr ?here ?category ?evaluated ?built)
  case here =>
    rw [ofPlanBelow_node, ofPlanBelow_node]
    exact same
  case category =>
    rw [ofPlanBelow_eq, ofPlanBelow_eq, same.className]
    rfl
  case evaluated =>
    rw [ofPlanBelow_exprs, ofPlanBelow_exprs]
    refine map_ofExpressions_congr same fun kind expr => ?_
    refine ExprDecision.summary_congr ?_ (ExprDecision.reasons_tag_congr owners ..)
    rw [ExprDecision.tag_node, ExprDecision.tag_node, ExprDecision.ofExprAt_node,
      ExprDecision.ofExprAt_node]
  case built =>
    rw [ofPlanBelow_node, ofPlanBelow_node, ← tag_children, ← tag_children]
    exact build

theorem remarks_exprs_congr {plan other : HostPlan} (same : plan.SameButInputs other)
    (parent otherParent : Option HostPlan) :
    ((ofPlanBelow Builtin.registry parent plan).tag Builtin.registry config).exprs.map
        ExprDecision.remarks =
      ((ofPlanBelow Builtin.registry otherParent other).tag Builtin.registry config).exprs.map
        ExprDecision.remarks := by
  have owners : (some plan).map HostPlan.className = (some other).map HostPlan.className :=
    congrArg some same.className
  rw [tag_exprs, tag_exprs, ofPlanBelow_exprs, ofPlanBelow_exprs, List.map_map, List.map_map]
  exact map_ofExpressions_congr same fun kind expr =>
    ExprDecision.remarks_tag_congr owners kind none none expr

end PlanDecision

/-- Two operators of one class, with the same columns, expressions, partitioning and parameters and
with equally many inputs of the same widths, get the same reasons, and so does every node of their
expressions, wherever the operators stand and whatever their inputs are. Broadcast joins may get
different reasons, but only where the build side of one has another short name than that of the
other, or is eligible while that one is not. -/
theorem tag_ignores_inputs (config : Config) (parent otherParent : Option HostPlan)
    (plan other : HostPlan) (same : plan.SameButInputs other) :
    let tree := (PlanDecision.ofPlanBelow Builtin.registry parent plan).tag Builtin.registry config
    let otherTree :=
      (PlanDecision.ofPlanBelow Builtin.registry otherParent other).tag Builtin.registry config
    tree.exprs.map ExprDecision.remarks = otherTree.exprs.map ExprDecision.remarks ∧
    (plan.className ≠ .operator "BroadcastHashJoinExec" →
      tree.decision.reasons = otherTree.decision.reasons) ∧
    (OperatorCheck.buildSummary plan tree.children =
        OperatorCheck.buildSummary other otherTree.children →
      tree.decision.reasons = otherTree.decision.reasons) := by
  refine ⟨PlanDecision.remarks_exprs_congr same parent otherParent, ?_, ?_⟩
  · intro differs
    exact PlanDecision.reasons_tag_congr same parent otherParent fun joins => absurd joins differs
  · intro build
    exact PlanDecision.reasons_tag_congr same parent otherParent fun _ => build

/-- A join of two equal columns with the broadcast of its right input. -/
def broadcastJoinOf (left right : HostPlan) : HostPlan :=
  let columns := [Column.ofType "k" .int]
  { ((HostPlan.ofClass "BroadcastHashJoinExec").withOutput columns).withParam "num_left_keys"
      (.int 1) with
    expressions := [.column "k" .int, .column "k" .int]
    children := [left, { (HostPlan.ofClass "BroadcastExchangeExec").withOutput columns with
      children := [right] }] }

/-- Inputs of which only one has a rule change places. -/
theorem tag_ignores_inputs_broadcastJoin :
    let columns := [Column.ofType "k" .int]
    let range := (HostPlan.ofClass "RangeExec").withOutput columns
    let scan := HostPlan.scan "parquet" columns
    let plan := broadcastJoinOf range scan
    let other := broadcastJoinOf scan range
    let tree := (PlanDecision.ofPlanBelow Builtin.registry none plan).tag Builtin.registry .default
    let otherTree :=
      (PlanDecision.ofPlanBelow Builtin.registry none other).tag Builtin.registry .default
    plan.SameButInputs other ∧
      OperatorCheck.buildSummary plan tree.children =
        OperatorCheck.buildSummary other otherTree.children ∧
      tree.exprs.map ExprDecision.remarks = otherTree.exprs.map ExprDecision.remarks ∧
      tree.decision.reasons = otherTree.decision.reasons := by
  intro columns range scan plan other tree otherTree
  have same : plan.SameButInputs other := ⟨rfl, rfl, rfl, rfl, rfl, rfl⟩
  have build : OperatorCheck.buildSummary plan tree.children =
      OperatorCheck.buildSummary other otherTree.children := by decide +kernel
  obtain ⟨exprs, -, reasons⟩ := tag_ignores_inputs .default none none plan other same
  exact ⟨same, build, exprs, reasons build⟩

end GpuPlacement
