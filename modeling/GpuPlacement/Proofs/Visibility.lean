import GpuPlacement.Proofs.Builtin
import GpuPlacement.Proofs.Support
/-!
What tagging sees around a node. A pass adds reasons that depend on the node, on the settings and on
which of its dependencies are eligible. A built-in rule sees no more of an expression's owner than
its class, and no more of an operator's inputs than their widths; only a broadcast join also asks
whether its build side is an eligible broadcast.
-/
namespace GpuPlacement

/-- Two operators that differ at most in their inputs, which have the same widths. -/
structure HostPlan.SameButInputs (plan other : HostPlan) : Prop where
  className : plan.className = other.className
  output : plan.output = other.output
  expressions : plan.expressions = other.expressions
  partitioning : plan.partitioning = other.partitioning
  params : plan.params = other.params
  widths : plan.children.map (·.output.length) = other.children.map (·.output.length)

theorem HostPlan.SameButInputs.refl (plan : HostPlan) : plan.SameButInputs plan :=
  ⟨rfl, rfl, rfl, rfl, rfl, rfl⟩

/-- What tagging sees of an expression that a node depends on. -/
def ExprDecision.summary (tree : ExprDecision) : String × Bool :=
  (tree.short, tree.eligible)

/-- What tagging sees of an input. -/
def PlanDecision.summary (tree : PlanDecision) : String × Bool :=
  (tree.short, tree.eligible)

/-- Of the owner of an expression its check sees the class, and of the arguments nothing. -/
theorem ExprCheck.check_congr : ∀ rule ∈ Builtin.exprRules, ∀ context other : Context,
    context.node = other.node →
    context.owner.map HostPlan.className = other.owner.map HostPlan.className →
    context.config = other.config → rule.check context = rule.check other := by
  apply Builtin.forall_expr_check fun check => ∀ context other : Context,
    context.node = other.node →
    context.owner.map HostPlan.className = other.owner.map HostPlan.className →
    context.config = other.config → check context = check other
  all_goals
    intro context other node owner config
    obtain ⟨_, _, givenOwner, _, _, _⟩ := context
    obtain ⟨_, _, otherOwner, _, _, _⟩ := other
    cases node
    cases config
  case aggregateOwner =>
    unfold aggregateOwner
    cases givenOwner with
    | none =>
        cases otherOwner with
        | none => rfl
        | some => cases owner
    | some first =>
        cases otherOwner with
        | none => cases owner
        | some second =>
            have same : first.className = second.className := Option.some.inj owner
            dsimp only
            rw [same]
  all_goals rfl

namespace OperatorCheck

theorem identityProjection_reasons (context : Context) :
    (identityProjection context).reasons = [] := by
  unfold identityProjection
  split <;> rfl

theorem sameWidths_congr {plans others : List HostPlan}
    (widths : plans.map (·.output.length) = others.map (·.output.length)) :
    sameWidths plans = sameWidths others := by
  cases plans with
  | nil =>
      rw [List.map_eq_nil_iff.mp widths.symm]
  | cons first rest =>
      cases others with
      | nil => cases widths
      | cons other later =>
          obtain ⟨head, tail⟩ := List.cons.inj widths
          have all (plans : List HostPlan) (width : Nat) :
              (plans.all fun plan => plan.output.length = width) =
                (plans.map (·.output.length)).all fun length => length = width := by
            rw [List.all_map]
            rfl
          have width : first.output.length = other.output.length := head
          rw [sameWidths, sameWidths, all, all, tail, width]

theorem joinReasons_congr {context other : Context}
    (same : context.node.SameButInputs other.node) (config : context.config = other.config) :
    joinReasons context = joinReasons other := by
  rw [joinReasons, joinReasons, same.expressions, same.params, config]

/-- The check reads nothing of an operator's inputs but their widths. -/
def Blind (check : Context → Finding) : Prop :=
  ∀ context other : Context, context.node.SameButInputs other.node →
    context.config = other.config → (check context).reasons = (check other).reasons

/-- All checks but the one for broadcast joins are blind to inputs. -/
theorem blind_or_broadcastJoin : ∀ rule ∈ Builtin.operatorRules, Blind rule.check ∨
    (rule.spec.className = .operator "BroadcastHashJoinExec" ∧ rule.check = broadcastJoin) := by
  have clear : Blind fun _ => .clear := fun _ _ _ _ => rfl
  have projection : Blind identityProjection := fun _ _ _ _ => by
    rw [identityProjection_reasons, identityProjection_reasons]
  have filter : Blind filterCondition := fun _ _ same _ => by
    rw [filterCondition, filterCondition, same.expressions]
  have grouping : Blind groupingKeys := fun _ _ same _ => by
    rw [groupingKeys, groupingKeys, same.expressions, same.params]
  have sorting : Blind sortKeys := fun _ _ same _ => by
    rw [sortKeys, sortKeys, same.expressions]
  have limiting : Blind limit := fun _ _ same _ => by
    rw [limit, limit, same.params]
  have union : Blind unionArity := fun _ _ same _ => by
    rw [unionArity, unionArity, sameWidths_congr same.widths]
  have shuffle : Blind shufflePartitioning := fun _ _ same _ => by
    rw [shufflePartitioning, shufflePartitioning, same.partitioning]
  have join : Blind hashJoin := fun _ _ same config => by
    rw [hashJoin, hashJoin, joinReasons_congr same config]
  have scan : Blind fileScan := fun _ _ same config => by
    rw [fileScan, fileScan, same.output, same.params, config]
  simp only [Builtin.operatorRules, Builtin.rowRules, Builtin.exchangeRules, Builtin.joinRules,
    Builtin.batchRules, List.cons_append, List.nil_append, List.forall_mem_cons]
  exact ⟨.inl projection, .inl filter, .inl grouping, .inl sorting, .inl limiting, .inl limiting,
    .inl union, .inl shuffle, .inl clear, .inl join, .inr ⟨rfl, rfl⟩, .inl clear, .inl clear,
    .inl scan, List.forall_mem_nil _⟩

/-- What a broadcast join sees of its build side, if it has one. -/
def buildSummary (node : HostPlan) (children : List PlanDecision) : Option (String × Bool) :=
  (children[buildSide node]?).map PlanDecision.summary

theorem buildSideReasons_congr {context other : Context}
    (build : buildSummary context.node context.children = buildSummary other.node other.children) :
    buildSideReasons context = buildSideReasons other := by
  unfold buildSideReasons
  unfold buildSummary at build
  cases first : context.children[buildSide context.node]? with
  | none =>
      rw [first] at build
      rw [Option.map_eq_none_iff.mp build.symm]
  | some child =>
      rw [first] at build
      obtain ⟨input, second, same⟩ := Option.map_eq_some_iff.mp build.symm
      obtain ⟨short, eligible⟩ := Prod.mk.inj same
      rw [second]
      dsimp only
      rw [short, eligible]

/-- A check gives the same reasons to operators that differ at most in their inputs, as long as the
build sides of broadcast joins look the same. -/
theorem reasons_congr {rule : OperatorRule} (member : rule ∈ Builtin.operatorRules)
    {context other : Context} (matching : rule.spec.className = context.node.className)
    (same : context.node.SameButInputs other.node) (config : context.config = other.config)
    (build : context.node.className = .operator "BroadcastHashJoinExec" →
      buildSummary context.node context.children = buildSummary other.node other.children) :
    (rule.check context).reasons = (rule.check other).reasons := by
  rcases blind_or_broadcastJoin rule member with blind | ⟨joins, check⟩
  · exact blind context other same config
  · have sides := build (matching.symm.trans joins)
    rw [check, broadcastJoin, broadcastJoin, joinReasons_congr same config,
      buildSideReasons_congr sides]

end OperatorCheck

/-- No built-in rule asks which types an operator's inputs have. -/
theorem Builtin.operatorRules_inputs : ∀ rule ∈ operatorRules, rule.spec.inputs.isNone = true := by
  decide +kernel

theorem Builtin.typeReasons_congr {rule : OperatorRule} (member : rule ∈ operatorRules)
    {plan other : HostPlan} (output : plan.output = other.output) :
    rule.spec.typeReasons plan = rule.spec.typeReasons other := by
  have unasked : rule.spec.inputs = none :=
    Option.isNone_iff_eq_none.mp (operatorRules_inputs rule member)
  have produced : HostNode.outputTypes plan = HostNode.outputTypes other :=
    congrArg (List.map (·.type)) output
  rw [RuleSpec.typeReasons, RuleSpec.typeReasons, unasked, produced]
  rfl

namespace Decision

variable {Node Op : Type} [HostNode Node]

/-- The reasons that a pass adds to a node. -/
def complaints (decision : Decision Node Op) (finding : Option Finding)
    (dependency : Option String) : List String :=
  match finding with
  | none => [missingRuleReason decision.kind decision.short]
  | some finding => finding.reasons ++ dependency.toList

theorem judge_reasons (decision : Decision Node Op) (finding : Option Finding)
    (dependency : Option String) :
    (decision.judge finding dependency).reasons =
      decision.reasons ++ decision.complaints finding dependency := by
  cases finding <;> rfl

end Decision

namespace ExprDecision

variable {registry : Registry} {config : Config}

/-- The reasons that a pass adds to the root of a tree. -/
def found (registry : Registry) (config : Config) (tree : ExprDecision) : List String :=
  let children := tree.children.map (tag registry config)
  tree.decision.complaints
    ((registry.exprs.find? tree.decision.node.className).map fun rule =>
      rule.examine (context config ⟨tree.decision, children⟩))
    (dependencyReason children)

theorem reasons_tag (tree : ExprDecision) :
    (tree.tag registry config).decision.reasons =
      tree.decision.reasons ++ tree.found registry config := by
  rw [tag_eq]
  exact Decision.judge_reasons ..

theorem dependencyReason_congr {children others : List ExprDecision}
    (same : children.map summary = others.map summary) :
    dependencyReason children = dependencyReason others := by
  have seen (trees : List ExprDecision) : dependencyReason trees =
      ((trees.map summary).find? fun seen => !seen.2).map fun seen =>
        s!"not all child expressions can run on GPU: {seen.1}" := by
    rw [List.find?_map, Option.map_map]
    rfl
  rw [seen, seen, same]

/-- A pass finds the same against two expressions that look the same to it. -/
theorem found_congr {tree other : ExprDecision} (node : tree.decision.node = other.decision.node)
    (kind : tree.decision.kind = other.decision.kind)
    (owner : tree.decision.owner.map HostPlan.className =
      other.decision.owner.map HostPlan.className)
    (children : tree.children.map (fun child => (child.tag Builtin.registry config).summary) =
      other.children.map fun child => (child.tag Builtin.registry config).summary) :
    tree.found Builtin.registry config = other.found Builtin.registry config := by
  have arguments : (tree.children.map (tag Builtin.registry config)).map summary =
      (other.children.map (tag Builtin.registry config)).map summary := by
    rw [List.map_map, List.map_map]
    exact children
  unfold found
  dsimp only
  rw [← node, dependencyReason_congr arguments]
  cases given : Builtin.registry.exprs.find? tree.decision.node.className with
  | none =>
      have short : tree.decision.short = other.decision.short :=
        congrArg (fun node => (HostNode.className node).short) node
      dsimp only [Option.map_none, Decision.complaints]
      rw [kind, short]
  | some rule =>
      have check := ExprCheck.check_congr rule (Builtin.mem_of_find?_exprs given)
        (context config ⟨tree.decision, tree.children.map (tag Builtin.registry config)⟩)
        (context config ⟨other.decision, other.children.map (tag Builtin.registry config)⟩)
        node owner rfl
      dsimp only [Option.map_some, Decision.complaints, Rule.examine]
      rw [check]
      dsimp only [context]
      rw [node]

end ExprDecision

namespace PlanDecision

variable {registry : Registry} {config : Config}

/-- The reasons that a pass adds to the root of a tree. -/
def found (registry : Registry) (config : Config) (tree : PlanDecision) : List String :=
  let children := tree.children.map (tag registry config)
  let exprs := tree.exprs.map (ExprDecision.tag registry config)
  tree.decision.complaints
    ((registry.operators.find? tree.decision.node.className).map fun rule =>
      rule.examine (context config ⟨tree.decision, exprs, children⟩))
    (dependencyReason exprs)

theorem reasons_tag (tree : PlanDecision) :
    (tree.tag registry config).decision.reasons =
      tree.decision.reasons ++ tree.found registry config := by
  rw [tag_eq]
  exact Decision.judge_reasons ..

theorem dependencyReason_congr {exprs others : List ExprDecision}
    (same : exprs.map ExprDecision.summary = others.map ExprDecision.summary) :
    dependencyReason exprs = dependencyReason others := by
  have seen (trees : List ExprDecision) :
      (trees.filter fun tree => !tree.eligible).map ExprDecision.short =
        ((trees.map ExprDecision.summary).filter fun seen => !seen.2).map Prod.fst := by
    rw [List.filter_map, List.map_map]
    rfl
  have shorts : (exprs.filter fun tree => !tree.eligible).map ExprDecision.short =
      (others.filter fun tree => !tree.eligible).map ExprDecision.short := by
    rw [seen, seen, same]
  unfold dependencyReason
  cases failing : exprs.filter fun tree => !tree.eligible with
  | nil =>
      rw [failing] at shorts
      rw [List.map_eq_nil_iff.mp shorts.symm]
  | cons first rest =>
      cases alike : others.filter fun tree => !tree.eligible with
      | nil =>
          rw [failing, alike] at shorts
          cases shorts
      | cons other later =>
          rw [failing, alike] at shorts
          dsimp only
          rw [shorts]

/-- A pass finds the same against two operators that look the same to it. -/
theorem found_congr {tree other : PlanDecision}
    (node : tree.decision.node.SameButInputs other.decision.node)
    (kind : tree.decision.kind = other.decision.kind)
    (exprs : tree.exprs.map (fun expr => (expr.tag Builtin.registry config).summary) =
      other.exprs.map fun expr => (expr.tag Builtin.registry config).summary)
    (build : tree.decision.node.className = .operator "BroadcastHashJoinExec" →
      OperatorCheck.buildSummary tree.decision.node
          (tree.children.map (tag Builtin.registry config)) =
        OperatorCheck.buildSummary other.decision.node
          (other.children.map (tag Builtin.registry config))) :
    tree.found Builtin.registry config = other.found Builtin.registry config := by
  have evaluated : (tree.exprs.map (ExprDecision.tag Builtin.registry config)).map
      ExprDecision.summary = (other.exprs.map (ExprDecision.tag Builtin.registry config)).map
        ExprDecision.summary := by
    rw [List.map_map, List.map_map]
    exact exprs
  unfold found
  dsimp only
  rw [← node.className, dependencyReason_congr evaluated]
  cases given : Builtin.registry.operators.find? tree.decision.node.className with
  | none =>
      have short : tree.decision.short = other.decision.short :=
        congrArg ClassName.short node.className
      dsimp only [Option.map_none, Decision.complaints]
      rw [kind, short]
  | some rule =>
      have member := Builtin.mem_of_find?_operators given
      have types := Builtin.typeReasons_congr member node.output
      dsimp only [Option.map_some, Decision.complaints, Rule.examine, context]
      rw [types, OperatorCheck.reasons_congr member]
      · exact Builtin.className_of_find?_operators given
      · exact node
      · rfl
      · exact build

end PlanDecision

end GpuPlacement
