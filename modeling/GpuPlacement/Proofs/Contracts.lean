import GpuPlacement.Proofs.Origin
/-!
What device operators rely on. A check that finds nothing is read as the condition that it stands
for, and conversion carries the condition over to the device operator.
-/
namespace GpuPlacement

namespace OperatorCheck

variable {context : Context}

theorem complaints_eq_nil_iff {isOfClass : DataType → Bool} {activity : String}
    {keys : List HostExpr} :
    complaints isOfClass activity keys = [] ↔ ∀ key ∈ keys, isOfClass key.type = true := by
  simp [complaints]

theorem filterCondition_clear_iff :
    (filterCondition context).reasons = [] ↔
      ∃ condition rest, context.node.expressions = condition :: rest ∧
        condition.type = .boolean := by
  unfold filterCondition
  split
  next none => simp [none, Finding.ofReasons]
  next condition rest given => simp [given, Finding.ofReasons, Finding.reasonIf_eq_nil_iff]

theorem groupingKeys_clear_iff :
    (groupingKeys context).reasons = [] ↔
      context.node.params.count "num_grouping" ≤ context.node.expressions.length ∧
        ∀ key ∈ context.node.expressions.take (context.node.params.count "num_grouping"),
          key.type.isHashable = true := by
  unfold groupingKeys
  dsimp only
  split
  next exceeds => simp [Finding.ofReasons, Nat.not_le.mpr exceeds]
  next within =>
    rw [and_iff_right (Nat.not_lt.mp within)]
    exact complaints_eq_nil_iff

theorem limit_clear_iff :
    (limit context).reasons = [] ↔
      ∃ count, context.node.params.int? "limit" = some count ∧ 0 ≤ count := by
  unfold limit
  dsimp only
  cases context.node.params.int? "limit" with
  | none => simp [Finding.ofReasons, Finding.reasonIf_eq_nil_iff]
  | some count => simp [Finding.ofReasons, Finding.reasonIf_eq_nil_iff]

theorem shufflePartitioning_clear_iff :
    (shufflePartitioning context).reasons = [] ↔ context.node.partitioning.isSome = true := by
  simp [shufflePartitioning, Finding.ofReasons, Finding.reasonIf_eq_nil_iff]

theorem joinReasons_eq_nil_iff :
    joinReasons context = [] ↔ context.config.joinEnabled = true ∧
      (context.node.params.text? "join_type").getD "inner" ∈ supportedJoinTypes ∧
      2 * context.node.params.count "num_left_keys" = context.node.expressions.length ∧
      ∀ key ∈ context.node.expressions, key.type.isHashable = true := by
  simp [joinReasons, Finding.reasonIf_eq_nil_iff, complaints_eq_nil_iff]

theorem buildSideReasons_eq_nil_iff :
    buildSideReasons context = [] ↔
      ∃ build, context.children[buildSide context.node]? = some build ∧
        build.short = "BroadcastExchangeExec" ∧ build.eligible = true := by
  unfold buildSideReasons
  split
  next missing => simp [missing]
  next build found =>
    rw [found]
    split
    next other => simp [other]
    next same =>
      have short := not_not.mp same
      simp [short, Finding.reasonIf_eq_nil_iff]

end OperatorCheck

namespace ExprCheck

variable {context : Context}

theorem hashableKeys_clear_iff :
    (hashableKeys context).reasons = [] ↔
      ∀ key ∈ context.node.children, key.type.isHashable = true := by
  simp [hashableKeys, Finding.ofReasons]

theorem aggregateOwner_clear_iff {owner : HostPlan} (given : context.owner = some owner) :
    (aggregateOwner context).reasons = [] ↔ owner.className.short = "HashAggregateExec" := by
  simp [aggregateOwner, given, Finding.ofReasons, Finding.reasonIf_eq_nil_iff]

end ExprCheck

/-- A count below the greatest one is what its parameter says. -/
theorem Params.int_of_count {params : Params} {key : String}
    (small : params.count key < greatestCount) :
    0 ≤ (params.int? key).getD 0 ∧
      params.count key = ((params.int? key).getD 0).toInt.toNat := by
  unfold count at small ⊢
  cases given : params.int? key with
  | none => decide
  | some value =>
      rw [given] at small
      dsimp only [Option.getD_some] at small ⊢
      split at small
      next => exact absurd small (Nat.lt_irrefl _)
      next nonnegative => exact ⟨Int64.not_lt.mp nonnegative, if_neg nonnegative⟩

theorem forall_type_of_types {exprs : List GpuExpr} {hosts : List HostExpr}
    {isOfClass : DataType → Bool} (same : exprs.map (·.type) = hosts.map (·.type))
    (known : ∀ host ∈ hosts, isOfClass host.type = true) :
    ∀ expr ∈ exprs, isOfClass expr.type = true := by
  have types : ∀ type ∈ exprs.map (·.type), isOfClass type = true :=
    same ▸ List.forall_mem_map.mpr known
  exact List.forall_mem_map.mp types

/-- The check of the class that a part is named after found nothing against its source. -/
theorem GpuExpr.StandsFor.clear {owner : Option HostPlan} {part : GpuExpr} {source : HostExpr}
    (h : part.StandsFor owner source) {short : String} {check : ExprCheck.Context → Finding}
    (known : ∃ rule ∈ Builtin.exprRules, rule.spec.short = short ∧ rule.check = check)
    (named : part.name = "Gpu" ++ short) (value : part.name ≠ "GpuLiteral") :
    part.children.map (·.type) = source.children.map (·.type) ∧
      ∃ context, context.node = source ∧ context.owner = owner ∧ (check context).reasons = [] := by
  rcases h.shape with ⟨name, types⟩ | ⟨-, value, rfl⟩
  · obtain ⟨rule, member, same, context, here, owned, supports⟩ := h.accepted
    obtain ⟨other, also, rfl, rfl⟩ := known
    have shorts : rule.spec.short = other.spec.short := by
      rw [RuleSpec.short, same]
      exact (String.append_right_inj "Gpu").mp (name.symm.trans named)
    rw [Builtin.exprRule_ext member also shorts] at supports
    exact ⟨types, context, here, owned, supports.check⟩
  · exact absurd rfl value

theorem Builtin.exists_hashPartitioning : ∃ rule ∈ exprRules,
    rule.spec.short = "HashPartitioning" ∧ rule.check = ExprCheck.hashableKeys :=
  ⟨_, List.mem_append_right _ List.mem_cons_self, by decide +kernel, rfl⟩

theorem Builtin.exists_aggregateExpression : ∃ rule ∈ exprRules,
    rule.spec.short = "AggregateExpression" ∧ rule.check = ExprCheck.aggregateOwner := by
  have member : aggregateRules[1] ∈ exprRules :=
    List.mem_append_left _ (List.mem_append_right _ (List.getElem_mem _))
  exact ⟨_, member, by decide +kernel, rfl⟩

def hashJoinClasses : List ClassName :=
  [.operator "ShuffledHashJoinExec", .operator "BroadcastHashJoinExec"]

def limitClasses : List ClassName :=
  [.operator "LocalLimitExec", .operator "GlobalLimitExec"]

namespace GpuOperator

/-- What the kernels of a device operator rely on, by the class that it replaces. -/
structure MeetsContract (operator : GpuOperator) : Prop where
  grouping : operator.replaces = .operator "HashAggregateExec" →
    let count := (operator.params.int? "num_grouping").getD 0
    0 ≤ count ∧ count.toInt ≤ operator.exprs.length ∧
      ∀ key ∈ operator.exprs.take count.toInt.toNat, key.type.isHashable = true
  joining : operator.replaces ∈ hashJoinClasses →
    let leftKeys := (operator.params.int? "num_left_keys").getD 0
    0 ≤ leftKeys ∧ operator.exprs.length = 2 * leftKeys.toInt ∧
      (∀ key ∈ operator.exprs, key.type.isHashable = true) ∧
      (operator.params.text? "join_type").getD "inner" ∈ supportedJoinTypes
  sorting : operator.replaces = .operator "SortExec" →
    ∀ key ∈ operator.exprs, key.type.isNested = false
  filtering : operator.replaces = .operator "FilterExec" →
    ∃ condition rest, operator.exprs = condition :: rest ∧ condition.type = .boolean
  limiting : operator.replaces ∈ limitClasses →
    ∃ count, operator.params.int? "limit" = some count ∧ 0 ≤ count
  shuffling : operator.replaces = .operator "ShuffleExchangeExec" →
    operator.partitioning.isSome = true
  hashing : ∀ expr ∈ operator.allExpressions, ∀ part ∈ expr.subtrees,
    part.name = "GpuHashPartitioning" → ∀ key ∈ part.children, key.type.isHashable = true
  aggregating : ∀ expr ∈ operator.allExpressions, ∀ part ∈ expr.subtrees,
    part.name = "GpuAggregateExpression" → operator.replaces = .operator "HashAggregateExec"

variable {config : Config} {operator : GpuOperator} {plan : HostPlan}

theorem Implements.clear (h : operator.Implements config plan)
    (check : OperatorCheck.Context → Finding)
    (known : (operator.replaces, check) ∈
      Builtin.operatorRules.map fun rule => (rule.spec.className, rule.check)) :
    ∃ context, context.node = plan ∧ (check context).reasons = [] := by
  obtain ⟨rule, member, same, context, here, supports⟩ := h.supported
  rw [h.replaces, ← same] at known
  exact ⟨context, here, Builtin.check_of_class member known ▸ supports.check⟩

theorem Implements.grouping (h : operator.Implements config plan)
    (fits : plan.expressions.length < greatestCount)
    (replaces : operator.replaces = .operator "HashAggregateExec") :
    let count := (operator.params.int? "num_grouping").getD 0
    0 ≤ count ∧ count.toInt ≤ operator.exprs.length ∧
      ∀ key ∈ operator.exprs.take count.toInt.toNat, key.type.isHashable = true := by
  intro count
  obtain ⟨context, here, clear⟩ :=
    h.clear OperatorCheck.groupingKeys (by simp [replaces, Builtin.operatorRules_checks])
  rw [OperatorCheck.groupingKeys_clear_iff, here] at clear
  obtain ⟨within, hashable⟩ := clear
  obtain ⟨nonnegative, same⟩ := Params.int_of_count (Nat.lt_of_le_of_lt within fits)
  rw [← h.int? "num_grouping" (by decide)] at nonnegative same
  rw [same] at within hashable
  refine ⟨nonnegative, ?_, forall_type_of_types ?_ hashable⟩
  · rw [h.length_exprs]
    exact Int.toNat_le.mp within
  · rw [List.map_take, List.map_take, h.expressionTypes]

theorem Implements.joining (h : operator.Implements config plan)
    (fits : plan.expressions.length < greatestCount)
    (replaces : operator.replaces ∈ hashJoinClasses) :
    let leftKeys := (operator.params.int? "num_left_keys").getD 0
    0 ≤ leftKeys ∧ operator.exprs.length = 2 * leftKeys.toInt ∧
      (∀ key ∈ operator.exprs, key.type.isHashable = true) ∧
      (operator.params.text? "join_type").getD "inner" ∈ supportedJoinTypes := by
  intro leftKeys
  have clear : ∃ context, context.node = plan ∧ OperatorCheck.joinReasons context = [] := by
    rcases List.mem_cons.mp replaces with shuffled | broadcast
    · exact h.clear OperatorCheck.hashJoin (by simp [shuffled, Builtin.operatorRules_checks])
    · obtain ⟨context, here, clear⟩ := h.clear OperatorCheck.broadcastJoin
        (by simp [List.mem_singleton.mp broadcast, Builtin.operatorRules_checks])
      exact ⟨context, here, (List.append_eq_nil_iff.mp clear).1⟩
  obtain ⟨context, here, clear⟩ := clear
  rw [OperatorCheck.joinReasons_eq_nil_iff, here] at clear
  obtain ⟨-, joinType, keys, hashable⟩ := clear
  -- A negative number of left keys counts as the greatest one, more than there are expressions.
  have small : plan.params.count "num_left_keys" < greatestCount := by omega
  obtain ⟨nonnegative, same⟩ := Params.int_of_count small
  rw [← h.int? "num_left_keys" (by decide)] at nonnegative same
  have whole : (leftKeys.toInt.toNat : Int) = leftKeys.toInt :=
    Int.toNat_of_nonneg (Int64.le_iff_toInt_le.mp nonnegative)
  refine ⟨nonnegative, ?_, forall_type_of_types h.expressionTypes hashable, ?_⟩
  · rw [h.length_exprs, ← keys, same, Int.natCast_mul]
    exact congrArg (2 * ·) whole
  · rwa [h.text? "join_type" (by decide)]

theorem Implements.sorting (h : operator.Implements config plan)
    (replaces : operator.replaces = .operator "SortExec") :
    ∀ key ∈ operator.exprs, key.type.isNested = false := by
  obtain ⟨context, here, clear⟩ :=
    h.clear OperatorCheck.sortKeys (by simp [replaces, Builtin.operatorRules_checks])
  have orderable := OperatorCheck.complaints_eq_nil_iff.mp clear
  rw [here] at orderable
  intro key member
  have known := forall_type_of_types h.expressionTypes orderable key member
  simpa [DataType.isOrderable] using known

theorem Implements.filtering (h : operator.Implements config plan)
    (replaces : operator.replaces = .operator "FilterExec") :
    ∃ condition rest, operator.exprs = condition :: rest ∧ condition.type = .boolean := by
  obtain ⟨context, here, clear⟩ :=
    h.clear OperatorCheck.filterCondition (by simp [replaces, Builtin.operatorRules_checks])
  rw [OperatorCheck.filterCondition_clear_iff, here] at clear
  obtain ⟨condition, rest, given, boolean⟩ := clear
  have types := h.expressionTypes
  rw [given, List.map_cons, List.map_eq_cons_iff] at types
  obtain ⟨first, others, made, same, -⟩ := types
  exact ⟨first, others, made, same.trans boolean⟩

theorem Implements.limiting (h : operator.Implements config plan)
    (replaces : operator.replaces ∈ limitClasses) :
    ∃ count, operator.params.int? "limit" = some count ∧ 0 ≤ count := by
  have known : (operator.replaces, OperatorCheck.limit) ∈
      Builtin.operatorRules.map fun rule => (rule.spec.className, rule.check) := by
    rcases List.mem_cons.mp replaces with same | same
    · simp [same, Builtin.operatorRules_checks]
    · simp [List.mem_singleton.mp same, Builtin.operatorRules_checks]
  obtain ⟨context, here, clear⟩ := h.clear OperatorCheck.limit known
  rw [OperatorCheck.limit_clear_iff, here] at clear
  rwa [h.int? "limit" (by decide)]

theorem Implements.shuffling (h : operator.Implements config plan)
    (replaces : operator.replaces = .operator "ShuffleExchangeExec") :
    operator.partitioning.isSome = true := by
  obtain ⟨context, here, clear⟩ :=
    h.clear OperatorCheck.shufflePartitioning (by simp [replaces, Builtin.operatorRules_checks])
  rw [OperatorCheck.shufflePartitioning_clear_iff, here] at clear
  rwa [h.isSome_partitioning]

theorem Implements.hashing (h : operator.Implements config plan) :
    ∀ expr ∈ operator.allExpressions, ∀ part ∈ expr.subtrees,
      part.name = "GpuHashPartitioning" → ∀ key ∈ part.children, key.type.isHashable = true := by
  intro expr member part within named
  obtain ⟨source, stands⟩ := h.parts expr member part within
  obtain ⟨types, context, here, -, clear⟩ :=
    stands.clear Builtin.exists_hashPartitioning named (by rw [named]; decide)
  rw [ExprCheck.hashableKeys_clear_iff, here] at clear
  exact forall_type_of_types types clear

theorem Implements.aggregating (h : operator.Implements config plan) :
    ∀ expr ∈ operator.allExpressions, ∀ part ∈ expr.subtrees,
      part.name = "GpuAggregateExpression" →
        operator.replaces = .operator "HashAggregateExec" := by
  intro expr member part within named
  obtain ⟨source, stands⟩ := h.parts expr member part within
  obtain ⟨-, context, -, owned, clear⟩ :=
    stands.clear Builtin.exists_aggregateExpression named (by rw [named]; decide)
  rw [ExprCheck.aggregateOwner_clear_iff owned] at clear
  obtain ⟨rule, known, same, -⟩ := h.supported
  have qualified := Builtin.className_of_operatorRule rule known
  rw [h.replaces, ← same, qualified, RuleSpec.short, same, clear]

theorem Implements.meetsContract (h : operator.Implements config plan)
    (fits : plan.expressions.length < greatestCount) : operator.MeetsContract where
  grouping := h.grouping fits
  joining := h.joining fits
  sorting := h.sorting
  filtering := h.filtering
  limiting := h.limiting
  shuffling := h.shuffling
  hashing := h.hashing
  aggregating := h.aggregating

end GpuOperator

/-- A machine word counts the expressions of every operator, as it does those of any list in
memory. -/
def HostPlan.Countable (plan : HostPlan) : Prop :=
  ∀ node ∈ plan.subtrees, node.expressions.length < greatestCount

instance (plan : HostPlan) : Decidable plan.Countable :=
  inferInstanceAs (Decidable (∀ node ∈ plan.subtrees, _))

/-- With the built-in rules every device operator of a placed plan meets its contract. -/
theorem place_meetsContracts (config : Config) (plan : HostPlan) (placement : Placement)
    (countable : plan.Countable)
    (placed : place Builtin.registry config plan = .ok placement) :
    ∀ node ∈ placement.plan.root.subtrees, ∀ operator, node.operator = .gpu operator →
      operator.MeetsContract := by
  intro node within operator onGpu
  obtain ⟨source, inside, implements⟩ := implements_of_place placed within onGpu
  exact implements.meetsContract (countable source inside)

/-- An aggregation by one key of what the host produces. -/
def groupedRange : HostPlan :=
  { ((HostPlan.ofClass "HashAggregateExec").withOutput [.ofType "k" .int]).withParam "num_grouping"
      (.int 1) with
    expressions := [HostExpr.column "k" .int]
    children := [(HostPlan.ofClass "RangeExec").withOutput [.ofType "k" .int]] }

theorem groupedRange_tag :
    (tagPlan Builtin.registry .default groupedRange).eligible = true ∧
      (tagPlan Builtin.registry .default groupedRange).decision.noOp = false :=
  tagPlan_of_rule (List.forall_mem_singleton.mpr (ExprDecision.tag_keyColumn _).1)
    (by decide +kernel)

/-- The aggregation runs on the device and groups by its only key. -/
theorem place_meetsContracts_grouped :
    groupedRange.Countable ∧
      ∃ placement, place Builtin.registry .default groupedRange = .ok placement ∧
        ∃ node ∈ placement.plan.root.subtrees, ∃ operator, node.operator = .gpu operator ∧
          operator.replaces = .operator "HashAggregateExec" ∧ operator.MeetsContract := by
  have countable : groupedRange.Countable := by decide
  obtain ⟨placement, placed⟩ := exists_placement .default groupedRange rfl
  obtain ⟨eligible, stays⟩ := groupedRange_tag
  obtain ⟨operator, inputs, within, copies, -⟩ := sent_root_of_place rfl placed eligible stays
  exact ⟨countable, placement, placed, _, within, operator, rfl, copies.replaces,
    place_meetsContracts .default groupedRange placement countable placed _ within operator rfl⟩

end GpuPlacement
