import Mathlib.Data.List.Nodup
import GpuPlacement.Builtin.OperatorRules
/-!
What the built-in rules have in common. A property of all their checks or converters holds as soon
as it holds of the few that they are made of.
-/
namespace GpuPlacement

namespace RuleTable

variable {Node Child Op : Type}

theorem find?_insert (table : RuleTable Node Child Op) (rule : Rule Node Child Op)
    (className : ClassName) :
    (table.insert rule).find? className =
      if className = rule.spec.className then some rule else table.find? className := by
  rw [find?, insert, Dict.get?_insert]
  rcases className with ⟨name⟩
  cases rule.spec.className
  simp only [ClassName.mk.injEq, find?]

theorem find?_foldl_insert (rules : List (Rule Node Child Op)) (table : RuleTable Node Child Op)
    (className : ClassName) :
    (rules.foldl insert table).find? className =
      (rules.reverse.find? fun rule => decide (className = rule.spec.className)).or
        (table.find? className) := by
  induction rules generalizing table with
  | nil => rfl
  | cons rule rest ih =>
      rw [List.foldl_cons, ih, find?_insert, List.reverse_cons, List.find?_append, Option.or_assoc,
        List.find?_singleton]
      by_cases same : className = rule.spec.className <;> simp [same]

/-- The last rule of a class is the one that a table finds. -/
theorem find?_ofList (rules : List (Rule Node Child Op)) (className : ClassName) :
    (ofList rules).find? className =
      rules.reverse.find? fun rule => decide (className = rule.spec.className) := by
  rw [ofList, find?_foldl_insert]
  exact Option.or_none

/-- A table finds only rules that were put into it. -/
theorem mem_of_find?_ofList {rules : List (Rule Node Child Op)} {className : ClassName}
    {rule : Rule Node Child Op} (found : (ofList rules).find? className = some rule) :
    rule ∈ rules := by
  rw [find?_ofList] at found
  exact List.mem_reverse.mp (List.mem_of_find?_eq_some found)

/-- The rule that a table finds for a class is a rule of that class. -/
theorem className_of_find?_ofList {rules : List (Rule Node Child Op)} {className : ClassName}
    {rule : Rule Node Child Op} (found : (ofList rules).find? className = some rule) :
    rule.spec.className = className := by
  rw [find?_ofList] at found
  have matching := List.find?_some found
  exact (of_decide_eq_true matching).symm

/-- Rules of pairwise different classes are all found. -/
theorem find?_ofList_of_mem {rules : List (Rule Node Child Op)} {rule : Rule Node Child Op}
    (distinct : rules.Pairwise fun rule other => rule.spec.className ≠ other.spec.className)
    (member : rule ∈ rules) : (ofList rules).find? rule.spec.className = some rule := by
  obtain ⟨before, after, rfl⟩ := List.append_of_mem member
  obtain ⟨-, later, -⟩ := List.pairwise_append.mp distinct
  have differs := (List.pairwise_cons.mp later).1
  rw [find?_ofList, List.find?_eq_some_iff_append]
  refine ⟨decide_eq_true rfl, after.reverse, before.reverse, by simp, ?_⟩
  intro other among
  simpa using differs other (List.mem_reverse.mp among)

theorem find?_ofList_eq_none {rules : List (Rule Node Child Op)} {className : ClassName}
    (missing : ∀ rule ∈ rules, className ≠ rule.spec.className) :
    (ofList rules).find? className = none := by
  rw [find?_ofList, List.find?_eq_none]
  intro rule among
  simpa using missing rule (List.mem_reverse.mp among)

end RuleTable

namespace Builtin

theorem mem_of_find?_operators {className : ClassName} {rule : OperatorRule}
    (found : registry.operators.find? className = some rule) : rule ∈ operatorRules :=
  RuleTable.mem_of_find?_ofList found

theorem mem_of_find?_exprs {className : ClassName} {rule : ExprRule}
    (found : registry.exprs.find? className = some rule) : rule ∈ exprRules :=
  RuleTable.mem_of_find?_ofList found

theorem className_of_find?_operators {className : ClassName} {rule : OperatorRule}
    (found : registry.operators.find? className = some rule) : rule.spec.className = className :=
  RuleTable.className_of_find?_ofList found

theorem className_of_find?_exprs {className : ClassName} {rule : ExprRule}
    (found : registry.exprs.find? className = some rule) : rule.spec.className = className :=
  RuleTable.className_of_find?_ofList found

theorem find?_operators_of_mem {rule : OperatorRule} (member : rule ∈ operatorRules) :
    registry.operators.find? rule.spec.className = some rule :=
  RuleTable.find?_ofList_of_mem (by decide +kernel) member

/-- Built-in rules are told apart by the short names of their classes. -/
theorem exprRules_shorts_nodup : (exprRules.map fun rule => rule.spec.short).Nodup := by
  decide +kernel

theorem exprRule_ext {rule other : ExprRule} (member : rule ∈ exprRules) (also : other ∈ exprRules)
    (same : rule.spec.short = other.spec.short) : rule = other :=
  List.inj_on_of_nodup_map exprRules_shorts_nodup member also same

theorem find?_exprs_of_mem {rule : ExprRule} (member : rule ∈ exprRules) :
    registry.exprs.find? rule.spec.className = some rule := by
  refine RuleTable.find?_ofList_of_mem ?_ member
  exact (List.pairwise_map.mp exprRules_shorts_nodup).imp fun differ same =>
    differ (congrArg ClassName.short same)

theorem className_of_operatorRule : ∀ rule ∈ operatorRules,
    rule.spec.className = .operator rule.spec.short := by
  decide +kernel

theorem operatorRule_ext {rule other : OperatorRule} (member : rule ∈ operatorRules)
    (also : other ∈ operatorRules) (same : rule.spec.className = other.spec.className) :
    rule = other := by
  have found := find?_operators_of_mem member
  rw [same, find?_operators_of_mem also] at found
  exact (Option.some.inj found).symm

/-- The checks of the built-in operator rules. -/
theorem operatorRules_checks :
    operatorRules.map (fun rule => (rule.spec.className, rule.check)) =
      [(.operator "ProjectExec", OperatorCheck.identityProjection),
        (.operator "FilterExec", OperatorCheck.filterCondition),
        (.operator "HashAggregateExec", OperatorCheck.groupingKeys),
        (.operator "SortExec", OperatorCheck.sortKeys),
        (.operator "LocalLimitExec", OperatorCheck.limit),
        (.operator "GlobalLimitExec", OperatorCheck.limit),
        (.operator "UnionExec", OperatorCheck.unionArity),
        (.operator "ShuffleExchangeExec", OperatorCheck.shufflePartitioning),
        (.operator "BroadcastExchangeExec", fun _ => .clear),
        (.operator "ShuffledHashJoinExec", OperatorCheck.hashJoin),
        (.operator "BroadcastHashJoinExec", OperatorCheck.broadcastJoin),
        (.operator "CartesianProductExec", fun _ => .clear),
        (.operator "CoalesceBatchesExec", fun _ => .clear),
        (.operator "FileSourceScanExec", OperatorCheck.fileScan)] :=
  rfl

/-- The class of a rule determines its check. -/
theorem check_of_class {rule : OperatorRule} (member : rule ∈ operatorRules)
    {check : OperatorCheck.Context → Finding}
    (known : (rule.spec.className, check) ∈
      operatorRules.map fun rule => (rule.spec.className, rule.check)) : rule.check = check := by
  obtain ⟨other, also, same⟩ := List.mem_map.mp known
  obtain ⟨sameClass, rfl⟩ := Prod.mk.inj same
  rw [operatorRule_ext member also sameClass.symm]

theorem forall_operator_check (property : (OperatorCheck.Context → Finding) → Prop)
    (clear : property fun _ => .clear)
    (identityProjection : property OperatorCheck.identityProjection)
    (filterCondition : property OperatorCheck.filterCondition)
    (groupingKeys : property OperatorCheck.groupingKeys)
    (sortKeys : property OperatorCheck.sortKeys)
    (limit : property OperatorCheck.limit)
    (unionArity : property OperatorCheck.unionArity)
    (shufflePartitioning : property OperatorCheck.shufflePartitioning)
    (hashJoin : property OperatorCheck.hashJoin)
    (broadcastJoin : property OperatorCheck.broadcastJoin)
    (fileScan : property OperatorCheck.fileScan) :
    ∀ rule ∈ operatorRules, property rule.check := by
  simp only [operatorRules, rowRules, exchangeRules, joinRules, batchRules, List.cons_append,
    List.nil_append, List.forall_mem_cons]
  exact ⟨identityProjection, filterCondition, groupingKeys, sortKeys, limit, limit, unionArity,
    shufflePartitioning, clear, hashJoin, broadcastJoin, clear, clear, fileScan,
    List.forall_mem_nil _⟩

/-- The parameters that converters add. -/
def batchKeys : List String :=
  ["target_batch_bytes", "batch_size_bytes"]

theorem forall_operator_convert
    (property : (HostPlan → Config → List GpuExpr → GpuOperator) → Prop)
    (ofHost : property fun plan _ exprs => .ofHost plan exprs)
    (withBatchSize : ∀ key ∈ batchKeys, property (OperatorCheck.withBatchSize key)) :
    ∀ rule ∈ operatorRules, property rule.convert := by
  simp only [operatorRules, rowRules, exchangeRules, joinRules, batchRules, List.cons_append,
    List.nil_append, List.forall_mem_cons]
  have target := withBatchSize "target_batch_bytes" List.mem_cons_self
  have scanned := withBatchSize "batch_size_bytes" (List.mem_cons_of_mem _ List.mem_cons_self)
  and_intros
  all_goals first | exact ofHost | exact target | exact scanned | exact List.forall_mem_nil _

/-- Every rule but the one for casts copies the host expression. -/
theorem exprRule_convert : ∀ rule ∈ exprRules,
    rule.convert = (fun expr _ children => .ofHost expr children) ∨
      (rule.spec.className = .expression "Cast" ∧ rule.convert = ExprCheck.foldCast) := by
  simp only [exprRules, leafRules, arithmeticRules, predicateRules, conversionRules, textRules,
    mathAndTimeRules, aggregateRules, partitioningRules, List.cons_append, List.nil_append,
    List.forall_mem_cons]
  and_intros
  all_goals first | exact .inl rfl | exact .inr ⟨rfl, rfl⟩ | exact List.forall_mem_nil _

theorem forall_expr_convert (property : (HostExpr → Config → List GpuExpr → GpuExpr) → Prop)
    (ofHost : property fun expr _ children => .ofHost expr children)
    (foldCast : property ExprCheck.foldCast) :
    ∀ rule ∈ exprRules, property rule.convert := by
  intro rule member
  rcases exprRule_convert rule member with copies | ⟨-, folds⟩
  · exact copies ▸ ofHost
  · exact folds ▸ foldCast

theorem forall_expr_check (property : (ExprCheck.Context → Finding) → Prop)
    (clear : property fun _ => .clear)
    (ansiDivision : property ExprCheck.ansiDivision)
    (ansiOverflow : property ExprCheck.ansiOverflow)
    (utcOnly : property ExprCheck.utcOnly)
    (cast : property ExprCheck.cast)
    (aggregateOwner : property ExprCheck.aggregateOwner)
    (summation : property ExprCheck.summation)
    (nanOrder : property ExprCheck.nanOrder)
    (hashableKeys : property ExprCheck.hashableKeys) :
    ∀ rule ∈ exprRules, property rule.check := by
  simp only [exprRules, leafRules, arithmeticRules, predicateRules, conversionRules, textRules,
    mathAndTimeRules, aggregateRules, partitioningRules, List.cons_append, List.nil_append,
    List.forall_mem_cons]
  refine ⟨clear, clear, clear, clear, clear, clear, ansiDivision, ansiDivision, ansiOverflow,
    ansiOverflow, clear, clear, clear, clear, clear, clear, clear, clear, clear, clear, clear,
    clear, cast, clear, clear, clear, clear, clear, utcOnly, clear, clear, aggregateOwner, clear,
    summation, nanOrder, nanOrder, summation, hashableKeys, clear, clear, clear,
    List.forall_mem_nil _⟩

end Builtin

end GpuPlacement
