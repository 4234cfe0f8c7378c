import GpuPlacement.Proofs.Builtin
import GpuPlacement.Proofs.Dictionary
import GpuPlacement.Registry.Parity
/-!
The parity table holds of every node. A node of a row's class with exactly the row's parameters,
whatever their values, is converted to the row's replacement with exactly the replacement's
parameters, and keeps the values of its own. Sample nodes are such nodes, so no row of the table
mismatches under any settings.
-/
namespace GpuPlacement

/-- An expression has parameters of just these names; its own name counts as `name`, and then no
parameter is called so. -/
structure HostExpr.HasExactly (expr : HostExpr) (names : List String) : Prop where
  mem_iff : ∀ key, key ∈ names ↔
    expr.params.contains key = true ∨ (key = "name" ∧ expr.name.isSome = true)
  own_name : expr.name.isSome = true → expr.params.contains "name" = false

/-- An operator has parameters of just these names. -/
def HostPlan.HasExactly (plan : HostPlan) (names : List String) : Prop :=
  ∀ key, key ∈ names ↔ plan.params.contains key = true

/-- The parameters of a replacement have just these names, and those of the host node keep their
values. -/
structure Params.Carries (params : Params) (names : List String) (host : Params) : Prop where
  keys : params.keys = names
  kept : ∀ key value, host.get? key = some value → params.get? key = some value

namespace Params

variable {host : Params} {names : List String}

theorem carries_self (increasing : names.Pairwise (· < ·))
    (listed : ∀ key, key ∈ names ↔ host.contains key = true) : Carries host names host :=
  ⟨Dict.keys_eq_of_mem_iff increasing listed, fun _ _ => id⟩

/-- A parameter of a new name leaves the others as they are. -/
theorem carries_insert {added : String} (value : ParamValue) (increasing : names.Pairwise (· < ·))
    (listed : ∀ key, key ∈ names ↔ key = added ∨ host.contains key = true)
    (fresh : host.contains added = false) : Carries (host.insert added value) names host where
  keys := by
    refine Dict.keys_eq_of_mem_iff increasing fun key => ?_
    rw [listed, Dict.contains_insert]
  kept := by
    intro key held given
    have differs : key ≠ added := by
      rintro rfl
      rw [Dict.contains, given] at fresh
      cases fresh
    rw [Dict.get?_insert, if_neg differs, given]

end Params

namespace ParamParity

/-- What a row promises of a registry's converters: the class of the row has a rule, and all nodes
of the class with the row's parameters become what the row says. -/
def Holds (row : ParamParity) (registry : Registry) (config : Config) : Prop :=
  match row.kind with
  | .expression | .partitioning =>
    ∃ rule, registry.exprs.find? (.expression row.host) = some rule ∧
      ∀ (expr : HostExpr) (children : List GpuExpr), expr.className = .expression row.host →
        expr.HasExactly row.hostParams →
          (rule.convert expr config children).name = row.gpu ∧
          (rule.convert expr config children).params.Carries row.gpuParams expr.params ∧
          ∀ name, expr.name = some name →
            (rule.convert expr config children).params.get? "name" = some (.text name)
  | .operator | .scan =>
    ∃ rule, registry.operators.find? (.operator row.host) = some rule ∧
      ∀ (plan : HostPlan) (exprs : List GpuExpr), plan.className = .operator row.host →
        plan.HasExactly row.hostParams →
          (rule.convert plan config exprs).name = row.gpu ∧
          (rule.convert plan config exprs).params.Carries row.gpuParams plan.params

end ParamParity

namespace Builtin

/-- The parameter that the converter of a class adds to those of the host node. -/
def addedKey? (className : ClassName) : Option String :=
  if className = .operator "CoalesceBatchesExec" then some "target_batch_bytes"
  else if className = .operator "FileSourceScanExec" then some "batch_size_bytes"
  else none

/-- Every operator rule copies the host operator, but for the parameter that it adds. -/
theorem operatorRule_convert : ∀ rule ∈ operatorRules,
    rule.convert = match addedKey? rule.spec.className with
      | none => fun plan _ exprs => .ofHost plan exprs
      | some key => OperatorCheck.withBatchSize key := by
  simp only [operatorRules, rowRules, exchangeRules, joinRules, batchRules, List.cons_append,
    List.nil_append, List.forall_mem_cons]
  and_intros
  all_goals first | exact List.forall_mem_nil _ | rfl

theorem operatorRule_params {rule : OperatorRule} (member : rule ∈ operatorRules) (plan : HostPlan)
    (config : Config) (exprs : List GpuExpr) :
    (rule.convert plan config exprs).name = plan.className.gpuName ∧
      ∃ value, (rule.convert plan config exprs).params =
        match addedKey? rule.spec.className with
        | none => plan.params
        | some key => plan.params.insert key value := by
  rw [operatorRule_convert rule member]
  cases addedKey? rule.spec.className with
  | none => exact ⟨rfl, .bool false, rfl⟩
  | some key => exact ⟨rfl, _, rfl⟩

end Builtin

namespace ParamParity

/-- What rows about expressions declare: a rule that copies its node. -/
theorem declared_exprs : ∀ row ∈ table, row.kind = .expression ∨ row.kind = .partitioning →
    (∃ rule ∈ Builtin.exprRules, rule.spec.className = .expression row.host) ∧
      ClassName.expression row.host ≠ .expression "Cast" ∧
      (ClassName.expression row.host).gpuName = row.gpu ∧ row.gpuParams = row.hostParams ∧
      row.gpuParams.Pairwise (· < ·) := by
  decide +kernel

/-- What rows about operators declare: a rule that adds a parameter of a new name or none. -/
theorem declared_operators : ∀ row ∈ table, row.kind = .operator ∨ row.kind = .scan →
    (∃ rule ∈ Builtin.operatorRules, rule.spec.className = .operator row.host) ∧
      (ClassName.operator row.host).gpuName = row.gpu ∧
      row.gpuParams.Perm
        ((Builtin.addedKey? (.operator row.host)).toList ++ row.hostParams) ∧
      (∀ added ∈ Builtin.addedKey? (.operator row.host), added ∉ row.hostParams) ∧
      row.gpuParams.Pairwise (· < ·) := by
  decide +kernel

/-- A copied expression has its parameters, and its name as one of them. -/
theorem carries_ofHost {expr : HostExpr} {names : List String} (exactly : expr.HasExactly names)
    (increasing : names.Pairwise (· < ·)) (children : List GpuExpr) :
    (GpuExpr.ofHost expr children).params.Carries names expr.params ∧
      ∀ name, expr.name = some name →
        (GpuExpr.ofHost expr children).params.get? "name" = some (.text name) := by
  obtain ⟨listed, own⟩ := exactly
  unfold GpuExpr.ofHost
  cases named : expr.name with
  | none =>
      refine ⟨Params.carries_self increasing fun key => ?_, nofun⟩
      simpa [named] using listed key
  | some name =>
      refine ⟨Params.carries_insert _ increasing (fun key => ?_) (own (named ▸ rfl)), ?_⟩
      · simpa [named, or_comm] using listed key
      · rintro _ ⟨⟩
        exact (Dict.get?_insert ..).trans (if_pos rfl)

theorem holds_expr {row : ParamParity} (member : row ∈ table)
    (kind : row.kind = .expression ∨ row.kind = .partitioning) (config : Config) :
    row.Holds Builtin.registry config := by
  obtain ⟨⟨rule, known, ofClass⟩, noCast, gpuName, sameNames, increasing⟩ :=
    declared_exprs row member kind
  have found := ofClass ▸ Builtin.find?_exprs_of_mem known
  have copies : rule.convert = fun expr _ children => .ofHost expr children := by
    refine (Builtin.exprRule_convert rule known).resolve_right ?_
    rintro ⟨cast, -⟩
    exact noCast (ofClass ▸ cast)
  have each : ∀ (expr : HostExpr) (children : List GpuExpr),
      expr.className = .expression row.host → expr.HasExactly row.hostParams →
        (rule.convert expr config children).name = row.gpu ∧
        (rule.convert expr config children).params.Carries row.gpuParams expr.params ∧
        ∀ name, expr.name = some name →
          (rule.convert expr config children).params.get? "name" = some (.text name) := by
    intro expr children sameClass exactly
    rw [copies]
    refine ⟨?_, carries_ofHost (sameNames ▸ exactly) increasing children⟩
    rw [← gpuName, ← sameClass]
    rfl
  rcases kind with kind | kind <;> rw [Holds, kind] <;> exact ⟨rule, found, each⟩

theorem holds_operator {row : ParamParity} (member : row ∈ table)
    (kind : row.kind = .operator ∨ row.kind = .scan) (config : Config) :
    row.Holds Builtin.registry config := by
  obtain ⟨⟨rule, known, ofClass⟩, gpuName, names, fresh, increasing⟩ :=
    declared_operators row member kind
  have found := ofClass ▸ Builtin.find?_operators_of_mem known
  have each : ∀ (plan : HostPlan) (exprs : List GpuExpr), plan.className = .operator row.host →
      plan.HasExactly row.hostParams →
        (rule.convert plan config exprs).name = row.gpu ∧
        (rule.convert plan config exprs).params.Carries row.gpuParams plan.params := by
    intro plan exprs sameClass exactly
    obtain ⟨name, value, params⟩ := Builtin.operatorRule_params known plan config exprs
    refine ⟨by rw [name, sameClass, gpuName], ?_⟩
    rw [params, ofClass]
    cases adds : Builtin.addedKey? (.operator row.host) with
    | none =>
        rw [adds] at names
        exact Params.carries_self increasing fun key => names.mem_iff.trans (exactly key)
    | some added =>
        rw [adds] at names
        refine Params.carries_insert value increasing (fun key => ?_) ?_
        · rw [names.mem_iff, ← exactly key]
          exact List.mem_cons
        · rw [← Bool.not_eq_true, ← exactly added]
          exact fresh added adds
  rcases kind with kind | kind <;> rw [Holds, kind] <;> exact ⟨rule, found, each⟩

/-- An expression with one more sample parameter. -/
def addSample (expr : HostExpr) (param : String) : HostExpr :=
  if param = "name" then { expr with name := some "c" }
  else expr.withParam param (sampleValue param)

/-- A sample of a class with some parameters: a parameter `name` is always its own name. -/
structure Sampled (host : String) (names : List String) (expr : HostExpr) : Prop where
  ofClass : expr.className = .expression host
  mem_iff : ∀ key, key ∈ names ↔
    expr.params.contains key = true ∨ (key = "name" ∧ expr.name.isSome = true)
  unnamed : expr.params.contains "name" = false

theorem Sampled.hasExactly {host : String} {names : List String} {expr : HostExpr}
    (sampled : Sampled host names expr) : expr.HasExactly names :=
  ⟨sampled.mem_iff, fun _ => sampled.unnamed⟩

theorem Sampled.addSample {host : String} {names : List String} {expr : HostExpr}
    (sampled : Sampled host names expr) (param : String) :
    Sampled host (names ++ [param]) (addSample expr param) := by
  obtain ⟨ofClass, listed, unnamed⟩ := sampled
  unfold ParamParity.addSample
  split
  next isName =>
    refine ⟨ofClass, fun key => ?_, unnamed⟩
    rw [List.mem_append, listed key, List.mem_singleton, isName]
    simp only [Option.isSome_some]
    tauto
  next other =>
    unfold HostExpr.withParam
    refine ⟨ofClass, fun key => ?_, ?_⟩
    · rw [List.mem_append, listed key, List.mem_singleton, Dict.contains_insert]
      tauto
    · rw [← Bool.not_eq_true, Dict.contains_insert, unnamed]
      simpa using Ne.symm other

theorem sampled_foldl {host : String} {names : List String} {expr : HostExpr}
    (sampled : Sampled host names expr) (params : List String) :
    Sampled host (names ++ params) (params.foldl addSample expr) := by
  induction params generalizing names expr with
  | nil => rwa [List.foldl_nil, List.append_nil]
  | cons param rest ih =>
      rw [List.foldl_cons, List.append_cons]
      exact ih (sampled.addSample param)

theorem sampled_sampleExpr (host : String) (params : List String) :
    Sampled host params (sampleExpr host params) := by
  have start : Sampled host [] (.call host .int []) :=
    ⟨rfl, fun key => by simp [HostExpr.call, Dict.contains], rfl⟩
  exact sampled_foldl start params

theorem samplePlan_foldl {plan : HostPlan} {names : List String} (exactly : plan.HasExactly names)
    (params : List String) :
    let sample := params.foldl (fun plan param => plan.withParam param (sampleValue param)) plan
    sample.className = plan.className ∧ sample.HasExactly (names ++ params) := by
  induction params generalizing names plan with
  | nil => exact ⟨rfl, by rwa [List.append_nil]⟩
  | cons param rest ih =>
      have next : (plan.withParam param (sampleValue param)).HasExactly (names ++ [param]) := by
        intro key
        rw [HostPlan.withParam, Dict.contains_insert, List.mem_append, exactly key,
          List.mem_singleton, or_comm]
      rw [List.append_cons]
      exact ih next

theorem samplePlan_hasExactly (host : String) (params : List String) :
    (samplePlan host params).className = .operator host ∧
      (samplePlan host params).HasExactly params := by
  have start : (HostPlan.ofClass host).HasExactly [] :=
    fun key => by simp [HostPlan.ofClass, Dict.contains]
  exact samplePlan_foldl start params

/-- What holds of all nodes holds of the sample node. -/
theorem convertSample?_eq {row : ParamParity} {registry : Registry} {config : Config}
    (holds : row.Holds registry config) :
    row.convertSample? registry config = some (row.gpu, row.gpuParams) := by
  revert holds
  unfold Holds convertSample?
  cases row.kind
  case expression | partitioning =>
    rintro ⟨rule, found, each⟩
    have sampled := sampled_sampleExpr row.host row.hostParams
    obtain ⟨name, ⟨keys, -⟩, -⟩ := each _ [] sampled.ofClass sampled.hasExactly
    simp only [found, Option.map_some, name, keys]
  case operator | scan =>
    rintro ⟨rule, found, each⟩
    obtain ⟨ofClass, exactly⟩ := samplePlan_hasExactly row.host row.hostParams
    obtain ⟨name, keys, -⟩ := each _ [] ofClass exactly
    simp only [found, Option.map_some, name, keys]

theorem mismatch?_eq_none {row : ParamParity} {registry : Registry} {config : Config}
    (holds : row.Holds registry config) : row.mismatch? registry config = none := by
  rw [mismatch?, convertSample?_eq holds]
  simp

end ParamParity

/-- Under any settings every row of the parity table holds of the built-in registry, for all nodes
of the row's class with the row's parameters, and so the check of sample nodes reports nothing. -/
theorem parity_holds (config : Config) :
    (∀ row ∈ ParamParity.table, row.Holds Builtin.registry config) ∧
      Builtin.registry.parityMismatches config = [] := by
  have holds : ∀ row ∈ ParamParity.table, row.Holds Builtin.registry config := by
    intro row member
    cases kind : row.kind with
    | expression => exact ParamParity.holds_expr member (.inl kind) config
    | partitioning => exact ParamParity.holds_expr member (.inr kind) config
    | operator => exact ParamParity.holds_operator member (.inl kind) config
    | scan => exact ParamParity.holds_operator member (.inr kind) config
  refine ⟨holds, List.filterMap_eq_nil_iff.mpr fun row member => ?_⟩
  exact ParamParity.mismatch?_eq_none (holds row member)

end GpuPlacement
