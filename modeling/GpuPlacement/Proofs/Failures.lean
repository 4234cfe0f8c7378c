import GpuPlacement.Proofs.History
/-!
Failed conversions. Whether it fails or not, a conversion changes nothing in a tree but what the
nodes are remembered to have been converted to. A failure leaves the root of an expression without
a new result, but an operator remembers its replacement before its inputs are converted.
-/
namespace GpuPlacement

variable {registry : Registry} {config : Config}

/-- The decision before any conversion. -/
def Decision.unconverted {Node Op : Type} (decision : Decision Node Op) : Decision Node Op :=
  { decision with converted := none }

namespace ExprDecision

mutual

/-- The tree without the results of conversions: nodes, rules, surroundings, reasons and no-op
flags. -/
def unconverted : ExprDecision → ExprDecision
  | ⟨decision, children⟩ => ⟨decision.unconverted, allUnconverted children⟩

def allUnconverted : List ExprDecision → List ExprDecision
  | [] => []
  | tree :: rest => tree.unconverted :: allUnconverted rest

end

theorem allUnconverted_eq_map (trees : List ExprDecision) :
    allUnconverted trees = trees.map unconverted :=
  eq_map_of_cons rfl (fun _ _ => rfl) trees

theorem unconverted_eq (decision : Decision HostExpr GpuExpr) (children : List ExprDecision) :
    unconverted ⟨decision, children⟩ = ⟨decision.unconverted, children.map unconverted⟩ := by
  rw [unconverted, allUnconverted_eq_map]

theorem convertAll_unconverted {trees : List ExprDecision}
    (each : ∀ tree ∈ trees, (tree.convert registry config).2.unconverted = tree.unconverted) :
    (convertAll registry config trees).2.map unconverted = trees.map unconverted := by
  induction trees with
  | nil => rfl
  | cons tree rest ih =>
      obtain ⟨first, later⟩ := List.forall_mem_cons.mp each
      have others := ih later
      rw [convertAll]
      rcases made : tree.convert registry config with ⟨error | expr, left⟩
      · rw [made] at first
        simp [first]
      · rw [made] at first
        rcases done : convertAll registry config rest with ⟨error | exprs, leftOver⟩
        · rw [done] at others
          simp [first, others]
        · rw [done] at others
          simp [first, others]

theorem convert_unconverted (tree : ExprDecision) :
    (tree.convert registry config).2.unconverted = tree.unconverted := by
  induction tree with
  | node decision children ih =>
      have arguments := convertAll_unconverted ih
      rw [convert]
      cases decision.converted with
      | some done => rfl
      | none =>
          cases decision.ensureEligible with
          | error error => rfl
          | ok rule =>
              dsimp only
              rcases done : convertAll registry config children with ⟨error | exprs, left⟩
              · rw [done] at arguments
                simp [unconverted_eq, arguments]
              · rw [done] at arguments
                dsimp only
                cases combine registry config decision exprs with
                | error error => simp [unconverted_eq, arguments]
                | ok expr => simp [unconverted_eq, arguments, Decision.unconverted]

/-- Only a successful conversion is remembered. -/
theorem converted_of_error {tree : ExprDecision} {error : PlacementError}
    (failed : (tree.convert registry config).1 = .error error) :
    (tree.convert registry config).2.decision.converted = tree.decision.converted := by
  rw [convert_converted, failed]
  exact Option.or_none ..

end ExprDecision

namespace PlanDecision

mutual

def unconverted : PlanDecision → PlanDecision
  | ⟨decision, exprs, children⟩ =>
    ⟨decision.unconverted, exprs.map ExprDecision.unconverted, allUnconverted children⟩

def allUnconverted : List PlanDecision → List PlanDecision
  | [] => []
  | tree :: rest => tree.unconverted :: allUnconverted rest

end

theorem allUnconverted_eq_map (trees : List PlanDecision) :
    allUnconverted trees = trees.map unconverted :=
  eq_map_of_cons rfl (fun _ _ => rfl) trees

theorem unconverted_eq (decision : Decision HostPlan GpuOperator) (exprs : List ExprDecision)
    (children : List PlanDecision) :
    unconverted ⟨decision, exprs, children⟩ =
      ⟨decision.unconverted, exprs.map .unconverted, children.map unconverted⟩ := by
  rw [unconverted, allUnconverted_eq_map]

theorem convertInputs_unconverted {trees : List PlanDecision}
    (each : ∀ tree ∈ trees,
      (tree.convertIfNeeded registry config).2.unconverted = tree.unconverted) :
    (convertInputs registry config trees).2.map unconverted = trees.map unconverted := by
  induction trees with
  | nil => rfl
  | cons tree rest ih =>
      obtain ⟨first, later⟩ := List.forall_mem_cons.mp each
      have others := ih later
      rw [convertInputs_cons]
      rcases made : tree.convertIfNeeded registry config with ⟨error | node, left⟩
      · rw [made] at first
        simp [first]
      · rw [made] at first
        rcases done : convertInputs registry config rest with ⟨error | nodes, leftOver⟩
        · rw [done] at others
          simp [first, others]
        · rw [done] at others
          simp [first, others]

theorem keepOnHost_unconverted {tree : PlanDecision}
    (each : ∀ child ∈ tree.children,
      (child.convertIfNeeded registry config).2.unconverted = child.unconverted) :
    (tree.keepOnHost registry config).2.unconverted = tree.unconverted := by
  obtain ⟨decision, exprs, children⟩ := tree
  have inputs := convertInputs_unconverted each
  rw [keepOnHost]
  rcases done : convertInputs registry config children with ⟨error | nodes, left⟩
  · rw [done] at inputs
    simp [unconverted_eq, inputs]
  · rw [done] at inputs
    simp [unconverted_eq, inputs]

theorem convert_unconverted_of_children {tree : PlanDecision}
    (each : ∀ child ∈ tree.children,
      (child.convertIfNeeded registry config).2.unconverted = child.unconverted) :
    (tree.convert registry config).2.unconverted = tree.unconverted := by
  obtain ⟨decision, exprs, children⟩ := tree
  cases allowed : decision.ensureEligible with
  | error error => simp only [convert, allowed]
  | ok rule =>
      cases leaves : decision.noOp with
      | true =>
          cases children with
          | nil => simp only [convert, allowed, leaves, if_true, convertFirst]
          | cons first rest =>
              rw [convert_elided allowed leaves]
              simp [unconverted_eq, each first List.mem_cons_self]
      | false =>
          have arguments :
              (ExprDecision.convertAll registry config exprs).2.map ExprDecision.unconverted =
                exprs.map ExprDecision.unconverted :=
            ExprDecision.convertAll_unconverted fun expr _ => expr.convert_unconverted
          have inputs := convertInputs_unconverted each
          -- The root may have a replacement even if an input fails, but only that is new.
          rw [convert_replaced allowed leaves]
          rcases done : ExprDecision.convertAll registry config exprs with
            ⟨error | converted, expressions⟩
          · rw [done] at arguments
            simp [unconverted_eq, arguments]
          · rw [done] at arguments
            rcases made : convertInputs registry config children with ⟨error | nodes, left⟩
            · rw [made] at inputs
              simp [unconverted_eq, arguments, inputs, Decision.unconverted, Decision.remember]
            · rw [made] at inputs
              simp [unconverted_eq, arguments, inputs, Decision.unconverted, Decision.remember]

theorem convertIfNeeded_unconverted (tree : PlanDecision) :
    (tree.convertIfNeeded registry config).2.unconverted = tree.unconverted := by
  induction tree with
  | node decision exprs children ih =>
      rw [convertIfNeeded]
      split
      · exact convert_unconverted_of_children ih
      · exact keepOnHost_unconverted ih

theorem convert_unconverted (tree : PlanDecision) :
    (tree.convert registry config).2.unconverted = tree.unconverted :=
  convert_unconverted_of_children fun child _ => child.convertIfNeeded_unconverted

theorem eligible_of_unconverted {tree other : PlanDecision}
    (same : tree.unconverted = other.unconverted) : tree.eligible = other.eligible := by
  obtain ⟨decision, exprs, children⟩ := tree
  obtain ⟨otherDecision, otherExprs, otherChildren⟩ := other
  rw [unconverted_eq, unconverted_eq] at same
  have reasons : decision.reasons = otherDecision.reasons :=
    congrArg (fun tree => tree.decision.reasons) same
  exact congrArg List.isEmpty reasons

/-- What the root's class is converted to, once all the root's expressions are. -/
def replacement? (registry : Registry) (config : Config) (tree : PlanDecision) :
    Option GpuOperator :=
  match tree.decision.ensureEligible, tree.decision.noOp,
    (ExprDecision.convertAll registry config tree.exprs).1 with
  | .ok _, false, .ok exprs => some (convertNode registry config tree.decision.node exprs)
  | _, _, _ => none

theorem replacement?_eq_some_iff {tree : PlanDecision} {operator : GpuOperator} :
    tree.replacement? registry config = some operator ↔
      (∃ rule, tree.decision.ensureEligible = .ok rule) ∧ tree.decision.noOp = false ∧
        ∃ exprs, (ExprDecision.convertAll registry config tree.exprs).1 = .ok exprs ∧
          convertNode registry config tree.decision.node exprs = operator := by
  rw [replacement?]
  cases tree.decision.ensureEligible <;> cases tree.decision.noOp <;>
    cases (ExprDecision.convertAll registry config tree.exprs).1 <;> simp

/-- An operator remembers the first replacement that a conversion makes of it, whatever becomes of
its inputs. -/
theorem convert_converted (tree : PlanDecision) :
    (tree.convert registry config).2.decision.converted =
      tree.decision.converted.or (tree.replacement? registry config) := by
  obtain ⟨decision, exprs, children⟩ := tree
  cases allowed : decision.ensureEligible with
  | error error => simp only [convert, replacement?, allowed, Option.or_none]
  | ok rule =>
      cases leaves : decision.noOp with
      | true =>
          simp only [replacement?, allowed, leaves, Option.or_none]
          cases children with
          | nil => simp only [convert, allowed, leaves, if_true, convertFirst]
          | cons first rest => rw [convert_elided allowed leaves]
      | false =>
          rw [convert_replaced allowed leaves]
          rcases done : ExprDecision.convertAll registry config exprs with
            ⟨error | converted, expressions⟩
          · simp only [replacement?, allowed, leaves, done, Option.or_none]
          · have remembered : some (operatorOf registry config decision converted) =
                decision.converted.or (some (convertNode registry config decision.node converted))
                := by
              rw [operatorOf]
              cases decision.converted <;> rfl
            simp only [replacement?, allowed, leaves, done, ← remembered]
            rcases convertInputs registry config children with ⟨error | nodes, left⟩ <;> rfl

/-- Once there is a replacement for the root, only an input can fail. -/
theorem convert_error_iff {tree : PlanDecision} {error : PlacementError} {operator : GpuOperator}
    (made : tree.replacement? registry config = some operator) :
    (tree.convert registry config).1 = .error error ↔
      (convertInputs registry config tree.children).1 = .error error := by
  obtain ⟨⟨rule, allowed⟩, stays, exprs, done, -⟩ := replacement?_eq_some_iff.mp made
  obtain ⟨decision, expressions, children⟩ := tree
  rw [convert_replaced_fst allowed stays, done]
  cases (convertInputs registry config children).1 with
  | error other => simp [Except.bind, Except.map]
  | ok nodes => simp [Except.bind, Except.map]

end PlanDecision

/-- A conversion that fails leaves all nodes as they were but for what they were converted to, and
an expression also with the result that it had. An operator without a result keeps the replacement
that it was given before one of its inputs failed. -/
theorem convert_failed (registry : Registry) (config : Config) :
    (∀ (tree : ExprDecision) error, (tree.convert registry config).1 = .error error →
      (tree.convert registry config).2.decision.converted = tree.decision.converted ∧
      (tree.convert registry config).2.unconverted = tree.unconverted) ∧
    ∀ (tree : PlanDecision) error, (tree.convert registry config).1 = .error error →
      (tree.convert registry config).2.decision.converted =
        tree.decision.converted.or (tree.replacement? registry config) ∧
      ((tree.replacement? registry config).isSome = true →
        (PlanDecision.convertInputs registry config tree.children).1 = .error error) ∧
      (tree.convert registry config).2.unconverted = tree.unconverted := by
  constructor
  · intro tree error failed
    exact ⟨ExprDecision.converted_of_error failed, tree.convert_unconverted⟩
  · intro tree error failed
    refine ⟨?_, ?_, ?_⟩
    · exact tree.convert_converted
    · intro made
      obtain ⟨operator, replaced⟩ := Option.isSome_iff_exists.mp made
      exact (PlanDecision.convert_error_iff replaced).mp failed
    · exact tree.convert_unconverted

namespace PlanDecision

/-- Before tagging there are no reasons against a plan, but a rule is missed already. -/
theorem ensureEligible_ofPlanBelow (registry : Registry) (parent : Option HostPlan)
    (plan : HostPlan) :
    (ofPlanBelow registry parent plan).decision.ensureEligible =
      (registry.operators.find? plan.className).elim
        (.error (.notConvertible plan.className.short [])) fun rule => .ok rule.spec := by
  rw [ofPlanBelow_eq]
  cases registry.operators.find? plan.className <;> rfl

theorem convertIfNeeded_of_no_rule {parent : Option HostPlan} {plan : HostPlan}
    (missing : registry.operators.find? plan.className = none) :
    ((ofPlanBelow registry parent plan).convertIfNeeded registry config).1 =
      .error (.notConvertible plan.className.short []) := by
  have refused := ensureEligible_ofPlanBelow registry parent plan
  rw [missing] at refused
  rw [ofPlanBelow_eq] at refused ⊢
  rw [convertIfNeeded_of_eligible rfl, convert, refused]
  rfl

end PlanDecision

/-- A union of what the host produces. The range below it has no rule. -/
def unionOverRange : HostPlan :=
  { HostPlan.ofClass "UnionExec" with children := [HostPlan.ofClass "RangeExec"] }

def untaggedUnion : PlanDecision :=
  .ofPlan Builtin.registry unionOverRange

theorem unionOverRange_rule :
    Builtin.registry.operators.find? unionOverRange.className = some Builtin.rowRules[6] := by
  have member : Builtin.rowRules[6] ∈ Builtin.operatorRules := by simp [Builtin.operatorRules]
  have union : Builtin.rowRules[6].spec.className = unionOverRange.className := rfl
  rw [← union]
  exact Builtin.find?_operators_of_mem member

theorem untaggedUnion_fresh : untaggedUnion.decision.converted = none := by
  rw [untaggedUnion, PlanDecision.ofPlan, PlanDecision.ofPlanBelow_eq]
  rfl

theorem untaggedUnion_replaced : ∃ operator,
    untaggedUnion.replacement? Builtin.registry .default = some operator := by
  have allowed : untaggedUnion.decision.ensureEligible = .ok Builtin.rowRules[6].spec := by
    rw [untaggedUnion, PlanDecision.ofPlan, PlanDecision.ensureEligible_ofPlanBelow,
      unionOverRange_rule]
    rfl
  have stays : untaggedUnion.decision.noOp = false := by
    rw [untaggedUnion, PlanDecision.ofPlan, PlanDecision.ofPlanBelow_noOp]
  have exprs : untaggedUnion.exprs = [] := by
    rw [untaggedUnion, PlanDecision.ofPlan, PlanDecision.ofPlanBelow_exprs]
    rfl
  rw [PlanDecision.replacement?, allowed, stays, exprs]
  exact ⟨_, rfl⟩

theorem untaggedUnion_failed : (untaggedUnion.convert Builtin.registry .default).1 =
    .error (.notConvertible "RangeExec" []) := by
  obtain ⟨operator, replaced⟩ := untaggedUnion_replaced
  have missing : Builtin.registry.operators.find? (HostPlan.ofClass "RangeExec").className = none :=
    RuleTable.find?_ofList_eq_none (by decide +kernel)
  rw [PlanDecision.convert_error_iff replaced, untaggedUnion, PlanDecision.ofPlan,
    PlanDecision.ofPlanBelow_children, unionOverRange, List.map_singleton,
    PlanDecision.convertInputs_cons_fst, PlanDecision.convertIfNeeded_of_no_rule missing]
  rfl

/-- A literal with a reason against it, and a union that was never tagged. -/
theorem convert_failed_untaggedUnion :
    let expr := seven.reject "left to the host on request"
    ((expr.convert Builtin.registry .default).1 =
        .error (.notConvertible expr.short ["left to the host on request"]) ∧
      (expr.convert Builtin.registry .default).2.decision.converted = expr.decision.converted ∧
      (expr.convert Builtin.registry .default).2.unconverted = expr.unconverted) ∧
    (untaggedUnion.convert Builtin.registry .default).1 =
        .error (.notConvertible "RangeExec" []) ∧
      (∃ operator, (untaggedUnion.convert Builtin.registry .default).2.decision.converted =
        some operator) ∧
      (untaggedUnion.convert Builtin.registry .default).2.unconverted =
        untaggedUnion.unconverted := by
  intro expr
  obtain ⟨exprs, plans⟩ := convert_failed Builtin.registry .default
  have rejected : (expr.convert Builtin.registry .default).1 =
      .error (.notConvertible expr.short ["left to the host on request"]) :=
    congrArg Prod.fst (ExprDecision.convert_of_rejected rfl (List.cons_ne_nil _ _))
  obtain ⟨operator, replaced⟩ := untaggedUnion_replaced
  obtain ⟨remembered, -, kept⟩ := plans untaggedUnion _ untaggedUnion_failed
  rw [untaggedUnion_fresh, replaced, Option.none_or] at remembered
  exact ⟨⟨rejected, exprs expr _ rejected⟩, untaggedUnion_failed, ⟨operator, remembered⟩, kept⟩

/-- A plan that was never tagged remembers a replacement although its input fails. -/
theorem not_forall_convert_failed_keeps :
    ¬∀ registry parent plan steps config error,
      let tree := (PlanDecision.ofPlanBelow registry parent plan).run registry steps
      (tree.convert registry config).1 = .error error →
        (tree.convert registry config).2.decision.converted = tree.decision.converted := by
  intro always
  obtain ⟨operator, replaced⟩ := untaggedUnion_replaced
  have keeps := always Builtin.registry none unionOverRange [] .default
    (.notConvertible "RangeExec" [])
  rw [PlanDecision.run, List.foldl_nil, ← PlanDecision.ofPlan, ← untaggedUnion] at keeps
  have kept := keeps untaggedUnion_failed
  rw [PlanDecision.convert_converted, untaggedUnion_fresh, replaced] at kept
  cases kept

end GpuPlacement
