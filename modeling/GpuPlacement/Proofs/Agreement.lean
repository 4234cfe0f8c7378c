import GpuPlacement.Proofs.Origin
import GpuPlacement.Proofs.Reconversion
/-!
Settings that agree in all that converters read. Only under such settings a conversion after others
gives what it would give on a fresh tree.
-/
namespace GpuPlacement

/-- Of all settings the built-in converters of expressions read the ANSI mode only. -/
theorem Builtin.exprConvert_congr {config other : Config}
    (mode : config.ansiEnabled = other.ansiEnabled) :
    ∀ rule ∈ exprRules, ∀ expr children,
      rule.convert expr config children = rule.convert expr other children := by
  apply forall_expr_convert fun convert =>
    ∀ expr children, convert expr config children = convert expr other children
  case ofHost => exact fun expr children => rfl
  case foldCast =>
    intro expr children
    rw [ExprCheck.foldCast, ExprCheck.foldCast, mode]

/-- Of all settings the built-in converters of operators read the batch size only. -/
theorem Builtin.operatorConvert_congr {config other : Config}
    (size : config.batchSizeBytes = other.batchSizeBytes) :
    ∀ rule ∈ operatorRules, ∀ plan exprs,
      rule.convert plan config exprs = rule.convert plan other exprs := by
  apply forall_operator_convert fun convert =>
    ∀ plan exprs, convert plan config exprs = convert plan other exprs
  case ofHost => exact fun plan exprs => rfl
  case withBatchSize =>
    intro key _ plan exprs
    rw [OperatorCheck.withBatchSize, OperatorCheck.withBatchSize, size]

namespace ExprDecision

variable {config other : Config}

theorem convertAll_congr {registry : Registry} {trees : List ExprDecision}
    (each : ∀ tree ∈ trees, tree.convert registry config = tree.convert registry other) :
    convertAll registry config trees = convertAll registry other trees := by
  induction trees with
  | nil => rfl
  | cons tree rest ih =>
      obtain ⟨first, later⟩ := List.forall_mem_cons.mp each
      rw [convertAll, convertAll, first, ih later]

theorem combine_congr (mode : config.ansiEnabled = other.ansiEnabled)
    (decision : Decision HostExpr GpuExpr) (arguments : List GpuExpr) :
    combine Builtin.registry config decision arguments =
      combine Builtin.registry other decision arguments := by
  have node : convertNode Builtin.registry config decision.node arguments =
      convertNode Builtin.registry other decision.node arguments := by
    rw [convertNode, convertNode]
    cases found : Builtin.registry.exprs.find? decision.node.className with
    | none => rfl
    | some rule =>
        exact Builtin.exprConvert_congr mode rule (Builtin.mem_of_find?_exprs found) _ _
  unfold combine
  rw [node]

theorem convert_congr (mode : config.ansiEnabled = other.ansiEnabled) (tree : ExprDecision) :
    tree.convert Builtin.registry config = tree.convert Builtin.registry other := by
  induction tree with
  | node decision children ih =>
      rw [convert, convert, convertAll_congr ih]
      simp only [combine_congr mode]

end ExprDecision

namespace PlanDecision

variable {config other : Config}

theorem convertInputs_congr {registry : Registry} {trees : List PlanDecision}
    (each : ∀ tree ∈ trees,
      tree.convertIfNeeded registry config = tree.convertIfNeeded registry other) :
    convertInputs registry config trees = convertInputs registry other trees := by
  induction trees with
  | nil => rfl
  | cons tree rest ih =>
      obtain ⟨first, later⟩ := List.forall_mem_cons.mp each
      rw [convertInputs_cons, convertInputs_cons, first, ih later]

theorem operatorOf_congr (size : config.batchSizeBytes = other.batchSizeBytes)
    (decision : Decision HostPlan GpuOperator) (exprs : List GpuExpr) :
    operatorOf Builtin.registry config decision exprs =
      operatorOf Builtin.registry other decision exprs := by
  have node : convertNode Builtin.registry config decision.node exprs =
      convertNode Builtin.registry other decision.node exprs := by
    rw [convertNode, convertNode]
    cases found : Builtin.registry.operators.find? decision.node.className with
    | none => rfl
    | some rule =>
        exact Builtin.operatorConvert_congr size rule (Builtin.mem_of_find?_operators found) _ _
  rw [operatorOf, operatorOf, node]

theorem convertIfNeeded_congr (mode : config.ansiEnabled = other.ansiEnabled)
    (size : config.batchSizeBytes = other.batchSizeBytes) (tree : PlanDecision) :
    tree.convertIfNeeded Builtin.registry config = tree.convertIfNeeded Builtin.registry other := by
  induction tree with
  | node decision exprs children ih =>
      have inputs := convertInputs_congr ih
      cases eligible : decision.eligible with
      | false =>
          rw [convertIfNeeded_of_ineligible eligible, convertIfNeeded_of_ineligible eligible,
            keepOnHost, keepOnHost, inputs]
      | true =>
          rw [convertIfNeeded_of_eligible eligible, convertIfNeeded_of_eligible eligible]
          cases allowed : decision.ensureEligible with
          | error error => rw [convert, convert, allowed]
          | ok rule =>
              cases leaves : decision.noOp with
              | true =>
                  cases children with
                  | nil => simp only [convert, allowed, leaves, if_true, convertFirst]
                  | cons first rest =>
                      rw [convert_elided allowed leaves, convert_elided allowed leaves,
                        ih first List.mem_cons_self]
              | false =>
                  have arguments := ExprDecision.convertAll_congr
                    fun expr (_ : expr ∈ exprs) => expr.convert_congr mode
                  rw [convert_replaced allowed leaves, convert_replaced allowed leaves, arguments,
                    inputs, size]
                  simp only [operatorOf_congr size]

theorem request_congr (mode : config.ansiEnabled = other.ansiEnabled)
    (size : config.batchSizeBytes = other.batchSizeBytes) (tree : PlanDecision) (mayStay : Bool) :
    tree.request Builtin.registry ⟨config, mayStay⟩ =
      tree.request Builtin.registry ⟨other, mayStay⟩ := by
  cases effective : tree.eligible || mayStay with
  | true =>
      rw [request_eq tree config mayStay effective, request_eq tree other mayStay effective,
        convertIfNeeded_congr mode size]
  | false => rw [request_refused effective, request_refused effective]

end PlanDecision

/-- A conversion after others gives what the same conversion gives on a fresh tree under the
settings of the first one that got past the root, but its transitions get its own target size. That
is its own result on a fresh tree when both agree in all that converters read. -/
theorem conversion_after_conversions :
    (∀ (tree : ExprDecision) (history : List Config) (last : Config),
      let first := history.headD last
      let result := ((tree.run Builtin.registry (history.map .convert)).convert Builtin.registry
        last).1
      result = (tree.convert Builtin.registry first).1 ∧
        (first.ansiEnabled = last.ansiEnabled →
          result = (tree.convert Builtin.registry last).1)) ∧
    ∀ (tree : PlanDecision) (history : List PlanRequest) (last : PlanRequest),
      let first :=
        ((history.find? fun request => tree.eligible || request.mayStay).getD last).config
      let result := ((tree.run Builtin.registry (history.map .convert)).request Builtin.registry
        last).1
      result = (tree.request Builtin.registry ⟨first, last.mayStay⟩).1.map
          (.retarget last.config.batchSizeBytes) ∧
        (first.ansiEnabled = last.config.ansiEnabled →
          first.batchSizeBytes = last.config.batchSizeBytes →
          result = (tree.request Builtin.registry last).1) := by
  constructor
  · intro tree history last first result
    have known : result = (tree.convert Builtin.registry first).1 :=
      congrArg Prod.fst (tree.convert_after history last)
    exact ⟨known, fun mode => known.trans (congrArg Prod.fst (tree.convert_congr mode))⟩
  · intro tree history last first result
    have known : result = (tree.request Builtin.registry ⟨first, last.mayStay⟩).1.map
        (.retarget last.config.batchSizeBytes) := tree.request_after history last
    refine ⟨known, fun mode size => ?_⟩
    rw [known, tree.request_congr mode size]
    exact tree.request_retarget last

namespace ExprDecision

theorem convertNode_of_mem {rule : ExprRule} (member : rule ∈ Builtin.exprRules) {expr : HostExpr}
    (same : rule.spec.className = expr.className) (config : Config) (arguments : List GpuExpr) :
    convertNode Builtin.registry config expr arguments = rule.convert expr config arguments := by
  rw [convertNode, ← same, Builtin.find?_exprs_of_mem member]

/-- A supported expression that is not left out is converted with its arguments. -/
theorem convert_tag_of_stays {kind : RuleKind} {parent : Option HostExpr} {owner : Option HostPlan}
    {expr : HostExpr} {settings config : Config} {tree : ExprDecision} {arguments : List GpuExpr}
    (tagged : tree = (ofExprAt Builtin.registry kind parent owner expr).tag Builtin.registry
      settings) (h : tree.eligible = true ∧ tree.decision.noOp = false)
    (below : (convertAll Builtin.registry config tree.children).1 = .ok arguments) :
    (tree.convert Builtin.registry config).1 =
      .ok (convertNode Builtin.registry config expr arguments) := by
  have ready : tree.Ready := tagged ▸ ready_tag_ofExprAt
  have node : tree.decision.node = expr := by rw [tagged, tag_node, ofExprAt_node]
  obtain ⟨decision, children⟩ := tree
  obtain ⟨eligible, stays⟩ := h
  obtain ⟨rule, found⟩ := ready.rule eligible
  rw [convert_fst ready.converted (Decision.ensureEligible_eq_ok found eligible), below, ← node]
  exact if_neg (stays ▸ Bool.false_ne_true)

end ExprDecision

/-- A number, cast to a type that does not hold it. -/
def wideCast : HostExpr :=
  HostExpr.cast (.literal (.int 300)) .byte

def wideCastTree : ExprDecision :=
  (ExprDecision.ofExprAt Builtin.registry .expression none none wideCast).tag Builtin.registry
    .default

def wideNumberTree : ExprDecision :=
  (ExprDecision.ofExprAt Builtin.registry .expression (some wideCast) none
    (.literal (.int 300))).tag Builtin.registry .default

theorem wideNumberTree_stays :
    wideNumberTree.eligible = true ∧ wideNumberTree.decision.noOp = false :=
  ExprDecision.tag_of_rule (ExprDecision.ofExprAt_reasons ..) rfl (List.forall_mem_nil _)
    (by decide +kernel)

theorem wideCastTree_stays :
    wideCastTree.eligible = true ∧ wideCastTree.decision.noOp = false :=
  ExprDecision.tag_of_rule (ExprDecision.ofExprAt_reasons ..) rfl
    (List.forall_mem_singleton.mpr wideNumberTree_stays.1) (by decide +kernel)

theorem wideNumberTree_convert (config : Config) :
    (wideNumberTree.convert Builtin.registry config).1 =
      .ok (.ofHost (.literal (.int 300)) []) := by
  have isLiteral : Builtin.leafRules[0] ∈ Builtin.exprRules := by simp [Builtin.exprRules]
  refine (ExprDecision.convert_tag_of_stays rfl wideNumberTree_stays rfl).trans ?_
  exact congrArg Except.ok (ExprDecision.convertNode_of_mem isLiteral rfl config [])

theorem wideCastTree_convert (config : Config) :
    (wideCastTree.convert Builtin.registry config).1 =
      .ok (ExprCheck.foldCast wideCast config [.ofHost (.literal (.int 300)) []]) := by
  have isCast : Builtin.conversionRules[2] ∈ Builtin.exprRules := by simp [Builtin.exprRules]
  have argument : (ExprDecision.convertAll Builtin.registry config wideCastTree.children).1 =
      .ok [.ofHost (.literal (.int 300)) []] :=
    ExprDecision.convertAll_ok_iff.mpr (congrArg (fun result => [result])
      (wideNumberTree_convert config))
  refine (ExprDecision.convert_tag_of_stays rfl wideCastTree_stays argument).trans ?_
  exact congrArg Except.ok (ExprDecision.convertNode_of_mem isCast rfl config _)

/-- The default settings but for one that no converter reads. -/
def withoutNaNs : Config :=
  { Config.default with hasNaNs := false }

/-- A union on the device over a range that stays on the host. -/
def unionTree : PlanDecision :=
  tagPlan Builtin.registry .default unionOverRange

theorem unionTree_stays :
    unionTree.eligible = true ∧ unionTree.decision.noOp = false :=
  tagPlan_of_rule (List.forall_mem_nil _) (by decide +kernel)

theorem unionTree_convert : ∃ operator inputs range,
    (unionTree.convertIfNeeded Builtin.registry .default).1 = .ok ⟨.gpu operator, inputs⟩ ∧
      ⟨.rowToColumnar Config.default.batchSizeBytes, [range]⟩ ∈ inputs := by
  have ready : unionTree.AllReady .default := tagPlan_allReady .default unionOverRange
  obtain ⟨node, placed⟩ := ready.exists_placedAs
  obtain ⟨operator, inputs, rfl, sent⟩ :=
    placed.sent_root ready unionTree_stays.1 unionTree_stays.2
  obtain ⟨below, loaded⟩ := sent.unruledInput List.mem_cons_self
    (RuleTable.find?_ofList_eq_none (by decide +kernel))
  exact ⟨operator, inputs, _, PlanDecision.convertIfNeeded_ok_iff.mpr placed, loaded⟩

/-- A cast that the first conversion folds, and a union that the first conversion takes to the
device, with a transition below it. -/
theorem conversion_after_conversions_withoutNaNs :
    (withoutNaNs.ansiEnabled = Config.default.ansiEnabled ∧
      ((wideCastTree.run Builtin.registry ([withoutNaNs].map .convert)).convert Builtin.registry
          .default).1 = (wideCastTree.convert Builtin.registry .default).1) ∧
    withoutNaNs.batchSizeBytes = Config.default.batchSizeBytes ∧
      ∃ operator inputs range,
        ((unionTree.run Builtin.registry ([⟨withoutNaNs, false⟩].map .convert)).request
          Builtin.registry ⟨.default, true⟩).1 = .ok ⟨.gpu operator, inputs⟩ ∧
        (unionTree.request Builtin.registry ⟨.default, true⟩).1 = .ok ⟨.gpu operator, inputs⟩ ∧
        ⟨.rowToColumnar Config.default.batchSizeBytes, [range]⟩ ∈ inputs := by
  obtain ⟨exprs, plans⟩ := conversion_after_conversions
  have cast := (exprs wideCastTree [withoutNaNs] .default).2 rfl
  have known := (plans unionTree [⟨withoutNaNs, false⟩] ⟨.default, true⟩).2
  rw [List.find?_cons, unionTree_stays.1] at known
  obtain ⟨operator, inputs, range, converted, loaded⟩ := unionTree_convert
  have again := (known rfl rfl).trans converted
  exact ⟨⟨rfl, cast⟩, rfl, operator, inputs, range, again, converted, loaded⟩

def withAnsi : Config :=
  { Config.default with ansiEnabled := true }

/-- After the cast became a literal, ANSI mode no longer brings it back. -/
theorem not_forall_conversion_fresh :
    ¬ ∀ (expr : HostExpr) (settings : Config) (history : List Config) (last : Config),
      let tree := (ExprDecision.ofExprAt Builtin.registry .expression none none expr).tag
        Builtin.registry settings
      ((tree.run Builtin.registry (history.map .convert)).convert Builtin.registry last).1 =
        (tree.convert Builtin.registry last).1 := by
  intro always
  have same := always wideCast .default [.default] withAnsi
  rw [← wideCastTree] at same
  dsimp only at same
  -- The first conversion folds the number to a byte, a fresh one keeps the checked cast.
  rw [ExprDecision.convert_after, wideCastTree_convert, wideCastTree_convert] at same
  have names := congrArg GpuExpr.name (Except.ok.inj same)
  exact absurd names (by decide +kernel)

end GpuPlacement
