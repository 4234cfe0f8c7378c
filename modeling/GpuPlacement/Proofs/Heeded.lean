import GpuPlacement.Proofs.Advice
import GpuPlacement.Proofs.Relaxation
import GpuPlacement.Proofs.Signatures
import GpuPlacement.Proofs.TestMode
/-!
Followed remedies. A reason names a remedy only while the remedy is not in force, so whoever follows
it gets rid of the reason everywhere in the plan, and no eligible node becomes ineligible.
-/
namespace GpuPlacement

/-- A reason that asks for nothing that the settings already say. -/
def Open (settings : Settings) (reason : String) : Prop :=
  ∀ key value, Advises reason key value → settings.get? key ≠ some value

variable {settings : Settings} {config : Config}

theorem open_of_plain {reason : String} (h : Plain reason) : Open settings reason :=
  fun _ _ advises => absurd h advises.not_plain

theorem open_of_advises {reason key value : String} (advises : Advises reason key value)
    (unset : settings.get? key ≠ some value) : Open settings reason := by
  intro other otherValue also
  obtain ⟨rfl, rfl⟩ := advises.unique also
  exact unset

def OpenAll (settings : Settings) (reasons : List String) : Prop :=
  ∀ reason ∈ reasons, Open settings reason

namespace OpenAll

theorem nil : OpenAll settings [] := List.forall_mem_nil _

theorem append {reasons others : List String} (h : OpenAll settings reasons)
    (other : OpenAll settings others) : OpenAll settings (reasons ++ others) :=
  List.forall_mem_append.mpr ⟨h, other⟩

theorem plain {reason : String} (h : Plain reason) : OpenAll settings [reason] :=
  List.forall_mem_singleton.mpr (open_of_plain h)

theorem map {α : Type} {items : List α} {text : α → String} (h : ∀ item, Plain (text item)) :
    OpenAll settings (items.map text) :=
  List.forall_mem_map.mpr fun item _ => open_of_plain (h item)

theorem reasonIf {condition : Bool} {reason : String}
    (h : condition = true → Open settings reason) :
    OpenAll settings (Finding.reasonIf condition reason) := by
  cases condition with
  | false => exact nil
  | true => exact List.forall_mem_singleton.mpr (h rfl)

theorem reasonIf_plain {condition : Bool} {reason : String} (h : Plain reason) :
    OpenAll settings (Finding.reasonIf condition reason) :=
  reasonIf fun _ => open_of_plain h

theorem ofReasons {reasons : List String} (h : OpenAll settings reasons) :
    OpenAll settings (Finding.ofReasons reasons).reasons := h

end OpenAll

/-- A switch that differs from what a remedy asks for is not set that way. -/
theorem Entry.get?_ne_of_resolve {entry : Entry Bool} {flag asked : Bool} {raw : String}
    (resolved : entry.resolve settings = .ok flag) (read : parseBool raw = some asked)
    (differ : flag ≠ asked) : settings.get? entry.key ≠ some raw := by
  intro found
  have parsed : parseBool raw = some flag := entry.parse_of_resolve resolved found
  exact differ (Option.some.inj (parsed.symm.trans read))

theorem Config.Holds.get?_key_ne (holds : config.Holds settings) {spec : RuleSpec}
    (disabled : spec.enabled config = false) : settings.get? spec.key ≠ some "true" := by
  intro found
  rw [holds.enabled_of_own found rfl] at disabled
  exact Bool.false_ne_true disabled.symm

namespace TypeSignature

variable {signature : TypeSignature} {type : DataType} {text : String}

theorem closing_complaint? (h : signature.complaint? type = some text) :
    closing text ∈ plainClosings := by
  unfold complaint? at h
  split at h
  next =>
    cases type with
    | decimal precision scale =>
        rw [Option.ite_none_right_eq_some] at h
        rw [← Option.some.inj h.2]
        exact closing_mem _ (by decide)
    | _ => cases h
  next =>
    cases h
    exact closing_mem _ (by decide)

theorem closing_reason (node : TypeNode) (h : closing text ∈ plainClosings) :
    closing (node.reason text) ∈ plainClosings := by
  unfold TypeNode.reason
  induction node.around with
  | nil => exact h
  | cons outer around ih => exact closing_mem _ ih

theorem closing_rejection? (h : signature.rejection? type = some text) :
    closing text ∈ plainClosings := by
  obtain ⟨_, node, _, complaint, -, -, own, rfl⟩ := rejection?_eq_some_iff.mp h
  exact closing_reason node (closing_complaint? own)

end TypeSignature

theorem RuleSpec.plain_typeReasons {Node : Type} [HostNode Node] (spec : RuleSpec) (node : Node) :
    ∀ reason ∈ spec.typeReasons node, Plain reason := by
  have rejected : ∀ signature types, ∀ text ∈ rejections signature types,
      closing text ∈ plainClosings := by
    intro signature types text member
    cases signature with
    | none => cases member
    | some signature =>
        obtain ⟨type, -, found⟩ := List.mem_filterMap.mp member
        exact TypeSignature.closing_rejection? found
  intro reason member
  rcases List.mem_append.mp member with input | output
  · obtain ⟨text, found, rfl⟩ := List.mem_map.mp input
    exact .inr (closing_mem _ (rejected _ _ text found))
  · obtain ⟨text, found, rfl⟩ := List.mem_map.mp output
    exact .inr (closing_mem _ (rejected _ _ text found))

namespace ExprCheck

theorem openAll_zoneReasons (context : Context) : OpenAll settings (zoneReasons context) :=
  .reasonIf_plain (plain_of_opening (by decide) _)

theorem openAll_castReasons (context : Context) (holds : context.config.Holds settings)
    (source target : DataType) : OpenAll settings (castReasons context source target) := by
  refine .append (.append (.append (.append (.reasonIf ?fromFloat) (.reasonIf ?fromString))
    (.reasonIf_plain ?ansi)) (.reasonIf_plain ?dates)) ?zoned
  case fromFloat =>
    intro asked
    simp only [Bool.and_eq_true, Bool.not_eq_true'] at asked
    apply open_of_advises (.castFloatToString asked.1.1)
    exact Entry.get?_ne_of_resolve holds.castFloatToString rfl (by simp [asked.2])
  case fromString =>
    intro asked
    simp only [Bool.and_eq_true, Bool.not_eq_true'] at asked
    apply open_of_advises (.castStringToFloat asked.1.2)
    exact Entry.get?_ne_of_resolve holds.castStringToFloat rfl (by simp [asked.2])
  case ansi => exact plain_of_closing _ (by decide)
  case dates => exact plain_of_closing _ (by decide)
  case zoned =>
    split
    · exact openAll_zoneReasons context
    · exact .nil

/-- Whatever a built-in check of expressions complains about is open. -/
theorem openAll_check : ∀ rule ∈ Builtin.exprRules, ∀ context : Context,
    context.config.Holds settings → rule.spec.className = context.node.className →
      OpenAll settings (rule.check context).reasons := by
  -- The cases know a rule by its check alone. A reason names the class of the node, and any rule
  -- that is named like it will do.
  suffices h : ∀ rule ∈ Builtin.exprRules, ∀ context : Context, context.config.Holds settings →
      (∃ rule ∈ Builtin.exprRules, rule.spec.short = short context) →
        OpenAll settings (rule.check context).reasons by
    intro rule member context holds same
    exact h rule member context holds ⟨rule, member, congrArg ClassName.short same⟩
  apply Builtin.forall_expr_check fun check => ∀ context : Context,
    context.config.Holds settings →
      (∃ rule ∈ Builtin.exprRules, rule.spec.short = short context) →
        OpenAll settings (check context).reasons
  all_goals intro context holds ⟨rule, member, same⟩
  case clear => exact .nil
  case ansiDivision => exact .ofReasons (.reasonIf_plain (plain_of_closing _ (by decide)))
  case ansiOverflow => exact .ofReasons (.reasonIf_plain (plain_of_closing _ (by decide)))
  case utcOnly => exact .ofReasons (openAll_zoneReasons context)
  case cast =>
    unfold cast
    split
    · exact .ofReasons (.plain (plain_ofList (by decide)))
    · split
      · exact .nil
      · exact .ofReasons (openAll_castReasons context holds _ _)
  case aggregateOwner =>
    unfold aggregateOwner
    split
    · exact .nil
    · exact .ofReasons (.reasonIf_plain (plain_of_opening (by decide) _))
  case summation =>
    refine .ofReasons (.append (.reasonIf fun asked => ?_)
      (.reasonIf_plain (plain_of_closing _ (by decide))))
    rw [Bool.and_eq_true, Bool.not_eq_true'] at asked
    rw [← same]
    apply open_of_advises (.variableFloatAgg member)
    exact Entry.get?_ne_of_resolve holds.variableFloatAgg rfl (by simp [asked.2])
  case nanOrder =>
    refine .ofReasons (.reasonIf fun asked => ?_)
    rw [Bool.and_eq_true] at asked
    rw [← same]
    apply open_of_advises (.nans member)
    exact Entry.get?_ne_of_resolve holds.hasNaNs rfl (by simp [asked.2])
  case hashableKeys => exact .ofReasons (.map fun key => plain_of_closing _ (by decide))

end ExprCheck

namespace OperatorCheck

theorem openAll_complaints (isOfClass : DataType → Bool) (activity : String)
    (keys : List HostExpr) : OpenAll settings (complaints isOfClass activity keys) :=
  .map fun _ => plain_of_closing _ (by decide)

theorem openAll_joinReasons (context : Context) (holds : context.config.Holds settings) :
    OpenAll settings (joinReasons context) := by
  refine .append (.append (.append (.reasonIf fun asked => ?_)
    (.reasonIf_plain (plain_of_closing _ (by decide))))
    (.reasonIf_plain (plain_of_closing _ (by decide)))) (openAll_complaints _ _ _)
  rw [Bool.not_eq_true'] at asked
  apply open_of_advises .join
  exact Entry.get?_ne_of_resolve holds.joinEnabled rfl (by simp [asked])

theorem get?_ne_of_formatEnabled (holds : config.Holds settings) {format : String}
    (known : format ∈ scanFormats) (disabled : config.formatEnabled format = false) :
    settings.get? s!"accel.sql.format.{format}.enabled" ≠ some "true" := by
  simp only [scanFormats, List.mem_cons, List.not_mem_nil, or_false] at known
  rcases known with rfl | rfl | rfl
  · have off : config.parquetEnabled = false := disabled
    exact Entry.get?_ne_of_resolve holds.parquetEnabled rfl (by simp [off])
  · have off : config.orcEnabled = false := disabled
    exact Entry.get?_ne_of_resolve holds.orcEnabled rfl (by simp [off])
  · have off : config.csvEnabled = false := disabled
    exact Entry.get?_ne_of_resolve holds.csvEnabled rfl (by simp [off])

theorem openAll_formatReasons (holds : config.Holds settings) (format : String)
    (output : List Column) : OpenAll settings (formatReasons config format output) := by
  unfold formatReasons
  split
  next => exact .plain (plain_of_closing _ (by decide))
  next known =>
    refine .append (.reasonIf fun asked => ?format) ?columns
    case format =>
      rw [Bool.not_eq_true', Bool.not_eq_false, List.contains_iff_mem] at known
      rw [Bool.not_eq_true'] at asked
      exact open_of_advises (.format known) (get?_ne_of_formatEnabled holds known asked)
    case columns =>
      split
      · refine .map fun column => ?_
        simp only [String.append_assoc]
        exact plain_of_opening (by decide) _
      · exact .nil

/-- Whatever a built-in check of operators complains about is open. -/
theorem openAll_check : ∀ rule ∈ Builtin.operatorRules, ∀ context : Context,
    context.config.Holds settings → OpenAll settings (rule.check context).reasons := by
  apply Builtin.forall_operator_check fun check => ∀ context : Context,
    context.config.Holds settings → OpenAll settings (check context).reasons
  all_goals intro context holds
  case clear => exact .nil
  case identityProjection =>
    unfold identityProjection
    split
    · exact .nil
    · exact .nil
  case filterCondition =>
    unfold filterCondition
    split
    · exact .ofReasons (.plain (plain_ofList (by decide)))
    · exact .ofReasons (.reasonIf_plain (plain_of_opening (by decide) _))
  case groupingKeys =>
    unfold groupingKeys
    dsimp only
    split
    · exact .ofReasons (.plain (plain_of_closing _ (by decide)))
    · exact .ofReasons (openAll_complaints _ _ _)
  case sortKeys => exact .ofReasons (openAll_complaints _ _ _)
  case limit => exact .ofReasons (.reasonIf_plain (plain_ofList (by decide)))
  case unionArity => exact .ofReasons (.reasonIf_plain (plain_ofList (by decide)))
  case shufflePartitioning => exact .ofReasons (.reasonIf_plain (plain_ofList (by decide)))
  case hashJoin => exact .ofReasons (openAll_joinReasons context holds)
  case broadcastJoin =>
    refine .ofReasons (.append (openAll_joinReasons context holds) ?_)
    unfold buildSideReasons
    split
    · exact .plain (plain_ofList (by decide))
    · split
      · exact .plain (plain_of_opening (by decide) _)
      · exact .reasonIf_plain (plain_ofList (by decide))
  case fileScan =>
    unfold fileScan
    split
    · exact .ofReasons (.plain (plain_ofList (by decide)))
    · exact .ofReasons (openAll_formatReasons holds _ _)

end OperatorCheck

theorem Rule.openAll_examine {Node Child Op : Type} [HostNode Node] {rule : Rule Node Child Op}
    {context : TagContext Node Child}
    (switch : rule.spec.enabled context.config = false → Open settings rule.spec.disabledReason)
    (check : OpenAll settings (rule.check context).reasons) :
    OpenAll settings (rule.examine context).reasons := by
  refine .append (.append (.reasonIf fun disabled => ?_) fun reason member => ?_) check
  · exact switch (Bool.not_eq_true' _ ▸ disabled)
  · exact open_of_plain (rule.spec.plain_typeReasons context.node reason member)

theorem Decision.openAll_judge {Node Op : Type} [HostNode Node] {decision : Decision Node Op}
    {finding : Option Finding} {dependency : Option String} (untagged : decision.reasons = [])
    (found : ∀ result, finding = some result → OpenAll settings result.reasons)
    (below : ∀ reason, dependency = some reason → Plain reason) :
    OpenAll settings (decision.judge finding dependency).reasons := by
  cases finding with
  | none =>
      rw [judge, reject, untagged]
      exact .plain (plain_of_closing _ (by decide))
  | some result =>
      rw [judge, untagged]
      refine .append .nil (.append (found result rfl) fun reason member => ?_)
      exact open_of_plain (below reason (Option.mem_toList.mp member))

namespace ExprDecision

theorem plain_dependencyReason {children : List ExprDecision} {reason : String}
    (h : dependencyReason children = some reason) : Plain reason := by
  obtain ⟨child, -, rfl⟩ := Option.map_eq_some_iff.mp h
  exact plain_of_opening (by decide) _

theorem openAll_tag (holds : config.Holds settings) {tree : ExprDecision}
    (untagged : tree.decision.reasons = []) :
    OpenAll settings (tree.tag Builtin.registry config).decision.reasons := by
  rw [tag_eq]
  dsimp only [examine]
  refine Decision.openAll_judge untagged (fun result found => ?_) fun _ => plain_dependencyReason
  obtain ⟨rule, known, rfl⟩ := Option.map_eq_some_iff.mp found
  have member := Builtin.mem_of_find?_exprs known
  apply Rule.openAll_examine
  · exact fun disabled => open_of_advises (.exprRule member) (holds.get?_key_ne disabled)
  · exact ExprCheck.openAll_check rule member _ holds (Builtin.className_of_find?_exprs known)

end ExprDecision

namespace PlanDecision

theorem plain_dependencyReason {exprs : List ExprDecision} {reason : String}
    (h : dependencyReason exprs = some reason) : Plain reason := by
  unfold dependencyReason at h
  split at h
  · cases h
  · rw [← Option.some.inj h]
    exact plain_of_opening (by decide) _

theorem openAll_tag (holds : config.Holds settings) {tree : PlanDecision}
    (untagged : tree.decision.reasons = []) :
    OpenAll settings (tree.tag Builtin.registry config).decision.reasons := by
  rw [tag_eq]
  dsimp only [examine]
  refine Decision.openAll_judge untagged (fun result found => ?_) fun _ => plain_dependencyReason
  obtain ⟨rule, known, rfl⟩ := Option.map_eq_some_iff.mp found
  have member := Builtin.mem_of_find?_operators known
  apply Rule.openAll_examine
  · exact fun disabled => open_of_advises (.operatorRule member) (holds.get?_key_ne disabled)
  · exact OperatorCheck.openAll_check rule member _ holds

theorem openAll_settleExchange {decision : Decision HostPlan GpuOperator}
    (h : OpenAll settings decision.reasons) (parentEligible : Bool) (children : List PlanDecision) :
    OpenAll settings (settleExchange parentEligible decision children).reasons := by
  unfold settleExchange
  split
  · exact h.append (.plain (plain_ofList (by decide)))
  · exact h

theorem openAll_ownVerdicts {operator : PlanDecision}
    (own : OpenAll settings operator.decision.reasons)
    (arguments : ∀ expr ∈ operator.exprs, ∀ part ∈ expr.subtrees,
      OpenAll settings part.decision.reasons) :
    ∀ verdict ∈ operator.ownVerdicts, OpenAll settings verdict.reasons := by
  intro verdict member
  rcases List.mem_cons.mp member with rfl | member
  · exact own
  · obtain ⟨expr, among, member⟩ := List.mem_flatMap.mp member
    obtain ⟨part, below, rfl⟩ := List.mem_map.mp member
    exact arguments expr among part below

theorem openAll_tag_ofPlan (holds : config.Holds settings) {plan : HostPlan}
    {operator : PlanDecision}
    (within : operator ∈ ((ofPlan Builtin.registry plan).tag Builtin.registry config).subtrees) :
    OpenAll settings operator.decision.reasons ∧
      ∀ expr ∈ operator.exprs, ∀ part ∈ expr.subtrees, OpenAll settings part.decision.reasons := by
  constructor
  · obtain ⟨parent, inner, rfl⟩ := mem_subtrees_tag_ofPlan within
    exact openAll_tag holds (ofPlanBelow_reasons ..)
  · intro expr among part below
    obtain ⟨kind, parent, inner, rfl⟩ := mem_subtrees_of_mem_exprs within among below
    exact ExprDecision.openAll_tag holds (ExprDecision.ofExprAt_reasons ..)

end PlanDecision

/-- No reason in a tagged plan asks for what the settings already say. -/
theorem openAll_tagPlan (holds : config.Holds settings) (plan : HostPlan) :
    ∀ verdict ∈ (tagPlan Builtin.registry config plan).verdicts,
      OpenAll settings verdict.reasons := by
  intro verdict member
  obtain ⟨operator, within, own⟩ := List.mem_flatMap.mp member
  revert verdict own
  suffices h : OpenAll settings operator.decision.reasons ∧ ∀ expr ∈ operator.exprs,
      ∀ part ∈ expr.subtrees, OpenAll settings part.decision.reasons by
    intro verdict _ own
    exact PlanDecision.openAll_ownVerdicts h.1 h.2 verdict own
  -- Settling touches operators only, and what it adds asks for nothing.
  unfold tagPlan at within
  split at within
  · obtain ⟨inner, tagged, parentEligible, rfl⟩ := PlanDecision.mem_subtrees_settleBelow within
    obtain ⟨own, arguments⟩ := PlanDecision.openAll_tag_ofPlan holds tagged
    rw [PlanDecision.settleBelow_eq]
    exact ⟨PlanDecision.openAll_settleExchange own _ _, arguments⟩
  · exact PlanDecision.openAll_tag_ofPlan holds within

/-- Every remedy that a reason of a tagged plan names works and harms nothing: it is not in force
yet, the new setting is accepted, no node of the new plan has the reason, and every node that was
eligible is eligible again. -/
theorem remedy_works {settings : Settings} {config : Config}
    (resolved : Config.resolve settings = .ok config) (plan : HostPlan) {verdict : Verdict}
    (member : verdict ∈ (tagPlan Builtin.registry config plan).verdicts) {reason key value : String}
    (given : reason ∈ verdict.reasons) (advises : Advises reason key value) :
    settings.get? key ≠ some value ∧
      ∃ heeded, config.withSetting key value = .ok heeded ∧
        (∀ other ∈ (tagPlan Builtin.registry heeded plan).verdicts, reason ∉ other.reasons) ∧
        (tagPlan Builtin.registry config plan).AtMost (tagPlan Builtin.registry heeded plan) := by
  have before := Config.resolve_holds resolved
  obtain ⟨heeded, changed⟩ := advises.loosens.exists_heeded (Config.valid_of_resolve resolved)
  have after : heeded.Holds (settings.insert key value) :=
    before.source ▸ Config.resolve_holds changed
  have relaxes := advises.loosens.relaxes before after
  refine ⟨openAll_tagPlan before plan verdict member reason given key value advises, heeded,
    changed, fun other among kept => ?_, ?_⟩
  · -- A reason that is still there would ask for what is in force by now.
    apply openAll_tagPlan after plan other among reason kept key value advises
    rw [Dict.get?_insert, if_pos rfl]
  · exact tagPlan_atMost (Builtin.registry_relaxes relaxes) relaxes.fixup plan

theorem PlanDecision.mem_reasons_tag {registry : Registry} (tree : PlanDecision)
    {rule : OperatorRule} {reason : String}
    (found : registry.operators.find? tree.decision.node.className = some rule)
    (given : reason ∈ (rule.check ⟨tree.decision.node, tree.decision.parent, tree.decision.owner,
      config, tree.children.map (.tag registry config),
      tree.exprs.map (.tag registry config)⟩).reasons) :
    reason ∈ (tree.tag registry config).decision.reasons := by
  rw [tag_eq, examine, found]
  simp only [Decision.judge, Option.map_some, Rule.examine, List.mem_append]
  exact .inr (.inl (.inr given))

/-- Settling only adds reasons, so those of a tagged root are among the verdicts. -/
theorem exists_mem_verdicts_tagPlan {registry : Registry} {plan : HostPlan} {reason : String}
    (h : reason ∈ ((PlanDecision.ofPlan registry plan).tag registry config).decision.reasons) :
    ∃ verdict ∈ (tagPlan registry config plan).verdicts, reason ∈ verdict.reasons := by
  have kept : reason ∈ (tagPlan registry config plan).decision.reasons := by
    unfold tagPlan
    split
    · rw [PlanDecision.settleExchanges, PlanDecision.settleBelow_eq]
      unfold PlanDecision.settleExchange
      split
      · exact List.mem_append_left _ h
      · exact h
    · exact h
  exact ⟨_, List.mem_flatMap.mpr ⟨_, PlanDecision.mem_subtrees_self _, .head _⟩, kept⟩

/-- The reason against a scan that spells its format in upper case. -/
theorem remedy_works_upperCaseFormat :
    let settings : Settings := Dict.empty.insert "accel.sql.format.csv.enabled" "FALSE"
    let config := { Config.default with settings := settings }
    let plan := HostPlan.scan "CSV" [.ofType "k" .int]
    let reason := "reading csv files has been disabled by configuration; " ++
      "set accel.sql.format.csv.enabled to true to enable"
    Config.resolve settings = .ok config ∧
      ∃ verdict ∈ (tagPlan Builtin.registry config plan).verdicts, reason ∈ verdict.reasons ∧
        Advises reason "accel.sql.format.csv.enabled" "true" ∧
        settings.get? "accel.sql.format.csv.enabled" ≠ some "true" ∧
        ∃ heeded, config.withSetting "accel.sql.format.csv.enabled" "true" = .ok heeded ∧
          (∀ other ∈ (tagPlan Builtin.registry heeded plan).verdicts, reason ∉ other.reasons) ∧
          (tagPlan Builtin.registry config plan).AtMost
            (tagPlan Builtin.registry heeded plan) := by
  intro settings config plan reason
  have resolved : Config.resolve settings = .ok config := rfl
  have advises : Advises reason "accel.sql.format.csv.enabled" "true" :=
    .format (show "csv" ∈ scanFormats by decide)
  obtain ⟨rule, member, named⟩ : ∃ rule ∈ Builtin.operatorRules,
      (rule.spec.className, rule.check) =
        (.operator "FileSourceScanExec", OperatorCheck.fileScan) := by
    rw [← List.mem_map, Builtin.operatorRules_checks]
    simp
  obtain ⟨className, check⟩ := Prod.mk.inj named
  have found := Builtin.find?_operators_of_mem member
  rw [className] at found
  obtain ⟨verdict, among, given⟩ : ∃ verdict ∈ (tagPlan Builtin.registry config plan).verdicts,
      reason ∈ verdict.reasons := by
    apply exists_mem_verdicts_tagPlan
    apply PlanDecision.mem_reasons_tag (.ofPlan _ plan) found
    rw [check]
    exact List.mem_singleton.mpr rfl
  exact ⟨resolved, verdict, among, given, advises, remedy_works resolved plan among given advises⟩

end GpuPlacement
