import GpuPlacement.Proofs.Builtin
import GpuPlacement.Proofs.Support
/-!
Configurations that allow more than others. No built-in check rejects under such a configuration
what it accepted before, as long as nothing that it looks at became ineligible.
-/
namespace GpuPlacement

/-- What one configuration allows, the other one allows, too. -/
structure Config.Relaxes (relaxed strict : Config) : Prop where
  exprRules : ∀ rule ∈ Builtin.exprRules,
    rule.spec.enabled strict = true → rule.spec.enabled relaxed = true
  operatorRules : ∀ rule ∈ Builtin.operatorRules,
    rule.spec.enabled strict = true → rule.spec.enabled relaxed = true
  variableFloatAgg : strict.variableFloatAgg = true → relaxed.variableFloatAgg = true
  castFloatToString : strict.castFloatToString = true → relaxed.castFloatToString = true
  castStringToFloat : strict.castStringToFloat = true → relaxed.castStringToFloat = true
  join : strict.joinEnabled = true → relaxed.joinEnabled = true
  parquet : strict.parquetEnabled = true → relaxed.parquetEnabled = true
  orc : strict.orcEnabled = true → relaxed.orcEnabled = true
  csv : strict.csvEnabled = true → relaxed.csvEnabled = true
  utc : strict.isUtc = true → relaxed.isUtc = true
  ansi : relaxed.ansiEnabled = true → strict.ansiEnabled = true
  nans : relaxed.hasNaNs = true → strict.hasNaNs = true
  fixup : relaxed.fixupExchangeOverhead = true → strict.fixupExchangeOverhead = true

/-- Two decisions about one node; the first one is eligible at most where the second one is. -/
structure Decision.AtMost {Node Op : Type} (decision other : Decision Node Op) : Prop where
  node : other.node = decision.node
  rule : other.rule = decision.rule
  noOp : other.noOp = decision.noOp
  eligible : decision.eligible = true → other.eligible = true

/-- Trees over the same expressions, compared node by node. -/
inductive ExprDecision.AtMost : ExprDecision → ExprDecision → Prop
  | node {decision other children others} : decision.AtMost other →
      List.Forall₂ AtMost children others → AtMost ⟨decision, children⟩ ⟨other, others⟩

/-- Trees over the same operators and expressions, compared node by node. -/
inductive PlanDecision.AtMost : PlanDecision → PlanDecision → Prop
  | node {decision other exprs otherExprs children others} : decision.AtMost other →
      List.Forall₂ ExprDecision.AtMost exprs otherExprs →
      List.Forall₂ AtMost children others →
      AtMost ⟨decision, exprs, children⟩ ⟨other, otherExprs, others⟩

theorem ExprDecision.AtMost.decision {tree other : ExprDecision} (h : tree.AtMost other) :
    tree.decision.AtMost other.decision := by
  cases h with
  | node same _ => exact same

theorem PlanDecision.AtMost.decision {tree other : PlanDecision} (h : tree.AtMost other) :
    tree.decision.AtMost other.decision := by
  cases h with
  | node same _ _ => exact same

/-- The first finding leaves its node eligible at most where the second one does, and they agree
about what is left out. -/
structure Finding.AtMost (finding other : Finding) : Prop where
  reasons : finding.reasons = [] → other.reasons = []
  noOp : other.noOp = finding.noOp

/-- What a check sees of one node under two configurations. -/
structure TagContext.AtMost {Node Child : Type} (strict relaxed : Config)
    (related : Child → Child → Prop) (context other : TagContext Node Child) : Prop where
  node : other.node = context.node
  owner : other.owner = context.owner
  strict : context.config = strict
  relaxed : other.config = relaxed
  children : List.Forall₂ related context.children other.children

namespace Finding

/-- A reason that is gone stays away when its condition can only get weaker. -/
theorem reasonIf_mono {condition other : Bool} {reason otherReason : String}
    (h : other = true → condition = true) (none : reasonIf condition reason = []) :
    reasonIf other otherReason = [] := by
  rw [reasonIf_eq_nil_iff] at none ⊢
  exact Bool.eq_false_iff.mpr fun held => Bool.eq_false_iff.mp none (h held)

theorem reasonIf_not_mono {condition other : Bool} {reason otherReason : String}
    (h : condition = true → other = true) :
    reasonIf (!condition) reason = [] → reasonIf (!other) otherReason = [] := by
  apply reasonIf_mono
  simp only [Bool.not_eq_true', ← Bool.not_eq_true]
  exact mt h

theorem reasonIf_and_mono {condition other guard : Bool} {reason otherReason : String}
    (h : other = true → condition = true) :
    reasonIf (condition && guard) reason = [] → reasonIf (other && guard) otherReason = [] := by
  apply reasonIf_mono
  simp only [Bool.and_eq_true]
  exact And.imp_left h

theorem reasonIf_guard_mono {condition other guard : Bool} {reason otherReason : String}
    (h : other = true → condition = true) :
    reasonIf (guard && condition) reason = [] → reasonIf (guard && other) otherReason = [] := by
  rw [Bool.and_comm guard, Bool.and_comm guard]
  exact reasonIf_and_mono h

theorem reasonIf_guard_not_mono {condition other guard : Bool} {reason otherReason : String}
    (h : condition = true → other = true) :
    reasonIf (guard && !condition) reason = [] → reasonIf (guard && !other) otherReason = [] := by
  apply reasonIf_guard_mono
  simp only [Bool.not_eq_true', ← Bool.not_eq_true]
  exact mt h

theorem append_mono {first second third fourth : List String}
    (left : first = [] → third = []) (right : second = [] → fourth = [])
    (none : first ++ second = []) : third ++ fourth = [] := by
  rw [List.append_eq_nil_iff] at none ⊢
  exact ⟨left none.1, right none.2⟩

theorem AtMost.refl (finding : Finding) : finding.AtMost finding := ⟨id, rfl⟩

theorem AtMost.ofReasons {reasons others : List String} (h : reasons = [] → others = []) :
    (Finding.ofReasons reasons).AtMost (Finding.ofReasons others) := ⟨h, rfl⟩

end Finding

namespace ExprCheck

variable {strict relaxed : Config}

theorem zoneReasons_mono (h : relaxed.Relaxes strict) {context other : Context}
    (pair : context.AtMost strict relaxed ExprDecision.AtMost other) :
    zoneReasons context = [] → zoneReasons other = [] := by
  unfold zoneReasons
  rw [pair.strict, pair.relaxed]
  exact Finding.reasonIf_not_mono h.utc

theorem castReasons_mono (h : relaxed.Relaxes strict) {context other : Context}
    (pair : context.AtMost strict relaxed ExprDecision.AtMost other) (source target : DataType) :
    castReasons context source target = [] → castReasons other source target = [] := by
  have zone := zoneReasons_mono h pair
  unfold castReasons
  rw [pair.strict, pair.relaxed]
  refine Finding.append_mono (Finding.append_mono (Finding.append_mono
    (Finding.append_mono ?fromFloat ?fromString) ?ansi) id) ?zoned
  case fromFloat => exact Finding.reasonIf_guard_not_mono h.castFloatToString
  case fromString => exact Finding.reasonIf_guard_not_mono h.castStringToFloat
  case ansi =>
    rw [Bool.and_assoc, Bool.and_assoc]
    exact Finding.reasonIf_and_mono h.ansi
  case zoned =>
    split
    · exact zone
    · exact id

/-- No built-in expression check rejects more under a configuration that allows more. -/
theorem mono (h : relaxed.Relaxes strict) : ∀ rule ∈ Builtin.exprRules, ∀ context other,
    TagContext.AtMost strict relaxed ExprDecision.AtMost context other →
      (rule.check context).AtMost (rule.check other) := by
  apply Builtin.forall_expr_check fun check => ∀ context other,
    TagContext.AtMost strict relaxed ExprDecision.AtMost context other →
      (check context).AtMost (check other)
  all_goals intro context other pair
  case clear => exact .refl _
  case ansiDivision =>
    apply Finding.AtMost.ofReasons
    rw [pair.strict, pair.relaxed]
    exact Finding.reasonIf_mono h.ansi
  case ansiOverflow =>
    apply Finding.AtMost.ofReasons
    rw [pair.strict, pair.relaxed, pair.node]
    exact Finding.reasonIf_and_mono h.ansi
  case utcOnly => exact .ofReasons (zoneReasons_mono h pair)
  case cast =>
    unfold cast
    rw [pair.node]
    split
    · exact .refl _
    · split
      · exact .refl _
      · exact .ofReasons (castReasons_mono h pair _ _)
  case aggregateOwner =>
    unfold aggregateOwner
    rw [pair.owner]
    exact .refl _
  case summation =>
    apply Finding.AtMost.ofReasons
    unfold variableFloatAgg ansiIntegralAgg firstArgument
    rw [pair.strict, pair.relaxed, pair.node]
    exact Finding.append_mono (Finding.reasonIf_guard_not_mono h.variableFloatAgg)
      (Finding.reasonIf_guard_mono h.ansi)
  case nanOrder =>
    apply Finding.AtMost.ofReasons
    unfold firstArgument
    rw [pair.strict, pair.relaxed, pair.node]
    exact Finding.reasonIf_guard_mono h.nans
  case hashableKeys =>
    unfold hashableKeys
    rw [pair.node]
    exact .refl _

end ExprCheck

theorem rel_getElem? {α β : Type} {related : α → β → Prop} {items : List α} {others : List β}
    (h : List.Forall₂ related items others) (place : Nat) :
    Option.Rel related items[place]? others[place]? := by
  induction h generalizing place with
  | nil => exact .none
  | cons first _ ih =>
      cases place with
      | zero => exact .some first
      | succ place => exact ih place

namespace OperatorCheck

variable {strict relaxed : Config}

theorem formatEnabled_mono (h : relaxed.Relaxes strict) (format : String) :
    strict.formatEnabled format = true → relaxed.formatEnabled format = true := by
  unfold Config.formatEnabled
  split
  · exact h.parquet
  · exact h.orc
  · exact h.csv
  · exact id

theorem formatReasons_mono (h : relaxed.Relaxes strict) (format : String) (output : List Column) :
    formatReasons strict format output = [] → formatReasons relaxed format output = [] := by
  unfold formatReasons
  split
  · exact id
  · exact Finding.append_mono (Finding.reasonIf_not_mono (formatEnabled_mono h format)) id

theorem joinReasons_mono (h : relaxed.Relaxes strict) {context other : Context}
    (pair : context.AtMost strict relaxed PlanDecision.AtMost other) :
    joinReasons context = [] → joinReasons other = [] := by
  unfold joinReasons
  rw [pair.strict, pair.relaxed, pair.node]
  dsimp only
  exact Finding.append_mono (Finding.append_mono (Finding.append_mono
    (Finding.reasonIf_not_mono h.join) id) id) id

/-- The build side stays the same operator, and stays eligible. -/
theorem buildSideReasons_mono {context other : Context}
    (pair : context.AtMost strict relaxed PlanDecision.AtMost other) :
    buildSideReasons context = [] → buildSideReasons other = [] := by
  unfold buildSideReasons
  rw [pair.node]
  have same := rel_getElem? pair.children (buildSide context.node)
  generalize context.children[buildSide context.node]? = build at same ⊢
  generalize other.children[buildSide context.node]? = otherBuild at same ⊢
  cases same with
  | none => exact id
  | @some build other same =>
      have short : other.short = build.short := congrArg (·.className.short) same.decision.node
      dsimp only
      rw [short]
      split
      · exact id
      · exact Finding.reasonIf_not_mono same.decision.eligible

/-- No built-in operator check rejects more under a configuration that allows more, for inputs that
are eligible at least as often. -/
theorem mono (h : relaxed.Relaxes strict) : ∀ rule ∈ Builtin.operatorRules, ∀ context other,
    TagContext.AtMost strict relaxed PlanDecision.AtMost context other →
      (rule.check context).AtMost (rule.check other) := by
  apply Builtin.forall_operator_check fun check => ∀ context other,
    TagContext.AtMost strict relaxed PlanDecision.AtMost context other →
      (check context).AtMost (check other)
  all_goals intro context other pair
  case clear => exact .refl _
  case hashJoin => exact .ofReasons (joinReasons_mono h pair)
  case broadcastJoin =>
    exact .ofReasons (Finding.append_mono (joinReasons_mono h pair) (buildSideReasons_mono pair))
  case fileScan =>
    unfold fileScan
    rw [pair.strict, pair.relaxed, pair.node]
    split
    · exact .refl _
    · exact .ofReasons (formatReasons_mono h _ _)
  -- The other checks read nothing but the node.
  all_goals
    obtain ⟨node, _, _, _, _, _⟩ := context
    obtain ⟨otherNode, _, _, _, _, _⟩ := other
    obtain rfl : otherNode = node := pair.node
    exact .refl _

end OperatorCheck

end GpuPlacement
