import GpuPlacement.Proofs.Ready
/-!
Refused plans. Conversion of a tagged plan always succeeds, so only test mode refuses one: it names
the first node in the order of reports that stays on the host without leave.
-/
namespace GpuPlacement

structure Verdict where
  name : String
  reasons : List String

namespace Verdict

/-- The node stays on the host, and its name is not among those that may. -/
def Unexpected (allowed : List String) (verdict : Verdict) : Prop :=
  verdict.reasons ≠ [] ∧ verdict.name ∉ allowed

instance (allowed : List String) : DecidablePred (Unexpected allowed) :=
  fun verdict => inferInstanceAs (Decidable (verdict.reasons ≠ [] ∧ verdict.name ∉ allowed))

def refusal (verdict : Verdict) : PlacementError :=
  .leftOnHost verdict.name verdict.reasons

/-- The refusal of the first unexpected node. -/
def refusal? (allowed : List String) (verdicts : List Verdict) : Option PlacementError :=
  (verdicts.find? fun verdict => decide (verdict.Unexpected allowed)).map refusal

theorem refusal?_append (allowed : List String) (verdicts later : List Verdict) :
    refusal? allowed (verdicts ++ later) =
      (refusal? allowed verdicts).or (refusal? allowed later) := by
  rw [refusal?, List.find?_append, refusal?]
  cases verdicts.find? fun verdict => decide (verdict.Unexpected allowed) <;> rfl

theorem refusal?_eq_some_iff {allowed : List String} {verdicts : List Verdict}
    {error : PlacementError} :
    refusal? allowed verdicts = some error ↔
      ∃ before verdict after, verdicts = before ++ verdict :: after ∧
        (∀ other ∈ before, ¬ other.Unexpected allowed) ∧ verdict.Unexpected allowed ∧
        error = .leftOnHost verdict.name verdict.reasons := by
  simp only [refusal?, Option.map_eq_some_iff, List.find?_eq_some_iff_append, decide_eq_true_eq,
    Bool.not_eq_true', decide_eq_false_iff_not]
  constructor
  · rintro ⟨verdict, ⟨unexpected, before, after, split, expected⟩, rfl⟩
    exact ⟨before, verdict, after, split, expected, unexpected, rfl⟩
  · rintro ⟨before, verdict, after, split, expected, unexpected, rfl⟩
    exact ⟨verdict, ⟨unexpected, before, after, split, expected⟩, rfl⟩

theorem exists_refusal?_iff {allowed : List String} {verdicts : List Verdict} :
    (∃ error, refusal? allowed verdicts = some error) ↔
      ∃ verdict ∈ verdicts, verdict.Unexpected allowed := by
  rw [← Option.isSome_iff_exists, refusal?, Option.isSome_map, List.find?_isSome]
  simp only [decide_eq_true_eq]

end Verdict

namespace Decision

variable {Node Op : Type} [HostNode Node]

def verdict (decision : Decision Node Op) : Verdict :=
  ⟨decision.short, decision.reasons⟩

theorem decide_verdict_unexpected (allowed : List String) (decision : Decision Node Op) :
    decide (decision.verdict.Unexpected allowed) =
      (!decision.eligible && !allowed.contains decision.short) := by
  cases reasons : decision.reasons <;>
    simp [Verdict.Unexpected, verdict, eligible, reasons]

theorem unexpected?_eq_refusal? (allowed : List String) (decision : Decision Node Op) :
    decision.unexpected? allowed = Verdict.refusal? allowed [decision.verdict] := by
  rw [unexpected?, ← decide_verdict_unexpected, Verdict.refusal?, List.find?_singleton]
  cases decide (decision.verdict.Unexpected allowed) <;> rfl

end Decision

section

variable {allowed : List String}

namespace ExprDecision

/-- The verdicts about an expression and all its arguments, in the order of reports. -/
def verdicts (tree : ExprDecision) : List Verdict :=
  tree.subtrees.map fun part => part.decision.verdict

theorem verdicts_eq (decision : Decision HostExpr GpuExpr) (children : List ExprDecision) :
    verdicts ⟨decision, children⟩ = [decision.verdict] ++ children.flatMap verdicts := by
  rw [verdicts, subtrees, subtreesOfAll_eq_flatMap, List.map_cons, List.map_flatMap]
  rfl

theorem unexpected?_node (decision : Decision HostExpr GpuExpr) (children : List ExprDecision) :
    unexpected? allowed ⟨decision, children⟩ =
      (decision.unexpected? allowed).or (unexpectedExpr? allowed children) := by
  rw [unexpected?]
  cases decision.unexpected? allowed <;> rfl

theorem unexpectedExpr?_of_forall {trees : List ExprDecision}
    (each : ∀ tree ∈ trees, tree.unexpected? allowed = Verdict.refusal? allowed tree.verdicts) :
    unexpectedExpr? allowed trees = Verdict.refusal? allowed (trees.flatMap verdicts) := by
  induction trees with
  | nil => rfl
  | cons tree rest ih =>
      obtain ⟨first, later⟩ := List.forall_mem_cons.mp each
      rw [unexpectedExpr?, List.flatMap_cons, Verdict.refusal?_append, ← first, ← ih later]
      cases tree.unexpected? allowed <;> rfl

theorem unexpected?_eq_refusal? (tree : ExprDecision) :
    tree.unexpected? allowed = Verdict.refusal? allowed tree.verdicts := by
  induction tree with
  | node decision children ih =>
      rw [unexpected?_node, Decision.unexpected?_eq_refusal?, unexpectedExpr?_of_forall ih,
        verdicts_eq, Verdict.refusal?_append]

end ExprDecision

namespace PlanDecision

def ownVerdicts (operator : PlanDecision) : List Verdict :=
  operator.decision.verdict :: operator.exprs.flatMap ExprDecision.verdicts

/-- The verdicts about a plan in the order of reports: an operator, then its expressions with all
their arguments, then its inputs. -/
def verdicts (tree : PlanDecision) : List Verdict :=
  tree.subtrees.flatMap ownVerdicts

theorem verdicts_eq (decision : Decision HostPlan GpuOperator) (exprs : List ExprDecision)
    (children : List PlanDecision) :
    verdicts ⟨decision, exprs, children⟩ =
      [decision.verdict] ++ (exprs.flatMap ExprDecision.verdicts ++ children.flatMap verdicts) := by
  rw [verdicts, subtrees, subtreesOfAll_eq_flatMap, List.flatMap_cons, List.flatMap_assoc]
  rfl

theorem unexpected?_node (decision : Decision HostPlan GpuOperator) (exprs : List ExprDecision)
    (children : List PlanDecision) :
    unexpected? allowed ⟨decision, exprs, children⟩ =
      (decision.unexpected? allowed).or
        ((unexpectedExpr? allowed exprs).or (unexpectedPlan? allowed children)) := by
  rw [unexpected?]
  cases decision.unexpected? allowed with
  | some error => rfl
  | none => cases unexpectedExpr? allowed exprs <;> rfl

theorem unexpectedPlan?_of_forall {trees : List PlanDecision}
    (each : ∀ tree ∈ trees, tree.unexpected? allowed = Verdict.refusal? allowed tree.verdicts) :
    unexpectedPlan? allowed trees = Verdict.refusal? allowed (trees.flatMap verdicts) := by
  induction trees with
  | nil => rfl
  | cons tree rest ih =>
      obtain ⟨first, later⟩ := List.forall_mem_cons.mp each
      rw [unexpectedPlan?, List.flatMap_cons, Verdict.refusal?_append, ← first, ← ih later]
      cases tree.unexpected? allowed <;> rfl

/-- The search stops at the first unexpected node, and goes on below nodes that may stay. -/
theorem unexpected?_eq_refusal? (tree : PlanDecision) :
    tree.unexpected? allowed = Verdict.refusal? allowed tree.verdicts := by
  induction tree with
  | node decision exprs children ih =>
      have arguments : unexpectedExpr? allowed exprs =
          Verdict.refusal? allowed (exprs.flatMap ExprDecision.verdicts) :=
        ExprDecision.unexpectedExpr?_of_forall fun expr _ => expr.unexpected?_eq_refusal?
      rw [unexpected?_node, Decision.unexpected?_eq_refusal?, arguments,
        unexpectedPlan?_of_forall ih, verdicts_eq, Verdict.refusal?_append, Verdict.refusal?_append]

/-- Whether test mode refuses the operator itself or a part of its expressions. -/
def Unexpected (allowed : List String) (operator : PlanDecision) : Prop :=
  operator.decision.verdict.Unexpected allowed ∨
    ∃ expr ∈ operator.exprs, ∃ part ∈ expr.subtrees, part.decision.verdict.Unexpected allowed

theorem exists_mem_verdicts_iff {tree : PlanDecision} :
    (∃ verdict ∈ tree.verdicts, verdict.Unexpected allowed) ↔
      ∃ operator ∈ tree.subtrees, operator.Unexpected allowed := by
  simp only [verdicts, ownVerdicts, ExprDecision.verdicts, Unexpected, List.mem_flatMap,
    List.mem_cons, List.mem_map]
  constructor
  · rintro ⟨verdict, ⟨operator, within, rfl | ⟨expr, member, part, below, rfl⟩⟩, unexpected⟩
    · exact ⟨operator, within, .inl unexpected⟩
    · exact ⟨operator, within, .inr ⟨expr, member, part, below, unexpected⟩⟩
  · rintro ⟨operator, within, unexpected | ⟨expr, member, part, below, unexpected⟩⟩
    · exact ⟨_, ⟨operator, within, .inl rfl⟩, unexpected⟩
    · exact ⟨_, ⟨operator, within, .inr ⟨expr, member, part, below, rfl⟩⟩, unexpected⟩

end PlanDecision

end

/-- With the built-in rules a plan is refused exactly when test mode finds an unexpected node. -/
theorem place_eq_error_iff {config : Config} {plan : HostPlan} {error : PlacementError} :
    place Builtin.registry config plan = .error error ↔
      config.sqlEnabled = true ∧ config.testEnabled = true ∧
        Verdict.refusal? config.testAllowedNonGpu
          (tagPlan Builtin.registry config plan).verdicts = some error := by
  obtain ⟨node, placed⟩ := (tagPlan_allReady config plan).exists_placedAs
  have converted := PlanDecision.convertIfNeeded_ok_iff.mpr placed
  -- Since conversion succeeds, an error can come from the search of test mode only.
  rw [← PlanDecision.unexpected?_eq_refusal?, place]
  cases config.sqlEnabled with
  | false => simp
  | true =>
      cases config.testEnabled with
      | false => simp [converted, Except.map]
      | true =>
          cases found : (tagPlan Builtin.registry config plan).unexpected?
              config.testAllowedNonGpu with
          | none => simp [found, converted, Except.map]
          | some refusal => simp [found]

/-- A tagged plan always converts. Placement fails in test mode only, exactly when some operator or
some part of its expressions stays on the host without leave; the error then has the name and the
reasons of the first such node in the order of reports. -/
theorem place_fails_iff (config : Config) (plan : HostPlan) :
    let tree := tagPlan Builtin.registry config plan
    tree.Mirrors plan ∧
    (∃ node, (tree.convertIfNeeded Builtin.registry config).1 = .ok node) ∧
    ((∃ error, place Builtin.registry config plan = .error error) ↔
      config.sqlEnabled = true ∧ config.testEnabled = true ∧
        ∃ operator ∈ tree.subtrees, operator.Unexpected config.testAllowedNonGpu) ∧
    ∀ error, place Builtin.registry config plan = .error error ↔
      config.sqlEnabled = true ∧ config.testEnabled = true ∧
        ∃ before verdict after, tree.verdicts = before ++ verdict :: after ∧
          (∀ other ∈ before, ¬ other.Unexpected config.testAllowedNonGpu) ∧
          verdict.Unexpected config.testAllowedNonGpu ∧
          error = .leftOnHost verdict.name verdict.reasons := by
  intro tree
  obtain ⟨node, placed⟩ := (tagPlan_allReady config plan).exists_placedAs
  refine ⟨tagPlan_mirrors Builtin.registry config plan,
    ⟨node, PlanDecision.convertIfNeeded_ok_iff.mpr placed⟩, ?_, fun error => ?_⟩
  · simp only [place_eq_error_iff, exists_and_left]
    rw [Verdict.exists_refusal?_iff, PlanDecision.exists_mem_verdicts_iff]
  · rw [place_eq_error_iff, Verdict.refusal?_eq_some_iff]

end GpuPlacement
