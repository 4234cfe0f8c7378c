import GpuPlacement.Proofs.Ready
/-!
Histories of decision trees: tagging, reasons and conversions in any order. An operator is asked for
its reasons before anything else, an expression for its earlier result.
-/
namespace GpuPlacement

/-- What callers do with the root of a decision tree. -/
inductive Step (Request : Type) where
  | tag (config : Config)
  | reject (reason : String)
  | convert (request : Request)

/-- A conversion of a plan. An ineligible root is an error unless it may stay on the host. -/
structure PlanRequest where
  config : Config
  mayStay : Bool

namespace ExprDecision

def step (registry : Registry) (tree : ExprDecision) : Step Config → ExprDecision
  | .tag config => tree.tag registry config
  | .reject reason => tree.reject reason
  | .convert config => (tree.convert registry config).2

def run (registry : Registry) (tree : ExprDecision) (steps : List (Step Config)) : ExprDecision :=
  steps.foldl (step registry) tree

def made? (registry : Registry) (tree : ExprDecision) : Step Config → Option GpuExpr
  | .tag _ | .reject _ => none
  | .convert config => (tree.convert registry config).1.toOption

/-- The device expressions that a history gives, in order. -/
def made (registry : Registry) : ExprDecision → List (Step Config) → List GpuExpr
  | _, [] => []
  | tree, next :: rest =>
    (tree.made? registry next).toList ++ made registry (tree.step registry next) rest

end ExprDecision

namespace PlanDecision

def request (registry : Registry) (tree : PlanDecision) (request : PlanRequest) :
    Except PlacementError PlacedNode × PlanDecision :=
  if request.mayStay then tree.convertIfNeeded registry request.config
  else tree.convert registry request.config

def step (registry : Registry) (tree : PlanDecision) : Step PlanRequest → PlanDecision
  | .tag config => tree.tag registry config
  | .reject reason => tree.reject reason
  | .convert request => (tree.request registry request).2

def run (registry : Registry) (tree : PlanDecision) (steps : List (Step PlanRequest)) :
    PlanDecision :=
  steps.foldl (step registry) tree

end PlanDecision

variable {registry : Registry} {config : Config}

theorem Decision.ensureEligible_of_rejected {Node Op : Type} [HostNode Node]
    {decision : Decision Node Op} (rejected : decision.reasons ≠ []) :
    decision.ensureEligible = .error (.notConvertible decision.short decision.reasons) := by
  have ineligible : decision.eligible = false := by
    rwa [eligible, List.isEmpty_eq_false_iff]
  rw [ensureEligible, ineligible]
  cases decision.rule <;> rfl

namespace ExprDecision

theorem convert_of_converted {tree : ExprDecision} {done : GpuExpr}
    (known : tree.decision.converted = some done) :
    tree.convert registry config = (.ok done, tree) := by
  obtain ⟨decision, children⟩ := tree
  have same : decision.converted = some done := known
  rw [convert, same]

theorem convert_of_rejected {tree : ExprDecision} (fresh : tree.decision.converted = none)
    (rejected : tree.decision.reasons ≠ []) :
    tree.convert registry config =
      (.error (.notConvertible tree.short tree.decision.reasons), tree) := by
  obtain ⟨decision, children⟩ := tree
  have same : decision.converted = none := fresh
  rw [convert, same, Decision.ensureEligible_of_rejected rejected]
  rfl

/-- A tree remembers what it was converted to first. -/
theorem convert_converted (tree : ExprDecision) :
    (tree.convert registry config).2.decision.converted =
      tree.decision.converted.or (tree.convert registry config).1.toOption := by
  cases known : tree.decision.converted with
  | some done =>
      rw [convert_of_converted known]
      exact known
  | none =>
      -- Of all ways through a conversion only the last one succeeds, and only it remembers.
      obtain ⟨decision, children⟩ := tree
      have fresh : decision.converted = none := known
      rw [convert, fresh]
      cases decision.ensureEligible with
      | error error => exact fresh
      | ok rule =>
          dsimp only
          rcases convertAll registry config children with ⟨error | arguments, left⟩
          · exact fresh
          · dsimp only
            cases combine registry config decision arguments with
            | error error => exact fresh
            | ok expr => rfl

theorem step_converted (tree : ExprDecision) (next : Step Config) :
    (tree.step registry next).decision.converted =
      tree.decision.converted.or (tree.made? registry next) := by
  cases next with
  | tag config => exact (tag_converted ..).trans (Option.or_none ..).symm
  | reject reason => exact (Option.or_none ..).symm
  | convert config => exact convert_converted tree

theorem run_converted (tree : ExprDecision) (steps : List (Step Config)) :
    (tree.run registry steps).decision.converted =
      tree.decision.converted.or (made registry tree steps).head? := by
  induction steps generalizing tree with
  | nil => exact (Option.or_none ..).symm
  | cons next rest ih =>
      rw [run, List.foldl_cons, ← run, ih, step_converted, made, List.head?_append,
        Option.head?_toList, Option.or_assoc]

end ExprDecision

namespace PlanDecision

theorem convert_of_rejected {tree : PlanDecision} (rejected : tree.decision.reasons ≠ []) :
    tree.convert registry config =
      (.error (.notConvertible tree.short tree.decision.reasons), tree) := by
  obtain ⟨decision, exprs, children⟩ := tree
  rw [convert, Decision.ensureEligible_of_rejected rejected]
  rfl

end PlanDecision

/-- Whatever happened to it before, an operator with a reason is not converted, and the error names
its reasons. An expression with a reason still gives what it was converted to first, and only
without an earlier result the error that names its reasons. -/
theorem convert_rejected_after_run (registry : Registry) :
    (∀ parent plan steps config,
      let tree := (PlanDecision.ofPlanBelow registry parent plan).run registry steps
      tree.decision.reasons ≠ [] →
        tree.convert registry config =
          (.error (.notConvertible tree.short tree.decision.reasons), tree)) ∧
    ∀ kind parent owner expr steps config,
      let fresh := ExprDecision.ofExprAt registry kind parent owner expr
      let tree := fresh.run registry steps
      tree.decision.reasons ≠ [] →
        tree.convert registry config =
          ((fresh.made registry steps).head?.elim
            (.error (.notConvertible tree.short tree.decision.reasons)) .ok, tree) := by
  constructor
  · intro parent plan steps config tree rejected
    exact PlanDecision.convert_of_rejected rejected
  · intro kind parent owner expr steps config fresh tree rejected
    have unconverted : fresh.decision.converted = none :=
      ExprDecision.ofExprAt_converted registry kind parent owner expr
    have known : tree.decision.converted = (fresh.made registry steps).head? := by
      rw [ExprDecision.run_converted, unconverted, Option.none_or]
    cases first : (fresh.made registry steps).head? with
    | some done => exact ExprDecision.convert_of_converted (known.trans first)
    | none => exact ExprDecision.convert_of_rejected (known.trans first) rejected

def lateReason {Request : Type} (request : Request) : List (Step Request) :=
  [.tag .default, .convert request, .reject "left to the host on request"]

theorem ExprDecision.reasons_lateReason (tree : ExprDecision) :
    (tree.run registry (lateReason config)).decision.reasons ≠ [] :=
  List.concat_ne_nil _ _

theorem ExprDecision.made_lateReason {tree : ExprDecision} {done : GpuExpr}
    (converts : ((tree.tag registry .default).convert registry config).1 = .ok done) :
    (tree.made registry (lateReason config)).head? = some done := by
  change (((tree.tag registry .default).convert registry config).1.toOption.toList ++ []).head? = _
  rw [converts]
  rfl

theorem PlanDecision.reasons_lateReason (tree : PlanDecision) (request : PlanRequest) :
    (tree.run registry (lateReason request)).decision.reasons ≠ [] :=
  List.concat_ne_nil _ _

def seven : ExprDecision :=
  .ofExprAt Builtin.registry .expression none none (.literal (.int 7))

theorem seven_converts : ∃ done,
    ((seven.tag Builtin.registry .default).convert Builtin.registry .default).1 = .ok done := by
  obtain ⟨eligible, -⟩ : (seven.tag Builtin.registry .default).eligible = true ∧
      (seven.tag Builtin.registry .default).decision.noOp = false :=
    ExprDecision.tag_of_rule (ExprDecision.ofExprAt_reasons ..) rfl (List.forall_mem_nil _)
      (by decide +kernel)
  exact ExprDecision.convert_tag_ok eligible

/-- An operator without a rule, and a literal that was converted in time. -/
theorem convert_rejected_after_run_lateReason :
    let plan := (PlanDecision.ofPlan Builtin.registry (HostPlan.ofClass "RangeExec")).run
      Builtin.registry (lateReason ⟨.default, true⟩)
    let expr := seven.run Builtin.registry (lateReason .default)
    (plan.decision.reasons ≠ [] ∧ plan.convert Builtin.registry .default =
      (.error (.notConvertible plan.short plan.decision.reasons), plan)) ∧
    expr.decision.reasons ≠ [] ∧ ∃ done, expr.convert Builtin.registry .default =
      (.ok done, expr) := by
  intro plan expr
  obtain ⟨operators, exprs⟩ := convert_rejected_after_run Builtin.registry
  have refused : plan.decision.reasons ≠ [] := PlanDecision.reasons_lateReason _ _
  have rejected : expr.decision.reasons ≠ [] := seven.reasons_lateReason
  obtain ⟨done, converts⟩ := seven_converts
  refine ⟨⟨refused, operators none _ _ .default refused⟩, rejected, done, ?_⟩
  have result := exprs .expression none none (.literal (.int 7)) (lateReason .default) .default
    rejected
  rw [← seven, ExprDecision.made_lateReason converts] at result
  exact result

/-- A reason does not stop the conversion of an expression that was converted before. -/
theorem not_forall_convert_rejected :
    ¬ ∀ registry kind parent owner expr steps config,
      let tree := (ExprDecision.ofExprAt registry kind parent owner expr).run registry steps
      tree.decision.reasons ≠ [] →
        (tree.convert registry config).1 =
          .error (.notConvertible tree.short tree.decision.reasons) := by
  intro always
  obtain ⟨done, converts⟩ := seven_converts
  have refused := always Builtin.registry .expression none none (.literal (.int 7))
    (lateReason .default) .default seven.reasons_lateReason
  have known :
      (seven.run Builtin.registry (lateReason .default)).decision.converted = some done := by
    rw [ExprDecision.run_converted, ExprDecision.made_lateReason converts, seven,
      ExprDecision.ofExprAt_converted, Option.none_or]
  rw [← seven, ExprDecision.convert_of_converted known] at refused
  cases refused

end GpuPlacement
