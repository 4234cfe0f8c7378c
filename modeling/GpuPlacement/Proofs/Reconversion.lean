import GpuPlacement.Proofs.Failures
/-!
Conversions one after the other. What a tree was converted to first stays in it, so later
conversions give the same result, apart from transitions, which every conversion makes anew.
-/
namespace GpuPlacement

namespace ExprDecision

variable {registry : Registry} {config other : Config}

/-- Settings have no part in the failure of a node whose arguments are converted. -/
theorem combine_error {decision : Decision HostExpr GpuExpr} {arguments : List GpuExpr}
    {error : PlacementError} (failed : combine registry config decision arguments = .error error) :
    combine registry other decision arguments = .error error := by
  unfold combine at failed ⊢
  split at failed
  next marked => rwa [if_pos marked]
  next => cases failed

theorem convertAll_again {trees : List ExprDecision}
    (each : ∀ tree ∈ trees, ((tree.convert registry config).2).convert registry other =
      tree.convert registry config) :
    convertAll registry other (convertAll registry config trees).2 =
      convertAll registry config trees := by
  induction trees with
  | nil => rfl
  | cons tree rest ih =>
      obtain ⟨first, later⟩ := List.forall_mem_cons.mp each
      have again := ih later
      rw [convertAll]
      rcases made : tree.convert registry config with ⟨error | expr, left⟩
      · rw [made] at first
        simp only [convertAll, first]
      · rw [made] at first
        rcases others : convertAll registry config rest with ⟨error | exprs, leftOver⟩
        · rw [others] at again
          simp only [convertAll, first, again]
        · rw [others] at again
          simp only [convertAll, first, again]

/-- A second conversion gives the result of the first one, an error included, under any settings. -/
theorem convert_again (tree : ExprDecision) (config other : Config) :
    ((tree.convert registry config).2).convert registry other = tree.convert registry config := by
  induction tree with
  | node decision children ih =>
      cases known : decision.converted with
      | some done =>
          have stored : ∀ settings, convert registry settings ⟨decision, children⟩ =
              (.ok done, ⟨decision, children⟩) := fun _ => convert_of_converted known
          rw [stored, stored]
      | none =>
          -- Arguments before a failure are remembered, and the second call fails at the same one.
          have arguments : convertAll registry other (convertAll registry config children).2 =
              convertAll registry config children := convertAll_again ih
          rw [convert, known]
          cases allowed : decision.ensureEligible with
          | error error => simp only [convert, known, allowed]
          | ok rule =>
              rcases done : convertAll registry config children with ⟨error | exprs, left⟩
              · rw [done] at arguments
                simp only [convert, known, allowed, arguments]
              · rw [done] at arguments
                cases combined : combine registry config decision exprs with
                | error error =>
                    simp only [convert, known, allowed, arguments, combine_error combined]
                | ok expr => simp only [convert, combined]

end ExprDecision

/-- The operator with another target size, if it is a transition to batches. -/
def PlacedOperator.retarget (batchBytes : UInt64) : PlacedOperator → PlacedOperator
  | .gpu operator => .gpu operator
  | .host operator => .host operator
  | .rowToColumnar _ => .rowToColumnar batchBytes
  | .columnarToRow => .columnarToRow

namespace PlacedNode

mutual

/-- The same tree with another target size in all its transitions. -/
def retarget (batchBytes : UInt64) : PlacedNode → PlacedNode
  | ⟨operator, inputs⟩ => ⟨operator.retarget batchBytes, retargetAll batchBytes inputs⟩

def retargetAll (batchBytes : UInt64) : List PlacedNode → List PlacedNode
  | [] => []
  | node :: rest => node.retarget batchBytes :: retargetAll batchBytes rest

end

variable (batchBytes : UInt64)

theorem retargetAll_eq_map (nodes : List PlacedNode) :
    retargetAll batchBytes nodes = nodes.map (retarget batchBytes) :=
  eq_map_of_cons rfl (fun _ _ => rfl) nodes

@[simp] theorem isColumnar_retarget (node : PlacedNode) :
    (node.retarget batchBytes).isColumnar = node.isColumnar := by
  obtain ⟨operator, inputs⟩ := node
  rw [retarget]
  cases operator <;> rfl

theorem retarget_intoRows (node : PlacedNode) :
    node.intoRows.retarget batchBytes = (node.retarget batchBytes).intoRows := by
  rw [intoRows, intoRows, isColumnar_retarget]
  split <;> rfl

theorem retarget_intoColumnar (size : UInt64) (node : PlacedNode) :
    (node.intoColumnar size).retarget batchBytes =
      (node.retarget batchBytes).intoColumnar batchBytes := by
  rw [intoColumnar, intoColumnar, isColumnar_retarget]
  split <;> rfl

theorem retarget_host (operator : HostOperator) (nodes : List PlacedNode) :
    retarget batchBytes ⟨.host operator, nodes.map intoRows⟩ =
      ⟨.host operator, (nodes.map (retarget batchBytes)).map intoRows⟩ := by
  rw [retarget, retargetAll_eq_map, List.map_map, List.map_map]
  exact congrArg (mk _) (List.map_congr_left fun node _ => retarget_intoRows batchBytes node)

theorem retarget_gpu (size : UInt64) (operator : GpuOperator) (nodes : List PlacedNode) :
    retarget batchBytes ⟨.gpu operator, nodes.map (intoColumnar size)⟩ =
      ⟨.gpu operator, (nodes.map (retarget batchBytes)).map (intoColumnar batchBytes)⟩ := by
  rw [retarget, retargetAll_eq_map, List.map_map, List.map_map]
  exact congrArg (mk _)
    (List.map_congr_left fun node _ => retarget_intoColumnar batchBytes size node)

end PlacedNode

namespace PlanDecision

variable {registry : Registry} {config other : Config}

/-- Transitions get the target size of the conversion that makes them. -/
theorem PlacedAs.retarget {tree : PlanDecision} {node : PlacedNode}
    (placed : tree.PlacedAs registry config node) :
    node.retarget config.batchSizeBytes = node := by
  induction placed using PlacedAs.rec
    (motive_2 := fun _ nodes _ => nodes.map (.retarget config.batchSizeBytes) = nodes) with
    | kept _ _ inputs => rw [PlacedNode.retarget_host, inputs]
    | elided _ _ _ below => exact below
    | replaced _ _ _ _ inputs => rw [PlacedNode.retarget_gpu, inputs]
    | nil => rfl
    | cons _ _ first later => rw [List.map_cons, first, later]

/-- A second conversion repeats the first one, and transitions get its own target size. -/
def Repeats (registry : Registry) (config other : Config) (tree : PlanDecision) : Prop :=
  ((tree.convertIfNeeded registry config).2).convertIfNeeded registry other =
    ((tree.convertIfNeeded registry config).1.map (.retarget other.batchSizeBytes),
      (tree.convertIfNeeded registry config).2)

theorem convertInputs_again {trees : List PlanDecision}
    (each : ∀ tree ∈ trees, tree.Repeats registry config other) :
    convertInputs registry other (convertInputs registry config trees).2 =
      ((convertInputs registry config trees).1.map (List.map (.retarget other.batchSizeBytes)),
        (convertInputs registry config trees).2) := by
  induction trees with
  | nil => rfl
  | cons tree rest ih =>
      obtain ⟨first, later⟩ := List.forall_mem_cons.mp each
      have again := ih later
      rw [Repeats] at first
      rw [convertInputs_cons]
      rcases made : tree.convertIfNeeded registry config with ⟨error | node, left⟩
      · rw [made] at first
        simp only [convertInputs_cons, first, Except.map]
      · rw [made] at first
        rcases others : convertInputs registry config rest with ⟨error | nodes, leftOver⟩
        · rw [others] at again
          simp only [convertInputs_cons, first, again, Except.map]
        · rw [others] at again
          simp only [convertInputs_cons, first, again, Except.map, List.map_cons]

theorem convert_eligible (tree : PlanDecision) :
    (tree.convert registry config).2.eligible = tree.eligible :=
  eligible_of_unconverted tree.convert_unconverted

theorem keepOnHost_decision (tree : PlanDecision) :
    (tree.keepOnHost registry config).2.decision = tree.decision := by
  obtain ⟨decision, exprs, children⟩ := tree
  rw [keepOnHost]
  rcases convertInputs registry config children with ⟨error | nodes, left⟩ <;> rfl

theorem keepOnHost_again {tree : PlanDecision}
    (each : ∀ child ∈ tree.children, child.Repeats registry config other) :
    ((tree.keepOnHost registry config).2).keepOnHost registry other =
      ((tree.keepOnHost registry config).1.map (.retarget other.batchSizeBytes),
        (tree.keepOnHost registry config).2) := by
  obtain ⟨decision, exprs, children⟩ := tree
  have inputs := convertInputs_again each
  rw [keepOnHost]
  rcases made : convertInputs registry config children with ⟨error | nodes, left⟩
  · rw [made] at inputs
    simp only [keepOnHost, inputs, Except.map]
  · rw [made] at inputs
    simp only [keepOnHost, inputs, Except.map, PlacedNode.retarget_host]

/-- The operator is remembered before its inputs are converted, and so even if one of them fails. -/
theorem replaced_again {decision : Decision HostPlan GpuOperator} {rule : RuleSpec}
    {children : List PlanDecision} (allowed : decision.ensureEligible = .ok rule)
    (stays : decision.noOp = false) (exprs : List ExprDecision)
    (each : ∀ child ∈ children, child.Repeats registry config other) :
    ((convert registry config ⟨decision, exprs, children⟩).2).convert registry other =
      ((convert registry config ⟨decision, exprs, children⟩).1.map (.retarget other.batchSizeBytes),
        (convert registry config ⟨decision, exprs, children⟩).2) := by
  have inputs := convertInputs_again each
  have arguments : ExprDecision.convertAll registry other
      (ExprDecision.convertAll registry config exprs).2 =
        ExprDecision.convertAll registry config exprs :=
    ExprDecision.convertAll_again fun expr _ => expr.convert_again config other
  have remembered : ∀ operator, (decision.remember operator).ensureEligible = .ok rule :=
    fun _ => allowed
  rw [convert_replaced allowed stays]
  rcases done : ExprDecision.convertAll registry config exprs with
    ⟨error | converted, expressions⟩
  · rw [done] at arguments
    simp only [convert_replaced allowed stays, arguments, Except.map]
  · rw [done] at arguments
    rcases made : convertInputs registry config children with ⟨error | nodes, left⟩
    · rw [made] at inputs
      simp only [convert_replaced (remembered _) stays, arguments, inputs, Except.map]
      rfl
    · rw [made] at inputs
      simp only [convert_replaced (remembered _) stays, arguments, inputs, Except.map,
        PlacedNode.retarget_gpu]
      rfl

theorem convert_again {tree : PlanDecision}
    (each : ∀ child ∈ tree.children, child.Repeats registry config other) :
    ((tree.convert registry config).2).convert registry other =
      ((tree.convert registry config).1.map (.retarget other.batchSizeBytes),
        (tree.convert registry config).2) := by
  obtain ⟨decision, exprs, children⟩ := tree
  cases allowed : decision.ensureEligible with
  | error error => simp only [convert, allowed, Except.map]
  | ok rule =>
      cases leaves : decision.noOp with
      | false => exact replaced_again allowed leaves exprs each
      | true =>
          cases children with
          | nil => simp only [convert, allowed, leaves, if_true, convertFirst, Except.map]
          | cons first rest =>
              rw [convert_elided allowed leaves, convert_elided allowed leaves,
                each first List.mem_cons_self]

theorem repeats (tree : PlanDecision) (config other : Config) :
    tree.Repeats registry config other := by
  induction tree with
  | node decision exprs children ih =>
      cases eligible : eligible ⟨decision, exprs, children⟩ with
      | false =>
          have stays :
              (keepOnHost registry config ⟨decision, exprs, children⟩).2.eligible = false :=
            (congrArg Decision.eligible (keepOnHost_decision _)).trans eligible
          rw [Repeats, convertIfNeeded_of_ineligible eligible, convertIfNeeded, stays]
          exact keepOnHost_again ih
      | true =>
          rw [Repeats, convertIfNeeded_of_eligible eligible, convertIfNeeded, convert_eligible,
            eligible]
          exact convert_again ih

theorem request_eq (tree : PlanDecision) (config : Config) (mayStay : Bool)
    (effective : (tree.eligible || mayStay) = true) :
    tree.request registry ⟨config, mayStay⟩ = tree.convertIfNeeded registry config := by
  cases mayStay with
  | true => rfl
  | false =>
      rw [Bool.or_false] at effective
      exact (if_pos effective).symm

/-- A plan that must not stay on the host is refused without a look at its parts. -/
theorem request_refused {tree : PlanDecision} {config : Config} {mayStay : Bool}
    (refused : (tree.eligible || mayStay) = false) :
    tree.request registry ⟨config, mayStay⟩ =
      (.error (.notConvertible tree.short tree.decision.reasons), tree) := by
  obtain ⟨ineligible, rfl⟩ := Bool.or_eq_false_iff.mp refused
  exact convert_of_rejected (List.isEmpty_eq_false_iff.mp ineligible)

theorem convertIfNeeded_eligible (tree : PlanDecision) :
    (tree.convertIfNeeded registry config).2.eligible = tree.eligible :=
  eligible_of_unconverted tree.convertIfNeeded_unconverted

/-- The first effective conversion decides what later ones find. -/
theorem run_requests (tree : PlanDecision) (history : List PlanRequest) :
    tree.run registry (history.map .convert) =
      (history.find? fun request => tree.eligible || request.mayStay).elim tree
        fun first => (tree.convertIfNeeded registry first.config).2 := by
  induction history generalizing tree with
  | nil => rfl
  | cons next rest ih =>
      obtain ⟨config, mayStay⟩ := next
      rw [List.map_cons, run, List.foldl_cons, ← run, step]
      cases effective : tree.eligible || mayStay with
      | true =>
          rw [request_eq tree config mayStay effective, ih, List.find?_cons, effective]
          cases rest.find? fun request =>
              (tree.convertIfNeeded registry config).2.eligible || request.mayStay with
          | none => rfl
          | some later =>
              -- The later conversion finds what this one left, and leaves it as it is.
              have again : tree.Repeats registry config later.config := tree.repeats _ _
              rw [Repeats] at again
              rw [Option.elim_some, again, Option.elim_some]
      | false => rw [request_refused effective, ih, List.find?_cons, effective]

theorem request_retarget (tree : PlanDecision) (request : PlanRequest) :
    (tree.request registry request).1.map (.retarget request.config.batchSizeBytes) =
      (tree.request registry request).1 := by
  obtain ⟨config, mayStay⟩ := request
  cases effective : tree.eligible || mayStay with
  | false =>
      rw [request_refused effective]
      rfl
  | true =>
      rw [request_eq tree config mayStay effective]
      cases made : (tree.convertIfNeeded registry config).1 with
      | error error => rfl
      | ok node => exact congrArg Except.ok (convertIfNeeded_ok_iff.mp made).retarget

theorem request_again (tree : PlanDecision) (config : Config) (request : PlanRequest) :
    (((tree.convertIfNeeded registry config).2).request registry request).1 =
      (tree.request registry ⟨config, request.mayStay⟩).1.map
        (.retarget request.config.batchSizeBytes) := by
  obtain ⟨other, mayStay⟩ := request
  cases effective : tree.eligible || mayStay with
  | true =>
      have again : tree.Repeats registry config other := tree.repeats _ _
      rw [Repeats] at again
      rw [request_eq tree config mayStay effective, request_eq, again]
      rw [convertIfNeeded_eligible, effective]
  | false =>
      obtain ⟨ineligible, rfl⟩ := Bool.or_eq_false_iff.mp effective
      have kept : (tree.convertIfNeeded registry config).2.decision = tree.decision := by
        rw [convertIfNeeded, ineligible]
        exact keepOnHost_decision tree
      rw [request_refused effective, request_refused]
      · rw [short, kept]
        rfl
      · rw [eligible, kept]
        exact effective

/-- A conversion after others gives what the first effective one made, with its own target sizes. -/
theorem request_after (tree : PlanDecision) (history : List PlanRequest) (last : PlanRequest) :
    ((tree.run registry (history.map .convert)).request registry last).1 =
      (tree.request registry
        ⟨((history.find? fun request => tree.eligible || request.mayStay).getD last).config,
          last.mayStay⟩).1.map (.retarget last.config.batchSizeBytes) := by
  rw [run_requests]
  cases history.find? fun request => tree.eligible || request.mayStay with
  | none => exact (tree.request_retarget last).symm
  | some first => exact tree.request_again first.config last

end PlanDecision

namespace ExprDecision

variable {registry : Registry}

theorem run_conversions (tree : ExprDecision) (history : List Config) :
    tree.run registry (history.map .convert) =
      history.head?.elim tree fun first => (tree.convert registry first).2 := by
  induction history generalizing tree with
  | nil => rfl
  | cons first rest ih =>
      rw [List.map_cons, run, List.foldl_cons, ← run, ih, step]
      cases rest with
      | nil => rfl
      | cons next _ => exact congrArg Prod.snd (tree.convert_again first next)

theorem convert_after (tree : ExprDecision) (history : List Config) (last : Config) :
    (tree.run registry (history.map .convert)).convert registry last =
      tree.convert registry (history.headD last) := by
  rw [run_conversions]
  cases history with
  | nil => rfl
  | cons first rest => exact tree.convert_again first last

end ExprDecision

end GpuPlacement
