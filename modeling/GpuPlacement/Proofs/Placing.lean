import GpuPlacement.Proofs.Tree
/-!
Successful conversion as a relation between decision trees and placed nodes. The relation says
nothing about the trees that conversion leaves behind.
-/
namespace GpuPlacement

theorem bind_eq_ok_iff {ε α β : Type} {result : Except ε α} {next : α → Except ε β} {value : β} :
    result.bind next = .ok value ↔ ∃ first, result = .ok first ∧ next first = .ok value := by
  cases result <;> simp [Except.bind]

theorem map_eq_ok_iff {ε α β : Type} {result : Except ε α} {f : α → β} {value : β} :
    result.map f = .ok value ↔ ∃ first, result = .ok first ∧ f first = value := by
  cases result <;> simp [Except.map]

variable {registry : Registry} {config : Config}

theorem ExprDecision.convertAll_cons_fst (tree : ExprDecision) (rest : List ExprDecision) :
    (convertAll registry config (tree :: rest)).1 =
      (tree.convert registry config).1.bind fun expr =>
        (convertAll registry config rest).1.map (expr :: ·) := by
  rw [convertAll]
  rcases tree.convert registry config with ⟨error | expr, left⟩
  · rfl
  · rcases convertAll registry config rest with ⟨error | exprs, leftOver⟩ <;> rfl

/-- Conversion of a list succeeds exactly when every conversion does, and keeps the order. -/
theorem ExprDecision.convertAll_ok_iff {trees : List ExprDecision} {exprs : List GpuExpr} :
    (convertAll registry config trees).1 = .ok exprs ↔
      trees.map (fun tree => (tree.convert registry config).1) = exprs.map .ok := by
  induction trees generalizing exprs with
  | nil => cases exprs <;> simp [convertAll]
  | cons tree rest ih =>
      simp only [convertAll_cons_fst, bind_eq_ok_iff, map_eq_ok_iff, ih, List.map_cons]
      constructor
      · rintro ⟨expr, first, exprs, later, rfl⟩
        rw [first, later, List.map_cons]
      · intro same
        cases exprs with
        | nil => cases same
        | cons expr exprs =>
            obtain ⟨first, later⟩ := List.cons.inj same
            exact ⟨expr, first, exprs, later, rfl⟩

/-- The decision after a successful conversion. -/
def Decision.remember {Node Op : Type} (decision : Decision Node Op) (op : Op) :
    Decision Node Op :=
  { decision with converted := some op }

theorem Decision.eligible_of_ensureEligible {Node Op : Type} [HostNode Node]
    {decision : Decision Node Op} {rule : RuleSpec} (h : decision.ensureEligible = .ok rule) :
    decision.eligible = true := by
  unfold ensureEligible at h
  split at h
  · assumption
  · cases h

namespace PlanDecision

mutual

/-- What conversion makes of a decision tree: an ineligible operator stays on the host, an eligible
one gives way to its first input if it is left out, and to a device operator otherwise. -/
inductive PlacedAs (registry : Registry) (config : Config) : PlanDecision → PlacedNode → Prop
  | kept {decision exprs children nodes} : decision.eligible = false →
      AllPlacedAs registry config children nodes →
      PlacedAs registry config ⟨decision, exprs, children⟩
        ⟨.host (.ofPlan decision.node), nodes.map .intoRows⟩
  | elided {decision exprs child rest node} {rule : RuleSpec} : decision.ensureEligible = .ok rule →
      decision.noOp = true → PlacedAs registry config child node →
      PlacedAs registry config ⟨decision, exprs, child :: rest⟩ node
  | replaced {decision exprs children converted nodes} {rule : RuleSpec} :
      decision.ensureEligible = .ok rule → decision.noOp = false →
      (ExprDecision.convertAll registry config exprs).1 = .ok converted →
      AllPlacedAs registry config children nodes →
      PlacedAs registry config ⟨decision, exprs, children⟩
        ⟨.gpu (operatorOf registry config decision converted),
          nodes.map (.intoColumnar config.batchSizeBytes)⟩

inductive AllPlacedAs (registry : Registry) (config : Config) :
    List PlanDecision → List PlacedNode → Prop
  | nil : AllPlacedAs registry config [] []
  | cons {tree node trees nodes} : PlacedAs registry config tree node →
      AllPlacedAs registry config trees nodes →
      AllPlacedAs registry config (tree :: trees) (node :: nodes)

end

theorem AllPlacedAs.forall₂ {trees : List PlanDecision} {nodes : List PlacedNode}
    (h : AllPlacedAs registry config trees nodes) :
    List.Forall₂ (PlacedAs registry config) trees nodes := by
  induction trees generalizing nodes with
  | nil =>
      cases h
      exact .nil
  | cons tree rest ih =>
      cases h with
      | cons first later => exact .cons first (ih later)

theorem convertInputs_cons (tree : PlanDecision) (rest : List PlanDecision) :
    convertInputs registry config (tree :: rest) =
      match tree.convertIfNeeded registry config with
      | (.error error, tree) => (.error error, tree :: rest)
      | (.ok node, tree) =>
        match convertInputs registry config rest with
        | (.error error, rest) => (.error error, tree :: rest)
        | (.ok nodes, rest) => (.ok (node :: nodes), tree :: rest) := by
  rw [convertInputs]
  rfl

theorem convertInputs_cons_fst (tree : PlanDecision) (rest : List PlanDecision) :
    (convertInputs registry config (tree :: rest)).1 =
      (tree.convertIfNeeded registry config).1.bind fun node =>
        (convertInputs registry config rest).1.map (node :: ·) := by
  rw [convertInputs_cons]
  rcases tree.convertIfNeeded registry config with ⟨error | node, left⟩
  · rfl
  · rcases convertInputs registry config rest with ⟨error | nodes, leftOver⟩ <;> rfl

theorem allPlacedAs_of_convertInputs {trees : List PlanDecision} {nodes : List PlacedNode}
    (each : ∀ tree ∈ trees, ∀ node, (tree.convertIfNeeded registry config).1 = .ok node →
      PlacedAs registry config tree node)
    (done : (convertInputs registry config trees).1 = .ok nodes) :
    AllPlacedAs registry config trees nodes := by
  induction trees generalizing nodes with
  | nil =>
      cases done
      exact .nil
  | cons tree rest ih =>
      simp only [convertInputs_cons_fst, bind_eq_ok_iff, map_eq_ok_iff] at done
      obtain ⟨node, made, others, later, rfl⟩ := done
      obtain ⟨first, remaining⟩ := List.forall_mem_cons.mp each
      exact .cons (first node made) (ih remaining later)

theorem keepOnHost_fst (decision : Decision HostPlan GpuOperator) (exprs : List ExprDecision)
    (children : List PlanDecision) :
    (keepOnHost registry config ⟨decision, exprs, children⟩).1 =
      (convertInputs registry config children).1.map fun nodes =>
        ⟨.host (.ofPlan decision.node), nodes.map .intoRows⟩ := by
  rw [keepOnHost]
  rcases convertInputs registry config children with ⟨error | nodes, left⟩ <;> rfl

theorem convert_elided {decision : Decision HostPlan GpuOperator} {rule : RuleSpec}
    (allowed : decision.ensureEligible = .ok rule) (leaves : decision.noOp = true)
    (exprs : List ExprDecision) (child : PlanDecision) (rest : List PlanDecision) :
    convert registry config ⟨decision, exprs, child :: rest⟩ =
      ((child.convertIfNeeded registry config).1,
        ⟨decision, exprs, (child.convertIfNeeded registry config).2 :: rest⟩) := by
  rw [convert, allowed]
  dsimp only
  rw [if_pos leaves, convertFirst]
  rfl

/-- An operator remembers its replacement as soon as its expressions are converted. -/
theorem convert_replaced {decision : Decision HostPlan GpuOperator} {rule : RuleSpec}
    (allowed : decision.ensureEligible = .ok rule) (stays : decision.noOp = false)
    (exprs : List ExprDecision) (children : List PlanDecision) :
    convert registry config ⟨decision, exprs, children⟩ =
      match ExprDecision.convertAll registry config exprs with
      | (.error error, exprs) => (.error error, ⟨decision, exprs, children⟩)
      | (.ok converted, exprs) =>
        let operator := operatorOf registry config decision converted
        match convertInputs registry config children with
        | (.error error, children) => (.error error, ⟨decision.remember operator, exprs, children⟩)
        | (.ok inputs, children) =>
          (.ok ⟨.gpu operator, inputs.map (.intoColumnar config.batchSizeBytes)⟩,
            ⟨decision.remember operator, exprs, children⟩) := by
  rw [convert, allowed]
  dsimp only
  rw [if_neg (stays ▸ Bool.false_ne_true)]
  rfl

/-- A device operator needs all its expressions first, then all its inputs. -/
theorem convert_replaced_fst {decision : Decision HostPlan GpuOperator} {rule : RuleSpec}
    (allowed : decision.ensureEligible = .ok rule) (stays : decision.noOp = false)
    (exprs : List ExprDecision) (children : List PlanDecision) :
    (convert registry config ⟨decision, exprs, children⟩).1 =
      (ExprDecision.convertAll registry config exprs).1.bind fun converted =>
        (convertInputs registry config children).1.map fun nodes =>
          ⟨.gpu (operatorOf registry config decision converted),
            nodes.map (.intoColumnar config.batchSizeBytes)⟩ := by
  rw [convert_replaced allowed stays]
  rcases ExprDecision.convertAll registry config exprs with ⟨error | converted, left⟩
  · rfl
  · rcases convertInputs registry config children with ⟨error | nodes, leftOver⟩ <;> rfl

theorem convertIfNeeded_of_eligible {decision : Decision HostPlan GpuOperator}
    {exprs : List ExprDecision} {children : List PlanDecision}
    (eligible : decision.eligible = true) :
    convertIfNeeded registry config ⟨decision, exprs, children⟩ =
      convert registry config ⟨decision, exprs, children⟩ :=
  if_pos eligible

theorem convertIfNeeded_of_ineligible {decision : Decision HostPlan GpuOperator}
    {exprs : List ExprDecision} {children : List PlanDecision}
    (ineligible : decision.eligible = false) :
    convertIfNeeded registry config ⟨decision, exprs, children⟩ =
      keepOnHost registry config ⟨decision, exprs, children⟩ :=
  if_neg (by simp only [PlanDecision.eligible, ineligible, Bool.false_eq_true, not_false_eq_true])

/-- Whatever conversion returns is a placement of the tree. -/
theorem placedAs_of_convertIfNeeded {tree : PlanDecision} {node : PlacedNode}
    (done : (tree.convertIfNeeded registry config).1 = .ok node) :
    PlacedAs registry config tree node := by
  induction tree generalizing node with
  | node decision exprs children ih =>
      cases eligible : decision.eligible with
      | false =>
          rw [convertIfNeeded_of_ineligible eligible, keepOnHost_fst, map_eq_ok_iff] at done
          obtain ⟨nodes, inputs, rfl⟩ := done
          exact .kept eligible
            (allPlacedAs_of_convertInputs (fun child member _ => ih child member) inputs)
      | true =>
          rw [convertIfNeeded_of_eligible eligible] at done
          cases allowed : decision.ensureEligible with
          | error error =>
              rw [convert, allowed] at done
              cases done
          | ok rule =>
              cases elided : decision.noOp with
              | true =>
                  cases children with
                  | nil =>
                      rw [convert, allowed] at done
                      simp only [elided, if_true, convertFirst] at done
                      cases done
                  | cons child rest =>
                      rw [convert_elided allowed elided] at done
                      exact .elided allowed elided (ih child List.mem_cons_self done)
              | false =>
                  rw [convert_replaced_fst allowed elided] at done
                  simp only [bind_eq_ok_iff, map_eq_ok_iff] at done
                  obtain ⟨converted, arguments, nodes, inputs, rfl⟩ := done
                  exact .replaced allowed elided arguments
                    (allPlacedAs_of_convertInputs (fun child member _ => ih child member) inputs)

/-- Conversion succeeds exactly with the placements of a tree. -/
theorem convertIfNeeded_ok_iff {tree : PlanDecision} {node : PlacedNode} :
    (tree.convertIfNeeded registry config).1 = .ok node ↔ PlacedAs registry config tree node := by
  refine ⟨placedAs_of_convertIfNeeded, fun placed => ?_⟩
  induction placed using PlacedAs.rec
    (motive_2 := fun trees nodes _ => (convertInputs registry config trees).1 = .ok nodes) with
    | kept ineligible _ inputs =>
        rw [convertIfNeeded_of_ineligible ineligible, keepOnHost_fst, inputs]
        rfl
    | elided allowed leaves _ below =>
        rw [convertIfNeeded_of_eligible (Decision.eligible_of_ensureEligible allowed),
          convert_elided allowed leaves, below]
    | replaced allowed stays arguments _ inputs =>
        rw [convertIfNeeded_of_eligible (Decision.eligible_of_ensureEligible allowed),
          convert_replaced_fst allowed stays, arguments, inputs]
        rfl
    | nil => rfl
    | cons _ _ first later =>
        rw [convertInputs_cons_fst, first, later]
        rfl

end PlanDecision

/-- With the master switch off every plan is placed on the host. Otherwise a plan is placed as its
tagged tree is, unless test mode finds a node that must not stay on the host. -/
theorem place_ok_iff {plan : HostPlan} {placement : Placement} :
    place registry config plan = .ok placement ↔
      (config.sqlEnabled = false ∧ ⟨.hostOnly plan, ""⟩ = placement) ∨
      (config.sqlEnabled = true ∧
        (config.testEnabled = true →
          (tagPlan registry config plan).unexpected? config.testAllowedNonGpu = none) ∧
        ∃ node, (tagPlan registry config plan).PlacedAs registry config node ∧
          ⟨.ofNode node, (tagPlan registry config plan).report config.explain⟩ = placement) := by
  have converted : ∀ tree : PlanDecision, ∀ report,
      (tree.convertIfNeeded registry config).1.map (fun node => ⟨.ofNode node, report⟩) =
          .ok placement ↔
        ∃ node, tree.PlacedAs registry config node ∧ ⟨.ofNode node, report⟩ = placement := by
    intro tree report
    simp only [map_eq_ok_iff, PlanDecision.convertIfNeeded_ok_iff]
  unfold place
  cases config.sqlEnabled with
  | false => simp
  | true =>
      cases config.testEnabled with
      | false => simp [converted]
      | true =>
          cases found : (tagPlan registry config plan).unexpected? config.testAllowedNonGpu with
          | none => simp [found, converted]
          | some error => simp [found]

/-- With the master switch on, a placed plan is the placement of its tagged tree. -/
theorem placedAs_of_place {plan : HostPlan} {placement : Placement}
    (enabled : config.sqlEnabled = true) (placed : place registry config plan = .ok placement) :
    ∃ node, (tagPlan registry config plan).PlacedAs registry config node ∧
      placement.plan = .ofNode node := by
  rcases place_ok_iff.mp placed with ⟨disabled, _⟩ | ⟨_, _, node, made, rfl⟩
  · exact absurd enabled (disabled ▸ Bool.false_ne_true)
  · exact ⟨node, made, rfl⟩

end GpuPlacement
