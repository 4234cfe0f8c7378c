import GpuPlacement.Proofs.Reported
/-!
The report as a forecast. What the lines of operators say is what conversion does with them,
operator by operator.
-/
namespace GpuPlacement

namespace ReportedNode

def operator? : ReportedNode → Option PlanDecision
  | .operator _ tree => some tree
  | .expr .. => none

/-- The operators that an operator reads from. -/
def inputs : ReportedNode → List ReportedNode
  | .operator consumers tree => tree.children.map (.operator (tree :: consumers))
  | .expr .. => []

/-- A placed tree that keeps what the lines of its operators say: an operator on the host or on the
device stands over what is made of its inputs, and one that is removed gives way to its input. -/
inductive Foretells (registry : Registry) (config : Config) : ReportedNode → PlacedNode → Prop
  | onHost {consumers tree nodes} : (ReportedNode.operator consumers tree).mark = .onHost →
      List.Forall₂ (Foretells registry config) (ReportedNode.operator consumers tree).inputs nodes →
      Foretells registry config (.operator consumers tree)
        ⟨.host (.ofPlan tree.decision.node), nodes⟩
  | onGpu {consumers tree operator nodes} : (ReportedNode.operator consumers tree).mark = .onGpu →
      operator.Replaces registry config tree.decision.node →
      List.Forall₂ (Foretells registry config) (ReportedNode.operator consumers tree).inputs nodes →
      Foretells registry config (.operator consumers tree) ⟨.gpu operator, nodes⟩
  | removed {consumers tree child node} : (ReportedNode.operator consumers tree).mark = .removed →
      (ReportedNode.operator consumers tree).inputs = [child] →
      Foretells registry config child node →
      Foretells registry config (.operator consumers tree) node

end ReportedNode

namespace Decision

variable {Node Op : Type} {decision : Decision Node Op}

/-- The mark of a node that nothing holds back. -/
def fate (decision : Decision Node Op) : ReportMark :=
  if !decision.eligible then .onHost else if decision.noOp then .removed else .onGpu

theorem fate_of_ineligible (ineligible : decision.eligible = false) : decision.fate = .onHost := by
  simp [fate, ineligible]

theorem fate_of_leftOut (eligible : decision.eligible = true) (marked : decision.noOp = true) :
    decision.fate = .removed := by
  simp [fate, eligible, marked]

theorem fate_of_unmarked (eligible : decision.eligible = true) (stays : decision.noOp = false) :
    decision.fate = .onGpu := by
  simp [fate, eligible, stays]

theorem fate_ne_heldBack : decision.fate ≠ .heldBack := by
  unfold fate
  split
  · exact ReportMark.noConfusion
  · split <;> exact ReportMark.noConfusion

end Decision

theorem ReportedNode.mark_of_free {consumers : List PlanDecision} {tree : PlanDecision}
    (free : (operator consumers tree).holderEligible = none) :
    (operator consumers tree).mark = tree.decision.fate := by
  unfold mark entry
  cases eligible : tree.decision.eligible with
  | false =>
      rw [Decision.fate_of_ineligible eligible]
      exact ReportEntry.mark_eq_onHost_iff.mpr eligible
  | true =>
      have unheld : (operator consumers tree).holderEligible ≠ some false := by simp [free]
      simp [ReportEntry.mark_of_free eligible unheld, Decision.fate, eligible]

namespace PlanDecision

/-- The marks of the operators, in the order of their lines. -/
def operatorMarks (tree : PlanDecision) : List ReportMark :=
  tree.nodes.filterMap fun node => node.operator?.map fun _ => node.mark

theorem operator?_nodesWithin (consumers : List PlanDecision) (owner : PlanDecision)
    (enclosing : List ExprDecision) (expr : ExprDecision) :
    (expr.nodesWithin consumers owner enclosing).filterMap ReportedNode.operator? = [] := by
  induction expr generalizing enclosing with
  | node decision children ih =>
      rw [ExprDecision.nodesWithin, nodesOfExprs_eq_flatMap, List.filterMap_cons,
        List.filterMap_flatMap]
      exact List.flatMap_eq_nil_iff.mpr fun child member => ih child member _

/-- Every operator has one line. -/
theorem operator?_nodesBelow (consumers : List PlanDecision) (tree : PlanDecision) :
    (tree.nodesBelow consumers).filterMap ReportedNode.operator? = tree.subtrees := by
  induction tree generalizing consumers with
  | node decision exprs children ih =>
      have none : exprs.flatMap (fun expr =>
          (expr.nodesWithin consumers ⟨decision, exprs, children⟩ []).filterMap
            ReportedNode.operator?) = [] :=
        List.flatMap_eq_nil_iff.mpr fun expr _ => operator?_nodesWithin ..
      rw [nodesBelow, nodesOfExprs_eq_flatMap, nodesOfPlans_eq_flatMap, List.filterMap_cons,
        List.filterMap_append, List.filterMap_flatMap, List.filterMap_flatMap, none, subtrees,
        subtreesOfAll_eq_flatMap, List.nil_append]
      exact congrArg (_ :: ·) (List.flatMap_congr fun child member => ih child member _)

variable {config : Config} {plan : HostPlan}

theorem holderEligible_of_reaches {consumers : List PlanDecision} {part : PlanDecision}
    (reached : (tagPlan Builtin.registry config plan).Reaches (.operator consumers part)) :
    (ReportedNode.operator consumers part).holderEligible = none := by
  cases reached with
  | root => rfl
  | input above => exact holds_tagPlan above.holds

/-- The lines of operators tell their fates, as no operator holds its inputs back. -/
theorem operatorMarks_tagPlan (config : Config) (plan : HostPlan) :
    (tagPlan Builtin.registry config plan).operatorMarks =
      (tagPlan Builtin.registry config plan).walk.map Decision.fate := by
  have marks : ∀ node ∈ (tagPlan Builtin.registry config plan).nodes,
      (node.operator?.map fun _ => node.mark) =
        node.operator?.map fun part => part.decision.fate := by
    intro node member
    cases node with
    | operator consumers part =>
        have free := holderEligible_of_reaches (mem_nodes_iff.mp member)
        exact congrArg some (ReportedNode.mark_of_free free)
    | expr => rfl
  rw [operatorMarks, List.filterMap_congr marks, ← List.map_filterMap, nodes, operator?_nodesBelow,
    ← subtrees_decision, List.map_map]
  rfl

/-- No node of a tree holds back the operators below it. -/
def HoldsNothing (tree : PlanDecision) : Prop :=
  ∀ part ∈ tree.subtrees, part.decision.holds = none

theorem HoldsNothing.child {decision : Decision HostPlan GpuOperator} {exprs : List ExprDecision}
    {children : List PlanDecision} (h : HoldsNothing ⟨decision, exprs, children⟩) :
    ∀ child ∈ children, child.HoldsNothing :=
  fun _ member part within => h part (mem_subtrees_of_child member within)

theorem PlacedAs.foretold {tree : PlanDecision} {node : PlacedNode}
    (placed : tree.PlacedAs Builtin.registry config node) (ready : tree.AllReady config)
    (unholding : tree.HoldsNothing) (consumers : List PlanDecision)
    (free : (ReportedNode.operator consumers tree).holderEligible = none) :
    ∃ bare, node.withoutTransitions = [bare] ∧
      (ReportedNode.operator consumers tree).Foretells Builtin.registry config bare := by
  induction placed using PlacedAs.rec
    (motive_2 := fun trees nodes _ => ∀ consumer consumers, consumer.decision.holds = none →
      (∀ tree ∈ trees, tree.AllReady config) → (∀ tree ∈ trees, tree.HoldsNothing) →
      List.Forall₂ (ReportedNode.Foretells Builtin.registry config)
        (trees.map (.operator (consumer :: consumers)))
        (PlacedNode.allWithoutTransitions nodes))
    generalizing consumers with
    | kept ineligible _ inputs =>
        have below := inputs _ consumers (unholding _ (mem_subtrees_self _)) ready.child
          unholding.child
        refine ⟨_, rfl, .onHost ?_ ?_⟩
        · exact (ReportedNode.mark_of_free free).trans (Decision.fate_of_ineligible ineligible)
        · rw [PlacedNode.allWithoutTransitions_intoRows]
          exact below
    | elided allowed leaves _ below =>
        obtain ⟨child, only⟩ := ready.ready.single leaves
        obtain ⟨rfl, rfl⟩ := List.cons.inj only
        obtain ⟨bare, alone, kept⟩ := below (ready.child _ List.mem_cons_self)
          (unholding.child _ List.mem_cons_self) (_ :: consumers)
          (unholding _ (mem_subtrees_self _))
        refine ⟨bare, alone, .removed ?_ rfl kept⟩
        have eligible := Decision.eligible_of_ensureEligible allowed
        exact (ReportedNode.mark_of_free free).trans (Decision.fate_of_leftOut eligible leaves)
    | replaced allowed stays arguments _ inputs =>
        have below := inputs _ consumers (unholding _ (mem_subtrees_self _)) ready.child
          unholding.child
        refine ⟨_, rfl, .onGpu ?_ (ready.ready.replaces arguments) ?_⟩
        · have eligible := Decision.eligible_of_ensureEligible allowed
          exact (ReportedNode.mark_of_free free).trans (Decision.fate_of_unmarked eligible stays)
        · rw [PlacedNode.allWithoutTransitions_intoColumnar]
          exact below
    | nil => exact .nil
    | cons _ _ first later =>
        rename_i consumer consumers held ready unholding
        obtain ⟨head, rest⟩ := List.forall_mem_cons.mp ready
        obtain ⟨here, others⟩ := List.forall_mem_cons.mp unholding
        obtain ⟨bare, only, kept⟩ := first head here (consumer :: consumers) held
        rw [PlacedNode.allWithoutTransitions, only]
        exact .cons kept (later consumer consumers held rest others)

end PlanDecision

/-- A placement that the report of a tree foretells. The report has one line for each node, no
operator is held back, and every operator goes where its line says. -/
structure Placement.ForetoldBy (registry : Registry) (config : Config) (tree : PlanDecision)
    (placement : Placement) : Prop where
  lines : tree.report .all = String.join (tree.nodes.map fun node => node.entry.line)
  operators : tree.nodes.filterMap ReportedNode.operator? = tree.subtrees
  notHeldBack : .heldBack ∉ tree.operatorMarks
  foretold : ∃ bare, placement.plan.root.withoutTransitions = [bare] ∧
    (ReportedNode.operator [] tree).Foretells registry config bare
  gpuNodes : tree.operatorMarks.count .onGpu = placement.plan.stats.gpuNodes
  hostNodes : tree.operatorMarks.count .onHost = placement.plan.stats.hostNodes

/-- With the built-in rules the report of a tagged plan foretells its placement. -/
theorem place_foretold (config : Config) (plan : HostPlan) (placement : Placement)
    (enabled : config.sqlEnabled = true)
    (placed : place Builtin.registry config plan = .ok placement) :
    (tagPlan Builtin.registry config plan).Mirrors plan ∧
      placement.ForetoldBy Builtin.registry config (tagPlan Builtin.registry config plan) := by
  obtain ⟨node, made, same⟩ := placedAs_of_place enabled placed
  have ready := tagPlan_allReady config plan
  have fates := PlanDecision.operatorMarks_tagPlan config plan
  obtain ⟨bare, only, foretold⟩ :=
    made.foretold ready (fun _ within => PlanDecision.holds_tagPlan within) [] rfl
  obtain ⟨onGpu, onHost, -⟩ := made.finishedStats ready
  refine ⟨tagPlan_mirrors Builtin.registry config plan, ?_⟩
  constructor
  case lines => exact PlanDecision.report_eq _
  case operators => exact PlanDecision.operator?_nodesBelow [] _
  case notHeldBack =>
    rw [fates]
    intro member
    obtain ⟨decision, -, heldBack⟩ := List.mem_map.mp member
    exact Decision.fate_ne_heldBack heldBack
  case foretold =>
    rw [same]
    exact ⟨bare, (node.withoutTransitions_intoRows).trans only, foretold⟩
  case gpuNodes =>
    rw [fates, same, onGpu, List.count, List.countP_map]
    refine List.countP_congr fun decision _ => ?_
    cases eligible : decision.eligible <;> cases marked : decision.noOp <;>
      simp [Decision.fate, eligible, marked]
  case hostNodes =>
    rw [fates, same, onHost, List.count, List.countP_map]
    refine List.countP_congr fun decision _ => ?_
    cases eligible : decision.eligible <;> cases marked : decision.noOp <;>
      simp [Decision.fate, eligible, marked]

/-- A union of a scan with a projection that is left out, once on each side of a transition. -/
theorem place_foretold_union :
    let columns := [Column.ofType "k" .int]
    let range := (HostPlan.ofClass "RangeExec").withOutput columns
    let project := { (HostPlan.ofClass "ProjectExec").withOutput columns with
      expressions := [.column "k" .int]
      children := [range] }
    let plan := { (HostPlan.ofClass "UnionExec").withOutput columns with
      children := [project, range] }
    Config.default.sqlEnabled = true ∧
      (tagPlan Builtin.registry .default plan).operatorMarks =
        [.onGpu, .removed, .onHost, .onHost] ∧
      ∃ placement, place Builtin.registry .default plan = .ok placement ∧
        (tagPlan Builtin.registry .default plan).Mirrors plan ∧
        placement.ForetoldBy Builtin.registry .default
          (tagPlan Builtin.registry .default plan) := by
  intro columns range project plan
  obtain ⟨placement, placed⟩ := exists_placement .default plan rfl
  exact ⟨rfl, by decide +kernel, placement, placed,
    place_foretold .default plan placement rfl placed⟩

end GpuPlacement
