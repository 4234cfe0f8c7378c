import GpuPlacement.Proofs.Ready
/-!
Counts of placed plans. They follow from the decisions alone: an operator that is left out counts
nowhere, and transitions stand where the tree without such operators changes sides.
-/
namespace GpuPlacement

namespace Decision

variable {Node Op : Type} {decision : Decision Node Op}

/-- Whether conversion gives the first input in place of the operator. -/
def leftOut (decision : Decision Node Op) : Bool :=
  decision.eligible && decision.noOp

theorem leftOut_of_ineligible (ineligible : decision.eligible = false) :
    decision.leftOut = false := by
  rw [leftOut, ineligible, Bool.false_and]

theorem leftOut_of_unmarked (unmarked : decision.noOp = false) : decision.leftOut = false := by
  rw [leftOut, unmarked, Bool.and_false]

theorem leftOut_of_marked (eligible : decision.eligible = true) (marked : decision.noOp = true) :
    decision.leftOut = true := by
  rw [leftOut, eligible, marked, Bool.and_true]

end Decision

namespace PlanDecision

mutual

/-- The tree in which every left out operator gives way to its only input. -/
def contract : PlanDecision → PlanDecision
  | ⟨decision, exprs, children⟩ =>
    match decision.leftOut, contractAll children with
    | true, [child] => child
    | _, children => ⟨decision, exprs, children⟩

def contractAll : List PlanDecision → List PlanDecision
  | [] => []
  | tree :: rest => tree.contract :: contractAll rest

end

theorem contract_of_leftOut {decision : Decision HostPlan GpuOperator}
    (leaves : decision.leftOut = true) (exprs : List ExprDecision) (child : PlanDecision) :
    contract ⟨decision, exprs, [child]⟩ = child.contract := by
  simp only [contract, contractAll, leaves]

theorem contract_of_stays {decision : Decision HostPlan GpuOperator}
    (stays : decision.leftOut = false) (exprs : List ExprDecision) (children : List PlanDecision) :
    contract ⟨decision, exprs, children⟩ = ⟨decision, exprs, contractAll children⟩ := by
  simp only [contract, stays]

mutual

/-- How many operators of a tree are on another side than their consumer. -/
def crossings : PlanDecision → Nat
  | ⟨decision, _, children⟩ =>
    (children.countP fun child => child.eligible != decision.eligible) + crossingsOfAll children

def crossingsOfAll : List PlanDecision → Nat
  | [] => 0
  | tree :: rest => tree.crossings + crossingsOfAll rest

end

end PlanDecision

namespace PlacementStats

theorem add_zero (stats : PlacementStats) : stats.add zero = stats := rfl

theorem add_comm (stats other : PlacementStats) : stats.add other = other.add stats := by
  simp [add, Nat.add_comm]

theorem add_add_add_comm (stats other third fourth : PlacementStats) :
    (stats.add other).add (third.add fourth) = (stats.add third).add (other.add fourth) := by
  simp [add, Nat.add_add_add_comm]

end PlacementStats

namespace PlacedNode

theorem stats_behind {transition : PlacedOperator} {node : PlacedNode}
    (h : PlacementStats.ofOperator transition = ⟨0, 0, 1⟩) :
    stats ⟨transition, [node]⟩ = node.stats.add ⟨0, 0, 1⟩ := by
  rw [stats, statsOfAll, statsOfAll, h, PlacementStats.add_zero, PlacementStats.add_comm]

theorem stats_intoRows (node : PlacedNode) :
    node.intoRows.stats = node.stats.add ⟨0, 0, if node.isColumnar then 1 else 0⟩ := by
  unfold intoRows
  cases node.isColumnar with
  | true => exact stats_behind rfl
  | false => rfl

theorem stats_intoColumnar (batchBytes : UInt64) (node : PlacedNode) :
    (node.intoColumnar batchBytes).stats =
      node.stats.add ⟨0, 0, if !node.isColumnar then 1 else 0⟩ := by
  unfold intoColumnar
  cases node.isColumnar with
  | true => rfl
  | false => exact stats_behind rfl

theorem statsOfAll_intoRows (nodes : List PlacedNode) :
    statsOfAll (nodes.map .intoRows) = (statsOfAll nodes).add ⟨0, 0, nodes.countP isColumnar⟩ := by
  induction nodes with
  | nil => rfl
  | cons node rest ih =>
      rw [List.map_cons, statsOfAll, statsOfAll, ih, stats_intoRows,
        PlacementStats.add_add_add_comm, List.countP_cons, Nat.add_comm]
      rfl

theorem statsOfAll_intoColumnar (batchBytes : UInt64) (nodes : List PlacedNode) :
    statsOfAll (nodes.map (.intoColumnar batchBytes)) =
      (statsOfAll nodes).add ⟨0, 0, nodes.countP (!·.isColumnar)⟩ := by
  induction nodes with
  | nil => rfl
  | cons node rest ih =>
      rw [List.map_cons, statsOfAll, statsOfAll, ih, stats_intoColumnar,
        PlacementStats.add_add_add_comm, List.countP_cons, Nat.add_comm]
      rfl

end PlacedNode

namespace PlanDecision

variable {registry : Registry} {config : Config}

/-- The counts that the decisions promise. -/
def tally (tree : PlanDecision) : PlacementStats :=
  ⟨tree.walk.countP fun decision => decision.eligible && !decision.noOp,
    tree.walk.countP fun decision => !decision.eligible,
    tree.contract.crossings⟩

def tallyOfAll (trees : List PlanDecision) : PlacementStats :=
  ⟨(walkAll trees).countP fun decision => decision.eligible && !decision.noOp,
    (walkAll trees).countP fun decision => !decision.eligible,
    crossingsOfAll (contractAll trees)⟩

theorem tallyOfAll_cons (tree : PlanDecision) (rest : List PlanDecision) :
    tallyOfAll (tree :: rest) = tree.tally.add (tallyOfAll rest) := by
  simp only [tallyOfAll, walkAll, contractAll, crossingsOfAll, List.countP_append]
  rfl

theorem tally_of_ineligible {decision : Decision HostPlan GpuOperator}
    (ineligible : decision.eligible = false) (exprs : List ExprDecision)
    (children : List PlanDecision) :
    tally ⟨decision, exprs, children⟩ =
      PlacementStats.add ⟨0, 1, 0⟩
        ((tallyOfAll children).add ⟨0, 0, (contractAll children).countP eligible⟩) := by
  rw [tally, contract_of_stays (Decision.leftOut_of_ineligible ineligible)]
  simp [tallyOfAll, walk, crossings, PlacementStats.add, ineligible, Nat.add_comm]

theorem tally_of_unmarked {decision : Decision HostPlan GpuOperator}
    (allowed : decision.eligible = true) (unmarked : decision.noOp = false)
    (exprs : List ExprDecision) (children : List PlanDecision) :
    tally ⟨decision, exprs, children⟩ =
      PlacementStats.add ⟨1, 0, 0⟩
        ((tallyOfAll children).add ⟨0, 0, (contractAll children).countP (!·.eligible)⟩) := by
  rw [tally, contract_of_stays (Decision.leftOut_of_unmarked unmarked)]
  simp [tallyOfAll, walk, crossings, PlacementStats.add, allowed, unmarked, Nat.add_comm]

theorem tally_of_leftOut {decision : Decision HostPlan GpuOperator}
    (allowed : decision.eligible = true) (marked : decision.noOp = true)
    (exprs : List ExprDecision) (child : PlanDecision) :
    tally ⟨decision, exprs, [child]⟩ = child.tally := by
  rw [tally, contract_of_leftOut (Decision.leftOut_of_marked allowed marked)]
  simp [tally, walk, walkAll, allowed, marked]

/-- The sides of the inputs of an operator are those of the contracted trees. -/
theorem countP_isColumnar {nodes : List PlacedNode} {children : List PlanDecision}
    (same : nodes.map (·.isColumnar) = (contractAll children).map (·.eligible))
    (side : Bool → Bool) :
    nodes.countP (fun node => side node.isColumnar) =
      (contractAll children).countP (fun child => side child.eligible) := by
  have counts := congrArg (List.countP side) same
  rwa [List.countP_map, List.countP_map] at counts

theorem PlacedAs.stats {tree : PlanDecision} {node : PlacedNode}
    (placed : tree.PlacedAs registry config node) (ready : tree.AllReady config) :
    node.stats = tree.tally ∧ node.isColumnar = tree.contract.eligible := by
  induction placed using PlacedAs.rec
    (motive_2 := fun trees nodes _ => (∀ tree ∈ trees, tree.AllReady config) →
      statsOfAll nodes = tallyOfAll trees ∧
        nodes.map (·.isColumnar) = (contractAll trees).map (·.eligible)) with
    | @kept decision exprs children nodes ineligible _ inputs =>
        obtain ⟨counts, sides⟩ := inputs ready.child
        constructor
        · have crossing : nodes.countP PlacedNode.isColumnar =
              (contractAll children).countP eligible := countP_isColumnar sides id
          rw [tally_of_ineligible ineligible, PlacedNode.stats, PlacedNode.statsOfAll_intoRows,
            counts, crossing]
          rfl
        · rw [contract_of_stays (Decision.leftOut_of_ineligible ineligible)]
          exact ineligible.symm
    | elided allowed leaves _ below =>
        have eligible := Decision.eligible_of_ensureEligible allowed
        obtain ⟨child, only⟩ := ready.ready.single leaves
        obtain ⟨rfl, rfl⟩ := List.cons.inj only
        rw [tally_of_leftOut eligible leaves,
          contract_of_leftOut (Decision.leftOut_of_marked eligible leaves)]
        exact below (ready.child _ List.mem_cons_self)
    | replaced allowed stays _ _ inputs =>
        have eligible := Decision.eligible_of_ensureEligible allowed
        obtain ⟨counts, sides⟩ := inputs ready.child
        constructor
        · rw [tally_of_unmarked eligible stays, PlacedNode.stats,
            PlacedNode.statsOfAll_intoColumnar, counts, countP_isColumnar sides not]
          rfl
        · rw [contract_of_stays (Decision.leftOut_of_unmarked stays)]
          exact eligible.symm
    | nil => exact ⟨rfl, rfl⟩
    | cons _ _ first later =>
        rename_i ready
        obtain ⟨head, rest⟩ := List.forall_mem_cons.mp ready
        obtain ⟨counts, side⟩ := first head
        obtain ⟨others, sides⟩ := later rest
        constructor
        · rw [statsOfAll, tallyOfAll_cons, counts, others]
        · rw [contractAll, List.map_cons, List.map_cons, side, sides]

/-- A finished plan has one more transition when its tree ends in batches. -/
theorem PlacedAs.finishedStats {tree : PlanDecision} {node : PlacedNode}
    (placed : tree.PlacedAs registry config node) (ready : tree.AllReady config) :
    (PlacedPlan.ofNode node).stats.gpuNodes =
        (tree.walk.countP fun decision => decision.eligible && !decision.noOp) ∧
      (PlacedPlan.ofNode node).stats.hostNodes =
        (tree.walk.countP fun decision => !decision.eligible) ∧
      (PlacedPlan.ofNode node).stats.transitions =
        tree.contract.crossings + if tree.contract.eligible then 1 else 0 := by
  obtain ⟨counts, side⟩ := placed.stats ready
  have total : (PlacedPlan.ofNode node).stats =
      tree.tally.add ⟨0, 0, if tree.contract.eligible then 1 else 0⟩ := by
    rw [← counts, ← side]
    exact node.stats_intoRows
  rw [total]
  exact ⟨rfl, rfl, rfl⟩

end PlanDecision

end GpuPlacement
