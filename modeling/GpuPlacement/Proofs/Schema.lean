import GpuPlacement.Proofs.Origin
/-!
Output columns of placed plans. Every operator that stays keeps its columns; one that is left out is
a projection onto the columns of its input, and shows whatever columns its input declares.
-/
namespace GpuPlacement

/-- An expression that only refers to a column, by its name and its type. -/
structure HostExpr.RefersTo (expr : HostExpr) (column : Column) : Prop where
  className : expr.className = .expression "AttributeReference"
  name : expr.name = some column.name
  type : expr.type = column.type

/-- An operator that refers to the columns of its only input, all and in order. -/
structure HostPlan.PassesOn (plan child : HostPlan) : Prop where
  only : plan.children = [child]
  columns : List.Forall₂ HostExpr.RefersTo plan.expressions child.output

theorem OperatorCheck.refersTo_iff {expr : HostExpr} {column : Column} :
    refersTo expr column = true ↔ expr.RefersTo column := by
  simp only [refersTo, Bool.and_eq_true, decide_eq_true_eq]
  constructor
  · rintro ⟨⟨className, name⟩, type⟩
    exact ⟨className, name, type⟩
  · intro h
    exact ⟨⟨h.className, h.name⟩, h.type⟩

theorem OperatorCheck.isIdentity_iff {expressions : List HostExpr} {columns : List Column} :
    isIdentity expressions columns = true ↔
      List.Forall₂ HostExpr.RefersTo expressions columns := by
  rw [List.forall₂_iff_zip, isIdentity, Bool.and_eq_true, decide_eq_true_eq, List.all_eq_true]
  constructor
  · rintro ⟨lengths, all⟩
    exact ⟨lengths, fun pair => refersTo_iff.mp (all _ pair)⟩
  · rintro ⟨lengths, all⟩
    exact ⟨lengths, fun pair member => refersTo_iff.mpr (all member)⟩

namespace PlacedNode

mutual

/-- The columns of the topmost operator, looking through transitions. -/
def columns : PlacedNode → List Column
  | ⟨.gpu operator, _⟩ => operator.output
  | ⟨.host operator, _⟩ => operator.output
  | ⟨.rowToColumnar _, inputs⟩ => columnsOfFirst inputs
  | ⟨.columnarToRow, inputs⟩ => columnsOfFirst inputs

def columnsOfFirst : List PlacedNode → List Column
  | [] => []
  | node :: _ => node.columns

end

theorem columns_intoRows (node : PlacedNode) : node.intoRows.columns = node.columns := by
  unfold intoRows
  split
  · rw [columns, columnsOfFirst]
  · rfl

end PlacedNode

namespace PlanDecision

variable {config : Config}

/-- An operator is marked only when it passes on the columns of its input. -/
theorem passesOn_of_marked {plan : HostPlan} {part : PlanDecision}
    (within : part ∈ (tagPlan Builtin.registry config plan).subtrees)
    (marked : part.decision.noOp = true) : ∃ child, part.decision.node.PassesOn child := by
  obtain ⟨parent, tagged, rfl, same⟩ := mem_subtrees_tagPlan within
  have markedBefore : ((ofPlanBelow Builtin.registry parent part.decision.node).tag
      Builtin.registry config).decision.noOp = true := by
    -- Settling adds reasons to exchanges and marks nothing.
    rcases same with kept | ⟨parentEligible, settled⟩
    · exact kept ▸ marked
    · rw [settled, settleBelow_noOp] at marked
      exact marked
  obtain ⟨rule, context, found, here, check⟩ :=
    exists_check_of_marked (ofPlanBelow_noOp ..) markedBefore
  obtain ⟨child, only, identity⟩ :=
    Builtin.identity_of_noOp rule (Builtin.mem_of_find?_operators found) context check
  rw [here, ofPlanBelow_node] at only identity
  exact ⟨child, only, OperatorCheck.isIdentity_iff.mp identity⟩

/-- The columns of a placed tree are those of its topmost operator that is not left out. -/
theorem PlacedAs.columns {tree : PlanDecision} {node : PlacedNode}
    (placed : tree.PlacedAs Builtin.registry config node) (ready : tree.AllReady config) :
    node.columns = tree.contract.decision.node.output := by
  induction placed using PlacedAs.rec (motive_2 := fun _ _ _ => True) with
  | kept ineligible =>
      rw [contract_of_stays (Decision.leftOut_of_ineligible ineligible), PlacedNode.columns]
      rfl
  | elided allowed leaves _ below =>
      obtain ⟨child, only⟩ := ready.ready.single leaves
      obtain ⟨rfl, rfl⟩ := List.cons.inj only
      have eligible := Decision.eligible_of_ensureEligible allowed
      rw [contract_of_leftOut (Decision.leftOut_of_marked eligible leaves)]
      exact below (ready.child _ List.mem_cons_self)
  | replaced _ stays arguments =>
      rw [contract_of_stays (Decision.leftOut_of_unmarked stays), PlacedNode.columns]
      exact (ready.ready.replaces arguments).output
  | nil => trivial
  | cons => trivial

end PlanDecision

/-- An operator of a plan and the subtree that takes its place, and so on below them. Something
holds of every such pair. -/
inductive HostPlan.ReplacedBy (holds : HostPlan → PlacedNode → Prop) :
    HostPlan → PlacedNode → Prop
  | host {plan inputs} : holds plan ⟨.host (.ofPlan plan), inputs⟩ →
      List.Forall₂ (ReplacedBy holds) plan.children inputs →
      ReplacedBy holds plan ⟨.host (.ofPlan plan), inputs⟩
  | gpu {plan operator inputs} : operator.replaces = plan.className →
      holds plan ⟨.gpu operator, inputs⟩ →
      List.Forall₂ (ReplacedBy holds) plan.children inputs →
      ReplacedBy holds plan ⟨.gpu operator, inputs⟩
  | toColumnar {plan node batchBytes} : holds plan ⟨.rowToColumnar batchBytes, [node]⟩ →
      ReplacedBy holds plan node → ReplacedBy holds plan ⟨.rowToColumnar batchBytes, [node]⟩
  | toRows {plan node} : holds plan ⟨.columnarToRow, [node]⟩ →
      ReplacedBy holds plan node → ReplacedBy holds plan ⟨.columnarToRow, [node]⟩
  | leftOut {plan child node} : plan.PassesOn child → holds plan node →
      ReplacedBy holds child node → ReplacedBy holds plan node

namespace HostPlan

def SameColumns (plan : HostPlan) (node : PlacedNode) : Prop :=
  node.columns = plan.output

variable {plan : HostPlan} {node : PlacedNode}

theorem ReplacedBy.holds {holds : HostPlan → PlacedNode → Prop}
    (h : plan.ReplacedBy holds node) : holds plan node := by
  cases h <;> assumption

theorem ReplacedBy.intoRows (h : plan.ReplacedBy SameColumns node) :
    plan.ReplacedBy SameColumns node.intoRows := by
  have behind : SameColumns plan ⟨.columnarToRow, [node]⟩ := by
    rw [SameColumns, PlacedNode.columns, PlacedNode.columnsOfFirst]
    exact h.holds
  unfold PlacedNode.intoRows
  split
  · exact .toRows behind h
  · exact h

theorem ReplacedBy.intoColumnar (h : plan.ReplacedBy SameColumns node) (batchBytes : UInt64) :
    plan.ReplacedBy SameColumns (node.intoColumnar batchBytes) := by
  have behind : SameColumns plan ⟨.rowToColumnar batchBytes, [node]⟩ := by
    rw [SameColumns, PlacedNode.columns, PlacedNode.columnsOfFirst]
    exact h.holds
  unfold PlacedNode.intoColumnar
  split
  · exact h
  · exact .toColumnar behind h

theorem replacedBy_ofHostPlan (plan : HostPlan) :
    plan.ReplacedBy SameColumns (.ofHostPlan plan) := by
  induction plan with
  | node className output expressions partitioning params children ih =>
      rw [PlacedNode.ofHostPlan, PlacedNode.ofHostPlans_eq_map]
      refine .host rfl (List.forall₂_map_right_iff.mpr ?_)
      exact List.forall₂_same.mpr ih

end HostPlan

namespace PlanDecision

/-- Every operator that conversion leaves out declares the columns of its input. -/
def LeftOutAsDeclared (tree : PlanDecision) : Prop :=
  ∀ part ∈ tree.subtrees, part.decision.leftOut = true →
    ∀ child ∈ part.decision.node.children, part.decision.node.output = child.output

variable {config : Config}

theorem replacedBy_inputs {children : List PlanDecision} {nodes : List PlacedNode}
    {plans : List HostPlan} {wrap : PlacedNode → PlacedNode}
    (same : children.map (·.decision.node) = plans)
    (wraps : ∀ plan node, HostPlan.ReplacedBy HostPlan.SameColumns plan node →
      HostPlan.ReplacedBy HostPlan.SameColumns plan (wrap node))
    (inputs : List.Forall₂ (fun child node =>
      child.decision.node.ReplacedBy HostPlan.SameColumns node) children nodes) :
    List.Forall₂ (HostPlan.ReplacedBy HostPlan.SameColumns) plans (nodes.map wrap) := by
  rw [← same, List.forall₂_map_left_iff, List.forall₂_map_right_iff]
  exact inputs.imp fun (child : PlanDecision) node => wraps child.decision.node node

theorem PlacedAs.replacedBy {tree : PlanDecision} {node : PlacedNode}
    (placed : tree.PlacedAs Builtin.registry config node) (ready : tree.AllReady config)
    (mirrors : tree.Mirrors tree.decision.node)
    (passes : ∀ part ∈ tree.subtrees, part.decision.leftOut = true →
      ∃ child, part.decision.node.PassesOn child ∧ part.decision.node.output = child.output) :
    tree.decision.node.ReplacedBy HostPlan.SameColumns node := by
  induction placed using PlacedAs.rec
    (motive_2 := fun trees nodes _ => (∀ tree ∈ trees, tree.AllReady config) →
      (∀ tree ∈ trees, tree.Mirrors tree.decision.node) →
      (∀ tree ∈ trees, ∀ part ∈ tree.subtrees, part.decision.leftOut = true →
        ∃ child, part.decision.node.PassesOn child ∧
          part.decision.node.output = child.output) →
      List.Forall₂ (fun tree node => tree.decision.node.ReplacedBy HostPlan.SameColumns node)
        trees nodes) with
    | kept _ _ inputs =>
        have below := inputs ready.child (fun _ => mirrors.child)
          fun child member part within => passes part (mem_subtrees_of_child member within)
        refine .host ?_ (replacedBy_inputs mirrors.children (fun _ _ => .intoRows) below)
        rw [HostPlan.SameColumns, PlacedNode.columns]
        rfl
    | @elided decision exprs child rest node rule allowed leaves _ below =>
        -- The input stands for this operator as well, since both declare the same columns.
        have member : child ∈ child :: rest := List.mem_cons_self
        have eligible := Decision.eligible_of_ensureEligible allowed
        obtain ⟨source, passesOn, same⟩ :=
          passes _ (mem_subtrees_self _) (Decision.leftOut_of_marked eligible leaves)
        have here : child.decision.node = source := by
          have inputs := mirrors.children.trans passesOn.only
          exact (List.cons.inj inputs).1
        have replaced := below (ready.child child member) (mirrors.child member)
          fun part within => passes part (mem_subtrees_of_child member within)
        rw [here] at replaced
        exact .leftOut passesOn (replaced.holds.trans same.symm) replaced
    | replaced _ _ arguments _ inputs =>
        have below := inputs ready.child (fun _ => mirrors.child)
          fun child member part within => passes part (mem_subtrees_of_child member within)
        have replaces := ready.ready.replaces arguments
        refine .gpu replaces.replaces ?_
          (replacedBy_inputs mirrors.children (fun _ _ h => h.intoColumnar _) below)
        rw [HostPlan.SameColumns, PlacedNode.columns, replaces.output]
    | nil => exact .nil
    | cons _ _ first later =>
        rename_i ready mirrors passes
        obtain ⟨head, rest⟩ := List.forall_mem_cons.mp ready
        obtain ⟨mirrorsHead, mirrorsRest⟩ := List.forall_mem_cons.mp mirrors
        obtain ⟨passesHead, passesRest⟩ := List.forall_mem_cons.mp passes
        exact .cons (first head mirrorsHead passesHead) (later rest mirrorsRest passesRest)

end PlanDecision

/-- Above a host operator the columns of a left out operator give way to those of its input. -/
theorem contract_tagPlan {config : Config} {plan input : HostPlan}
    (leftOut : (tagPlan Builtin.registry config plan).decision.leftOut = true)
    (only : plan.children = [input])
    (missing : Builtin.registry.operators.find? input.className = none) :
    (tagPlan Builtin.registry config plan).contract.decision.node = input := by
  obtain ⟨eligible, marked⟩ := Bool.and_eq_true_iff.mp leftOut
  obtain ⟨child, given⟩ := (tagPlan_allReady config plan).ready.single marked
  have here : child.decision.node = input := by
    have inputs := (tagPlan_mirrors Builtin.registry config plan).children
    rw [given, only] at inputs
    exact (List.cons.inj inputs).1
  have onHost : ∀ part ∈ (tagPlan Builtin.registry config plan).subtrees,
      part.decision.node = input → part.eligible = false := fun part within same =>
    PlanDecision.ineligible_of_no_rule within (same ▸ missing)
  generalize tagPlan Builtin.registry config plan = tree at leftOut given onHost ⊢
  rcases tree with ⟨decision, exprs, children⟩
  obtain rfl : children = [child] := given
  have stays := onHost child
    (PlanDecision.mem_subtrees_of_child List.mem_cons_self child.mem_subtrees_self) here
  rw [PlanDecision.contract_of_leftOut leftOut]
  cases child with
  | mk below belowExprs inputs =>
      rw [PlanDecision.contract_of_stays (Decision.leftOut_of_ineligible stays)]
      exact here

/-- With the built-in rules only operators that pass on the columns of their input are marked, and a
placed plan has the columns of the topmost operator that is not left out. Where every left out
operator declares the columns of its input, each operator and the subtree that takes its place have
the same columns. -/
theorem place_keepsColumns (config : Config) (plan : HostPlan) (placement : Placement)
    (placed : place Builtin.registry config plan = .ok placement) :
    let tree := tagPlan Builtin.registry config plan
    (∀ part ∈ tree.subtrees, part.decision.noOp = true →
      ∃ child, part.decision.node.PassesOn child) ∧
    (config.sqlEnabled = true →
      placement.plan.root.columns = tree.contract.decision.node.output) ∧
    ((config.sqlEnabled = true → tree.LeftOutAsDeclared) →
      plan.ReplacedBy HostPlan.SameColumns placement.plan.root) := by
  intro tree
  have passes : ∀ part ∈ tree.subtrees, part.decision.noOp = true →
      ∃ child, part.decision.node.PassesOn child :=
    fun part within => PlanDecision.passesOn_of_marked within
  have ready := tagPlan_allReady config plan
  refine ⟨passes, fun enabled => ?_, fun declared => ?_⟩
  · obtain ⟨node, made, same⟩ := placedAs_of_place enabled placed
    rw [same]
    exact node.columns_intoRows.trans (made.columns ready)
  · rcases place_ok_iff.mp placed with ⟨-, rfl⟩ | ⟨enabled, -, node, made, rfl⟩
    · exact (HostPlan.replacedBy_ofHostPlan plan).intoRows
    · have mirrors := tagPlan_mirrors Builtin.registry config plan
      have replaced := made.replacedBy ready (mirrors.root.symm ▸ mirrors) (by
        intro part within leftOut
        obtain ⟨child, passesOn⟩ := passes part within (Bool.and_eq_true_iff.mp leftOut).2
        have input : child ∈ part.decision.node.children :=
          passesOn.only ▸ List.mem_singleton_self child
        exact ⟨child, passesOn, declared enabled part within leftOut child input⟩)
      rw [mirrors.root] at replaced
      exact replaced.intoRows

/-- A projection onto the only column of what the host produces, under a name of its own. -/
def projectedRange (name : String) : HostPlan :=
  { (HostPlan.ofClass "ProjectExec").withOutput [.ofType name .int] with
    expressions := [HostExpr.column "k" .int]
    children := [(HostPlan.ofClass "RangeExec").withOutput [.ofType "k" .int]] }

theorem projectedRange_tag (name : String) :
    (tagPlan Builtin.registry .default (projectedRange name)).eligible = true ∧
      (tagPlan Builtin.registry .default (projectedRange name)).decision.noOp = true := by
  have key := ExprDecision.tag_keyColumn (some (projectedRange name))
  have member : Builtin.rowRules[0] ∈ Builtin.operatorRules := by simp [Builtin.operatorRules]
  refine tagPlan_of_rule (List.forall_mem_singleton.mpr key.1) ⟨_, member, rfl, rfl, ?_, rfl⟩
  constructor
  case enabled => exact (by decide +kernel : Builtin.rowRules[0].spec.enabled .default = true)
  case types => rfl
  case check => rfl

theorem projectedRange_columns (name : String) :
    ∃ placement, place Builtin.registry .default (projectedRange name) = .ok placement ∧
      placement.plan.root.columns = [.ofType "k" .int] := by
  obtain ⟨placement, placed⟩ := exists_placement .default (projectedRange name) rfl
  obtain ⟨node, made, same⟩ := placedAs_of_place rfl placed
  obtain ⟨eligible, marked⟩ := projectedRange_tag name
  have input := contract_tagPlan (Decision.leftOut_of_marked eligible marked) rfl
    (RuleTable.find?_ofList_eq_none (by decide +kernel))
  have columns := made.columns (tagPlan_allReady .default (projectedRange name))
  rw [input] at columns
  refine ⟨placement, placed, ?_⟩
  rw [same]
  exact node.columns_intoRows.trans columns

theorem place_keepsColumns_projectedRange :
    ∃ placement, place Builtin.registry .default (projectedRange "k") = .ok placement ∧
      (tagPlan Builtin.registry .default (projectedRange "k")).decision.leftOut = true ∧
      (projectedRange "k").ReplacedBy HostPlan.SameColumns placement.plan.root := by
  obtain ⟨placement, placed⟩ := exists_placement .default (projectedRange "k") rfl
  obtain ⟨eligible, marked⟩ := projectedRange_tag "k"
  have declared : ∀ node ∈ (projectedRange "k").subtrees, ∀ child ∈ node.children,
      node.output = child.output := by
    decide
  have mirrors := tagPlan_mirrors Builtin.registry .default (projectedRange "k")
  have leftOutAsDeclared :
      (tagPlan Builtin.registry .default (projectedRange "k")).LeftOutAsDeclared :=
    fun part within _ => declared part.decision.node (mirrors.node_mem_subtrees within)
  exact ⟨placement, placed, Decision.leftOut_of_marked eligible marked,
    (place_keepsColumns .default (projectedRange "k") placement placed).2.2
      fun _ => leftOutAsDeclared⟩

/-- A projection that is left out takes a name of its own with it. -/
theorem not_forall_place_keepsColumns :
    ¬ ∀ config plan placement, place Builtin.registry config plan = .ok placement →
      placement.plan.root.columns = plan.output := by
  intro always
  obtain ⟨placement, placed, columns⟩ := projectedRange_columns "x"
  have same := always .default (projectedRange "x") placement placed
  rw [columns] at same
  exact absurd same (by decide)

end GpuPlacement
