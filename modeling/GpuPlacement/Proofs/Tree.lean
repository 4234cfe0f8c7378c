import Mathlib.Data.List.Forall2
import GpuPlacement.Placement
/-!
Induction over host plans, decision trees and placed nodes: what a node takes over from its
children holds of every tree. Functions on lists of trees are maps, and every node of a tree is the
root of one of its subtrees.
-/
namespace GpuPlacement

@[elab_as_elim, induction_eliminator]
theorem HostExpr.induction {motive : HostExpr → Prop}
    (node : ∀ className type nullable name params children, (∀ child ∈ children, motive child) →
      motive ⟨className, type, nullable, name, params, children⟩)
    (expr : HostExpr) : motive expr :=
  HostExpr.rec (motive_1 := motive) (motive_2 := fun exprs => ∀ child ∈ exprs, motive child) node
    (List.forall_mem_nil _) (fun _ _ head rest => List.forall_mem_cons.mpr ⟨head, rest⟩) expr

@[elab_as_elim, induction_eliminator]
theorem HostPlan.induction {motive : HostPlan → Prop}
    (node : ∀ className output expressions partitioning params children,
      (∀ child ∈ children, motive child) →
        motive ⟨className, output, expressions, partitioning, params, children⟩)
    (plan : HostPlan) : motive plan :=
  HostPlan.rec (motive_1 := motive) (motive_2 := fun plans => ∀ child ∈ plans, motive child) node
    (List.forall_mem_nil _) (fun _ _ head rest => List.forall_mem_cons.mpr ⟨head, rest⟩) plan

@[elab_as_elim, induction_eliminator]
theorem ExprDecision.induction {motive : ExprDecision → Prop}
    (node : ∀ decision children, (∀ child ∈ children, motive child) → motive ⟨decision, children⟩)
    (tree : ExprDecision) : motive tree :=
  ExprDecision.rec (motive_1 := motive) (motive_2 := fun trees => ∀ child ∈ trees, motive child)
    node (List.forall_mem_nil _)
    (fun _ _ head rest => List.forall_mem_cons.mpr ⟨head, rest⟩) tree

@[elab_as_elim, induction_eliminator]
theorem PlanDecision.induction {motive : PlanDecision → Prop}
    (node : ∀ decision exprs children, (∀ child ∈ children, motive child) →
      motive ⟨decision, exprs, children⟩)
    (tree : PlanDecision) : motive tree :=
  PlanDecision.rec (motive_1 := motive) (motive_2 := fun trees => ∀ child ∈ trees, motive child)
    node (List.forall_mem_nil _)
    (fun _ _ head rest => List.forall_mem_cons.mpr ⟨head, rest⟩) tree

@[elab_as_elim, induction_eliminator]
theorem GpuExpr.induction {motive : GpuExpr → Prop}
    (node : ∀ name type nullable params children, (∀ child ∈ children, motive child) →
      motive ⟨name, type, nullable, params, children⟩)
    (expr : GpuExpr) : motive expr :=
  GpuExpr.rec (motive_1 := motive) (motive_2 := fun exprs => ∀ child ∈ exprs, motive child) node
    (List.forall_mem_nil _) (fun _ _ head rest => List.forall_mem_cons.mpr ⟨head, rest⟩) expr

@[elab_as_elim, induction_eliminator]
theorem PlacedNode.induction {motive : PlacedNode → Prop}
    (node : ∀ operator inputs, (∀ input ∈ inputs, motive input) → motive ⟨operator, inputs⟩)
    (tree : PlacedNode) : motive tree :=
  PlacedNode.rec (motive_1 := motive) (motive_2 := fun trees => ∀ input ∈ trees, motive input) node
    (List.forall_mem_nil _) (fun _ _ head rest => List.forall_mem_cons.mpr ⟨head, rest⟩) tree

/-- A function on lists of trees that treats each tree alike. -/
theorem eq_map_of_cons {α β : Type} {f : α → β} {all : List α → List β} (nil : all [] = [])
    (cons : ∀ item rest, all (item :: rest) = f item :: all rest) (items : List α) :
    all items = items.map f := by
  induction items with
  | nil => exact nil
  | cons item rest ih => rw [cons, ih, List.map_cons]

theorem eq_flatMap_of_cons {α β : Type} {f : α → List β} {all : List α → List β}
    (nil : all [] = []) (cons : ∀ item rest, all (item :: rest) = f item ++ all rest)
    (items : List α) : all items = items.flatMap f := by
  induction items with
  | nil => exact nil
  | cons item rest ih => rw [cons, ih, List.flatMap_cons]

theorem exists_of_forall₂ {α β : Type} {related : α → β → Prop} {items : List α} {others : List β}
    (h : List.Forall₂ related items others) :
    ∀ other ∈ others, ∃ item ∈ items, related item other := by
  induction h with
  | nil => exact List.forall_mem_nil _
  | cons same _ ih =>
      refine List.forall_mem_cons.mpr ⟨⟨_, List.mem_cons_self, same⟩, fun other member => ?_⟩
      obtain ⟨item, among, pair⟩ := ih other member
      exact ⟨item, List.mem_cons_of_mem _ among, pair⟩

theorem forall₂_imp_of_mem {α β : Type} {related stronger : α → β → Prop} {items : List α}
    {others : List β} (h : List.Forall₂ related items others)
    (each : ∀ item ∈ items, ∀ other, related item other → stronger item other) :
    List.Forall₂ stronger items others :=
  ((List.forall₂_and_left _ _).mpr ⟨each, h⟩).imp fun _ other pair => pair.1 other pair.2

theorem exists_getElem?_of_forall₂ {α β : Type} {related : α → β → Prop} {items : List α}
    {others : List β} (h : List.Forall₂ related items others) {place : Nat} {item : α}
    (found : items[place]? = some item) : ∃ other, others[place]? = some other ∧ related item other
    := by
  induction h generalizing place with
  | nil => cases found
  | cons same _ ih =>
      cases place with
      | zero =>
          cases found
          exact ⟨_, rfl, same⟩
      | succ place => exact ih found

theorem forall₂_of_map_eq {α β γ : Type} {related : α → β → Prop} {f : α → γ} {g : β → γ}
    {items : List α} {others : List β} (same : items.map f = others.map g)
    (each : ∀ item ∈ items, ∀ other, f item = g other → related item other) :
    List.Forall₂ related items others := by
  induction items generalizing others with
  | nil =>
      rw [List.map_eq_nil_iff.mp same.symm]
      exact .nil
  | cons item rest ih =>
      cases others with
      | nil => cases same
      | cons other others =>
          obtain ⟨first, later⟩ := List.cons.inj same
          obtain ⟨head, remaining⟩ := List.forall_mem_cons.mp each
          exact .cons (head other first) (ih later remaining)

namespace HostExpr

mutual

/-- The nodes of an expression, each with what is below it, parents before arguments. -/
def subtrees : HostExpr → List HostExpr
  | ⟨className, type, nullable, name, params, children⟩ =>
    ⟨className, type, nullable, name, params, children⟩ :: subtreesOfAll children

def subtreesOfAll : List HostExpr → List HostExpr
  | [] => []
  | expr :: rest => expr.subtrees ++ subtreesOfAll rest

end

theorem subtreesOfAll_eq_flatMap (exprs : List HostExpr) :
    subtreesOfAll exprs = exprs.flatMap subtrees :=
  eq_flatMap_of_cons rfl (fun _ _ => rfl) exprs

theorem subtrees_eq (expr : HostExpr) :
    expr.subtrees = expr :: expr.children.flatMap subtrees := by
  cases expr with
  | mk className type nullable name params children =>
      rw [subtrees, subtreesOfAll_eq_flatMap]

end HostExpr

namespace HostPlan

mutual

/-- The operators of a plan, each with the plan below it, parents before inputs. -/
def subtrees : HostPlan → List HostPlan
  | ⟨className, output, expressions, partitioning, params, children⟩ =>
    ⟨className, output, expressions, partitioning, params, children⟩ :: subtreesOfAll children

def subtreesOfAll : List HostPlan → List HostPlan
  | [] => []
  | plan :: rest => plan.subtrees ++ subtreesOfAll rest

end

theorem subtreesOfAll_eq_flatMap (plans : List HostPlan) :
    subtreesOfAll plans = plans.flatMap subtrees :=
  eq_flatMap_of_cons rfl (fun _ _ => rfl) plans

theorem subtrees_eq (plan : HostPlan) :
    plan.subtrees = plan :: plan.children.flatMap subtrees := by
  cases plan with
  | mk className output expressions partitioning params children =>
      rw [subtrees, subtreesOfAll_eq_flatMap]

theorem mem_subtrees_iff {plan node : HostPlan} :
    node ∈ plan.subtrees ↔ node = plan ∨ ∃ child ∈ plan.children, node ∈ child.subtrees := by
  rw [subtrees_eq, List.mem_cons, List.mem_flatMap]

end HostPlan

/-- A node of a host tree. -/
inductive HostPart where
  | operator (plan : HostPlan)
  | expr (expr : HostExpr)

/-- The nodes of a plan: every operator in front of its inputs, and right behind it its expressions
and its partitioning, each of them in front of its arguments. -/
def HostPlan.parts (plan : HostPlan) : List HostPart :=
  plan.subtrees.flatMap fun node =>
    .operator node :: (node.allExpressions.flatMap HostExpr.subtrees).map .expr

theorem HostPlan.parts_eq (plan : HostPlan) :
    plan.parts = (.operator plan :: (plan.allExpressions.flatMap HostExpr.subtrees).map .expr) ++
      plan.children.flatMap parts := by
  rw [parts, subtrees_eq, List.flatMap_cons, List.flatMap_assoc]
  rfl

theorem HostPlan.forall_mem_parts_iff {property : HostPart → Prop} {plan : HostPlan} :
    (∀ part ∈ plan.parts, property part) ↔ ∀ node ∈ plan.subtrees,
      property (.operator node) ∧
        ∀ expr ∈ node.allExpressions, ∀ inner ∈ expr.subtrees, property (.expr inner) := by
  simp only [parts, List.forall_mem_flatMap, List.forall_mem_cons, List.forall_mem_map]

namespace GpuExpr

mutual

/-- The parts of an expression, parents before children. -/
def subtrees : GpuExpr → List GpuExpr
  | ⟨name, type, nullable, params, children⟩ =>
    ⟨name, type, nullable, params, children⟩ :: subtreesOfAll children

def subtreesOfAll : List GpuExpr → List GpuExpr
  | [] => []
  | expr :: rest => expr.subtrees ++ subtreesOfAll rest

end

theorem subtreesOfAll_eq_flatMap (exprs : List GpuExpr) :
    subtreesOfAll exprs = exprs.flatMap subtrees :=
  eq_flatMap_of_cons rfl (fun _ _ => rfl) exprs

theorem mem_subtrees_iff {expr node : GpuExpr} :
    node ∈ expr.subtrees ↔ node = expr ∨ ∃ child ∈ expr.children, node ∈ child.subtrees := by
  cases expr with
  | mk name type nullable params children =>
      rw [subtrees, subtreesOfAll_eq_flatMap, List.mem_cons, List.mem_flatMap]

end GpuExpr

namespace ExprDecision

mutual

/-- The trees whose roots are the nodes of a tree, parents before children. -/
def subtrees : ExprDecision → List ExprDecision
  | ⟨decision, children⟩ => ⟨decision, children⟩ :: subtreesOfAll children

def subtreesOfAll : List ExprDecision → List ExprDecision
  | [] => []
  | tree :: rest => tree.subtrees ++ subtreesOfAll rest

end

theorem subtreesOfAll_eq_flatMap (trees : List ExprDecision) :
    subtreesOfAll trees = trees.flatMap subtrees :=
  eq_flatMap_of_cons rfl (fun _ _ => rfl) trees

theorem mem_subtrees_iff {decision : Decision HostExpr GpuExpr} {children : List ExprDecision}
    {node : ExprDecision} :
    node ∈ subtrees ⟨decision, children⟩ ↔
      node = ⟨decision, children⟩ ∨ ∃ child ∈ children, node ∈ child.subtrees := by
  rw [subtrees, subtreesOfAll_eq_flatMap, List.mem_cons, List.mem_flatMap]

theorem forall_mem_subtrees_iff {property : ExprDecision → Prop}
    {decision : Decision HostExpr GpuExpr} {children : List ExprDecision} :
    (∀ node ∈ subtrees ⟨decision, children⟩, property node) ↔
      property ⟨decision, children⟩ ∧
        ∀ child ∈ children, ∀ node ∈ child.subtrees, property node := by
  simp only [mem_subtrees_iff, or_imp, forall_and, forall_eq, forall_exists_index, and_imp]
  exact and_congr_right fun _ => ⟨fun h child member node => h node child member,
    fun h node child member => h child member node⟩

theorem mem_subtrees_self (tree : ExprDecision) : tree ∈ tree.subtrees := by
  cases tree with
  | mk decision children => exact mem_subtrees_iff.mpr (.inl rfl)

theorem ofArguments_eq_map (registry : Registry) (parent : Option HostExpr)
    (owner : Option HostPlan) (exprs : List HostExpr) :
    ofArguments registry parent owner exprs =
      exprs.map (ofExprAt registry .expression parent owner) :=
  eq_map_of_cons rfl (fun _ _ => rfl) exprs

theorem tagAll_eq_map (registry : Registry) (config : Config) (trees : List ExprDecision) :
    tagAll registry config trees = trees.map (tag registry config) :=
  eq_map_of_cons rfl (fun _ _ => rfl) trees

theorem walkAll_eq_flatMap (trees : List ExprDecision) : walkAll trees = trees.flatMap walk :=
  eq_flatMap_of_cons rfl (fun _ _ => rfl) trees

end ExprDecision

namespace PlanDecision

mutual

/-- The trees whose roots are the operators of a tree, parents before inputs. -/
def subtrees : PlanDecision → List PlanDecision
  | ⟨decision, exprs, children⟩ => ⟨decision, exprs, children⟩ :: subtreesOfAll children

def subtreesOfAll : List PlanDecision → List PlanDecision
  | [] => []
  | tree :: rest => tree.subtrees ++ subtreesOfAll rest

end

theorem subtreesOfAll_eq_flatMap (trees : List PlanDecision) :
    subtreesOfAll trees = trees.flatMap subtrees :=
  eq_flatMap_of_cons rfl (fun _ _ => rfl) trees

theorem mem_subtrees_iff {decision : Decision HostPlan GpuOperator} {exprs : List ExprDecision}
    {children : List PlanDecision} {node : PlanDecision} :
    node ∈ subtrees ⟨decision, exprs, children⟩ ↔
      node = ⟨decision, exprs, children⟩ ∨ ∃ child ∈ children, node ∈ child.subtrees := by
  rw [subtrees, subtreesOfAll_eq_flatMap, List.mem_cons, List.mem_flatMap]

theorem mem_subtrees_self (tree : PlanDecision) : tree ∈ tree.subtrees := by
  cases tree with
  | mk decision exprs children => exact mem_subtrees_iff.mpr (.inl rfl)

theorem mem_subtrees_of_child {decision : Decision HostPlan GpuOperator}
    {exprs : List ExprDecision} {children : List PlanDecision} {child node : PlanDecision}
    (member : child ∈ children) (h : node ∈ child.subtrees) :
    node ∈ subtrees ⟨decision, exprs, children⟩ :=
  mem_subtrees_iff.mpr (.inr ⟨child, member, h⟩)

theorem mem_subtrees_of_mem_children {tree child : PlanDecision} (member : child ∈ tree.children) :
    child ∈ tree.subtrees := by
  cases tree with
  | mk decision exprs children => exact mem_subtrees_of_child member child.mem_subtrees_self

theorem ofInputs_eq_map (registry : Registry) (parent : Option HostPlan) (plans : List HostPlan) :
    ofInputs registry parent plans = plans.map (ofPlanBelow registry parent) :=
  eq_map_of_cons rfl (fun _ _ => rfl) plans

theorem tagAll_eq_map (registry : Registry) (config : Config) (trees : List PlanDecision) :
    tagAll registry config trees = trees.map (tag registry config) :=
  eq_map_of_cons rfl (fun _ _ => rfl) trees

theorem settleInputs_eq_map (parentEligible : Bool) (trees : List PlanDecision) :
    settleInputs parentEligible trees = trees.map (settleBelow parentEligible) :=
  eq_map_of_cons rfl (fun _ _ => rfl) trees

theorem walkAll_eq_flatMap (trees : List PlanDecision) : walkAll trees = trees.flatMap walk :=
  eq_flatMap_of_cons rfl (fun _ _ => rfl) trees

theorem subtrees_decision (tree : PlanDecision) : tree.subtrees.map decision = tree.walk := by
  induction tree with
  | node decision exprs children ih =>
      rw [subtrees, walk, subtreesOfAll_eq_flatMap, walkAll_eq_flatMap, List.map_cons,
        List.map_flatMap]
      exact congrArg (_ :: ·) (List.flatMap_congr ih)

end PlanDecision

namespace PlacedNode

mutual

/-- The trees whose roots are the nodes of a tree, consumers before inputs. -/
def subtrees : PlacedNode → List PlacedNode
  | ⟨operator, inputs⟩ => ⟨operator, inputs⟩ :: subtreesOfAll inputs

def subtreesOfAll : List PlacedNode → List PlacedNode
  | [] => []
  | node :: rest => node.subtrees ++ subtreesOfAll rest

end

theorem subtreesOfAll_eq_flatMap (nodes : List PlacedNode) :
    subtreesOfAll nodes = nodes.flatMap subtrees :=
  eq_flatMap_of_cons rfl (fun _ _ => rfl) nodes

theorem mem_subtrees_iff {operator : PlacedOperator} {inputs : List PlacedNode}
    {node : PlacedNode} :
    node ∈ subtrees ⟨operator, inputs⟩ ↔
      node = ⟨operator, inputs⟩ ∨ ∃ input ∈ inputs, node ∈ input.subtrees := by
  rw [subtrees, subtreesOfAll_eq_flatMap, List.mem_cons, List.mem_flatMap]

theorem mem_subtrees_self (node : PlacedNode) : node ∈ node.subtrees := by
  cases node with
  | mk operator inputs => exact mem_subtrees_iff.mpr (.inl rfl)

theorem mem_subtrees_of_input {operator : PlacedOperator} {inputs : List PlacedNode}
    {input node : PlacedNode} (member : input ∈ inputs) (h : node ∈ input.subtrees) :
    node ∈ subtrees ⟨operator, inputs⟩ :=
  mem_subtrees_iff.mpr (.inr ⟨input, member, h⟩)

/-- A part of a part of a tree is a part of the tree. -/
theorem mem_subtrees_trans {tree middle node : PlacedNode} (inner : node ∈ middle.subtrees)
    (outer : middle ∈ tree.subtrees) : node ∈ tree.subtrees := by
  induction tree with
  | node operator inputs ih =>
      rcases mem_subtrees_iff.mp outer with rfl | ⟨input, member, deeper⟩
      · exact inner
      · exact mem_subtrees_of_input member (ih input member deeper)

/-- Every node but the root is an input of some node. -/
theorem exists_consumer {root node : PlacedNode} (within : node ∈ root.subtrees) :
    node = root ∨ ∃ consumer ∈ root.subtrees, node ∈ consumer.inputs := by
  induction root with
  | node operator inputs ih =>
      rcases mem_subtrees_iff.mp within with rfl | ⟨input, member, deeper⟩
      · exact .inl rfl
      · right
        rcases ih input member deeper with rfl | ⟨consumer, below, takes⟩
        · exact ⟨_, mem_subtrees_self _, member⟩
        · exact ⟨consumer, mem_subtrees_of_input member below, takes⟩

theorem ofHostPlans_eq_map (plans : List HostPlan) :
    ofHostPlans plans = plans.map ofHostPlan :=
  eq_map_of_cons rfl (fun _ _ => rfl) plans

end PlacedNode

end GpuPlacement
