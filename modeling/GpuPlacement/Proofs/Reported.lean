import GpuPlacement.Proofs.Origin
/-!
The nodes that a report has lines for, each with everything that stands above it. A line says
nothing about the nodes above but whether the nearest one holds its own node back.
-/
namespace GpuPlacement

/-- A node with a line in reports. An operator comes with the operators that take its result, an
expression with the operator that owns it and with the expressions around it, the nearest first. -/
inductive ReportedNode where
  | operator (consumers : List PlanDecision) (tree : PlanDecision)
  | expr (consumers : List PlanDecision) (owner : PlanDecision) (enclosing : List ExprDecision)
      (tree : ExprDecision)

namespace ReportedNode

/-- The eligibility of the nearest node above, where that one may hold the node back. -/
def holderEligible : ReportedNode → Option Bool
  | .operator [] _ => none
  | .operator (consumer :: _) _ => consumer.decision.holds
  | .expr _ owner [] _ => some owner.eligible
  | .expr _ _ (outer :: _) _ => outer.decision.holds

/-- The line of the node. -/
def entry (node : ReportedNode) : ReportEntry :=
  match node with
  | .operator consumers tree => .ofDecision consumers.length node.holderEligible tree.decision
  | .expr consumers _ enclosing tree =>
    .ofDecision (consumers.length + enclosing.length + 1) node.holderEligible tree.decision

def mark (node : ReportedNode) : ReportMark :=
  node.entry.mark

end ReportedNode

mutual

def ExprDecision.nodesWithin (consumers : List PlanDecision) (owner : PlanDecision)
    (enclosing : List ExprDecision) : ExprDecision → List ReportedNode
  | ⟨decision, children⟩ =>
    .expr consumers owner enclosing ⟨decision, children⟩
      :: nodesOfExprs consumers owner (⟨decision, children⟩ :: enclosing) children

def nodesOfExprs (consumers : List PlanDecision) (owner : PlanDecision)
    (enclosing : List ExprDecision) : List ExprDecision → List ReportedNode
  | [] => []
  | tree :: rest =>
    tree.nodesWithin consumers owner enclosing ++ nodesOfExprs consumers owner enclosing rest

end

mutual

def PlanDecision.nodesBelow (consumers : List PlanDecision) : PlanDecision → List ReportedNode
  | ⟨decision, exprs, children⟩ =>
    .operator consumers ⟨decision, exprs, children⟩
      :: (nodesOfExprs consumers ⟨decision, exprs, children⟩ [] exprs
        ++ nodesOfPlans (⟨decision, exprs, children⟩ :: consumers) children)

def nodesOfPlans (consumers : List PlanDecision) : List PlanDecision → List ReportedNode
  | [] => []
  | tree :: rest => tree.nodesBelow consumers ++ nodesOfPlans consumers rest

end

/-- The nodes of a plan in the order of reports: an operator, its expressions with all their
arguments, then its inputs. -/
def PlanDecision.nodes (tree : PlanDecision) : List ReportedNode :=
  tree.nodesBelow []

theorem nodesOfExprs_eq_flatMap (consumers : List PlanDecision) (owner : PlanDecision)
    (enclosing : List ExprDecision) (trees : List ExprDecision) :
    nodesOfExprs consumers owner enclosing trees =
      trees.flatMap (ExprDecision.nodesWithin consumers owner enclosing) :=
  eq_flatMap_of_cons rfl (fun _ _ => rfl) trees

theorem nodesOfPlans_eq_flatMap (consumers : List PlanDecision) (trees : List PlanDecision) :
    nodesOfPlans consumers trees = trees.flatMap (PlanDecision.nodesBelow consumers) :=
  eq_flatMap_of_cons rfl (fun _ _ => rfl) trees

theorem entriesOfExprs_eq_flatMap (depth : Nat) (holder : Option Bool)
    (trees : List ExprDecision) :
    entriesOfExprs depth holder trees = trees.flatMap (ExprDecision.entriesAt depth holder) :=
  eq_flatMap_of_cons rfl (fun _ _ => rfl) trees

theorem entriesOfPlans_eq_flatMap (depth : Nat) (holder : Option Bool)
    (trees : List PlanDecision) :
    entriesOfPlans depth holder trees = trees.flatMap (PlanDecision.entriesAt depth holder) :=
  eq_flatMap_of_cons rfl (fun _ _ => rfl) trees

/-- The depth of an expression's line counts the operators and the expressions above it. -/
theorem ExprDecision.entriesAt_eq (consumers : List PlanDecision) (owner : PlanDecision)
    (enclosing : List ExprDecision) (tree : ExprDecision) :
    tree.entriesAt (consumers.length + enclosing.length + 1)
        (ReportedNode.expr consumers owner enclosing tree).holderEligible =
      (tree.nodesWithin consumers owner enclosing).map ReportedNode.entry := by
  induction tree generalizing enclosing with
  | node decision children ih =>
      rw [entriesAt, nodesWithin, List.map_cons, entriesOfExprs_eq_flatMap,
        nodesOfExprs_eq_flatMap, List.map_flatMap]
      refine congrArg (_ :: ·) (List.flatMap_congr fun child member => ?_)
      exact ih child member (⟨decision, children⟩ :: enclosing)

theorem PlanDecision.entriesAt_eq (consumers : List PlanDecision) (tree : PlanDecision) :
    tree.entriesAt consumers.length (ReportedNode.operator consumers tree).holderEligible =
      (tree.nodesBelow consumers).map ReportedNode.entry := by
  induction tree generalizing consumers with
  | node decision exprs children ih =>
      rw [entriesAt, nodesBelow, List.map_cons, List.map_append, entriesOfExprs_eq_flatMap,
        nodesOfExprs_eq_flatMap, entriesOfPlans_eq_flatMap, nodesOfPlans_eq_flatMap,
        List.map_flatMap, List.map_flatMap]
      have evaluated : ∀ expr ∈ exprs,
          expr.entriesAt (consumers.length + 1) (some decision.eligible) =
            (expr.nodesWithin consumers ⟨decision, exprs, children⟩ []).map ReportedNode.entry :=
        fun expr _ => expr.entriesAt_eq consumers ⟨decision, exprs, children⟩ []
      have below : ∀ child ∈ children, child.entriesAt (consumers.length + 1) decision.holds =
          (child.nodesBelow (⟨decision, exprs, children⟩ :: consumers)).map ReportedNode.entry :=
        fun child member => ih child member (⟨decision, exprs, children⟩ :: consumers)
      rw [List.flatMap_congr evaluated, List.flatMap_congr below]
      rfl

theorem ReportMode.render_all (entries : List ReportEntry) :
    render .all entries = String.join (entries.map ReportEntry.line) := by
  have shown : ∀ entry ∈ entries, ReportMode.all.shows entry = true := fun _ _ => rfl
  rw [render, List.filter_eq_self.mpr shown]

/-- A report has one line for each node. -/
theorem PlanDecision.report_eq (tree : PlanDecision) :
    tree.report .all = String.join (tree.nodes.map fun node => node.entry.line) := by
  have lines : tree.entries = tree.nodes.map ReportedNode.entry := entriesAt_eq [] tree
  rw [report, ReportMode.render_all, lines, List.map_map]
  rfl

theorem ExprDecision.mem_nodesWithin_iff {consumers : List PlanDecision} {owner : PlanDecision}
    {enclosing : List ExprDecision} {tree : ExprDecision} {node : ReportedNode} :
    node ∈ tree.nodesWithin consumers owner enclosing ↔
      node = .expr consumers owner enclosing tree ∨
        ∃ child ∈ tree.children, node ∈ child.nodesWithin consumers owner (tree :: enclosing) := by
  cases tree with
  | mk decision children =>
      rw [nodesWithin, List.mem_cons, nodesOfExprs_eq_flatMap, List.mem_flatMap]

theorem PlanDecision.mem_nodesBelow_iff {consumers : List PlanDecision} {tree : PlanDecision}
    {node : ReportedNode} :
    node ∈ tree.nodesBelow consumers ↔
      node = .operator consumers tree ∨
        (∃ expr ∈ tree.exprs, node ∈ expr.nodesWithin consumers tree []) ∨
        ∃ child ∈ tree.children, node ∈ child.nodesBelow (tree :: consumers) := by
  cases tree with
  | mk decision exprs children =>
      rw [nodesBelow, List.mem_cons, List.mem_append, nodesOfExprs_eq_flatMap, List.mem_flatMap,
        nodesOfPlans_eq_flatMap, List.mem_flatMap]

/-- The nodes that the lines from a node's own one on are about, as far as they belong to it. -/
def ReportedNode.within : ReportedNode → List ReportedNode
  | .operator consumers tree => tree.nodesBelow consumers
  | .expr consumers owner enclosing tree => tree.nodesWithin consumers owner enclosing

theorem ReportedNode.mem_within_self (node : ReportedNode) : node ∈ node.within := by
  cases node with
  | operator => exact PlanDecision.mem_nodesBelow_iff.mpr (.inl rfl)
  | expr => exact ExprDecision.mem_nodesWithin_iff.mpr (.inl rfl)

theorem ExprDecision.within_subset {consumers : List PlanDecision} {owner : PlanDecision}
    {enclosing : List ExprDecision} {tree : ExprDecision} {node : ReportedNode}
    (member : node ∈ tree.nodesWithin consumers owner enclosing) :
    node.within ⊆ tree.nodesWithin consumers owner enclosing := by
  induction tree generalizing enclosing with
  | node decision children ih =>
      rcases mem_nodesWithin_iff.mp member with rfl | ⟨child, among, deeper⟩
      · exact List.Subset.refl _
      · intro inner inside
        exact mem_nodesWithin_iff.mpr (.inr ⟨child, among, ih child among deeper inside⟩)

theorem PlanDecision.within_subset {consumers : List PlanDecision} {tree : PlanDecision}
    {node : ReportedNode} (member : node ∈ tree.nodesBelow consumers) :
    node.within ⊆ tree.nodesBelow consumers := by
  induction tree generalizing consumers with
  | node decision exprs children ih =>
      rcases mem_nodesBelow_iff.mp member with rfl | ⟨expr, among, inside⟩ | ⟨child, among, deeper⟩
      · exact List.Subset.refl _
      · intro inner further
        exact mem_nodesBelow_iff.mpr
          (.inr (.inl ⟨expr, among, ExprDecision.within_subset inside further⟩))
      · intro inner further
        exact mem_nodesBelow_iff.mpr (.inr (.inr ⟨child, among, ih child among deeper further⟩))

namespace PlanDecision

/-- The places in a tree of decisions, from the root downwards. -/
inductive Reaches (tree : PlanDecision) : ReportedNode → Prop
  | root : tree.Reaches (.operator [] tree)
  | input {consumers part child} : tree.Reaches (.operator consumers part) →
      child ∈ part.children → tree.Reaches (.operator (part :: consumers) child)
  | expression {consumers part expr} : tree.Reaches (.operator consumers part) →
      expr ∈ part.exprs → tree.Reaches (.expr consumers part [] expr)
  | argument {consumers owner enclosing expr child} :
      tree.Reaches (.expr consumers owner enclosing expr) → child ∈ expr.children →
      tree.Reaches (.expr consumers owner (expr :: enclosing) child)

variable {tree : PlanDecision}

theorem Reaches.mem_nodesWithin {consumers : List PlanDecision} {owner : PlanDecision}
    {enclosing : List ExprDecision} {expr : ExprDecision} {node : ReportedNode}
    (here : tree.Reaches (.expr consumers owner enclosing expr))
    (member : node ∈ expr.nodesWithin consumers owner enclosing) : tree.Reaches node := by
  induction expr generalizing enclosing with
  | node decision children ih =>
      rcases ExprDecision.mem_nodesWithin_iff.mp member with rfl | ⟨child, among, deeper⟩
      · exact here
      · exact ih child among (here.argument among) deeper

theorem Reaches.mem_nodesBelow {consumers : List PlanDecision} {part : PlanDecision}
    {node : ReportedNode} (here : tree.Reaches (.operator consumers part))
    (member : node ∈ part.nodesBelow consumers) : tree.Reaches node := by
  induction part generalizing consumers with
  | node decision exprs children ih =>
      rcases mem_nodesBelow_iff.mp member with rfl | ⟨expr, among, inside⟩ | ⟨child, among, deeper⟩
      · exact here
      · exact (here.expression among).mem_nodesWithin inside
      · exact ih child among (here.input among) deeper

/-- A report has lines for every place in the tree, and for nothing else. -/
theorem mem_nodes_iff {node : ReportedNode} : node ∈ tree.nodes ↔ tree.Reaches node := by
  refine ⟨Reaches.root.mem_nodesBelow, fun reached => ?_⟩
  induction reached with
  | root => exact ReportedNode.mem_within_self (.operator [] tree)
  | @input consumers part child _ among above =>
      have own := ReportedNode.mem_within_self (.operator (part :: consumers) child)
      exact within_subset above (mem_nodesBelow_iff.mpr (.inr (.inr ⟨child, among, own⟩)))
  | @expression consumers part expr _ among above =>
      have own := ReportedNode.mem_within_self (.expr consumers part [] expr)
      exact within_subset above (mem_nodesBelow_iff.mpr (.inr (.inl ⟨expr, among, own⟩)))
  | @argument consumers owner enclosing expr child _ among above =>
      have own := ReportedNode.mem_within_self (.expr consumers owner (expr :: enclosing) child)
      exact within_subset above
        (ExprDecision.mem_nodesWithin_iff.mpr (.inr ⟨child, among, own⟩))

theorem mem_subtrees_trans {middle node : PlanDecision} (inner : node ∈ middle.subtrees)
    (outer : middle ∈ tree.subtrees) : node ∈ tree.subtrees := by
  induction tree with
  | node decision exprs children ih =>
      rcases mem_subtrees_iff.mp outer with rfl | ⟨child, member, deeper⟩
      · exact inner
      · exact mem_subtrees_of_child member (ih child member deeper)

end PlanDecision

theorem ExprDecision.mem_subtrees_of_argument {tree part child : ExprDecision}
    (within : part ∈ tree.subtrees) (member : child ∈ part.children) : child ∈ tree.subtrees := by
  induction tree with
  | node decision children ih =>
      rcases mem_subtrees_iff.mp within with rfl | ⟨other, among, deeper⟩
      · exact mem_subtrees_iff.mpr (.inr ⟨child, member, child.mem_subtrees_self⟩)
      · exact mem_subtrees_iff.mpr (.inr ⟨other, among, ih other among deeper⟩)

namespace PlanDecision

variable {tree : PlanDecision}

/-- Where a node with a line stands in the tree of decisions. -/
def Holds (tree : PlanDecision) : ReportedNode → Prop
  | .operator _ part => part ∈ tree.subtrees
  | .expr _ owner _ part => owner ∈ tree.subtrees ∧ ∃ root ∈ owner.exprs, part ∈ root.subtrees

theorem Reaches.holds {node : ReportedNode} (reached : tree.Reaches node) : tree.Holds node := by
  induction reached with
  | root => exact tree.mem_subtrees_self
  | input _ among above => exact mem_subtrees_trans (mem_subtrees_of_mem_children among) above
  | expression _ among above => exact ⟨above, _, among, ExprDecision.mem_subtrees_self _⟩
  | argument _ among above =>
      obtain ⟨owner, root, member, outer⟩ := above
      exact ⟨owner, root, member, ExprDecision.mem_subtrees_of_argument outer among⟩

end PlanDecision

namespace ReportEntry

variable {Node Op : Type} [HostNode Node] {depth : Nat} {holderEligible : Option Bool}
  {decision : Decision Node Op}

/-- Reasons against a node come first, then what stands above it. -/
theorem mark_cases (depth : Nat) (holderEligible : Option Bool) (decision : Decision Node Op) :
    (decision.eligible = false ∧ (ofDecision depth holderEligible decision).mark = .onHost) ∨
    (decision.eligible = true ∧ holderEligible = some false ∧
      (ofDecision depth holderEligible decision).mark = .heldBack) ∨
    (decision.eligible = true ∧ holderEligible ≠ some false ∧
      (ofDecision depth holderEligible decision).mark =
        if decision.noOp then .removed else .onGpu) := by
  cases eligible : decision.eligible with
  | false => simp [ofDecision, eligible]
  | true => by_cases held : holderEligible = some false <;> simp [ofDecision, eligible, held]

theorem mark_eq_onHost_iff :
    (ofDecision depth holderEligible decision).mark = .onHost ↔ decision.eligible = false := by
  rcases mark_cases depth holderEligible decision with
    ⟨ineligible, mark⟩ | ⟨eligible, -, mark⟩ | ⟨eligible, -, mark⟩
  · simp [mark, ineligible]
  · simp [mark, eligible]
  · cases marked : decision.noOp <;> simp [mark, eligible, marked]

theorem mark_eq_heldBack_iff :
    (ofDecision depth holderEligible decision).mark = .heldBack ↔
      decision.eligible = true ∧ holderEligible = some false := by
  rcases mark_cases depth holderEligible decision with
    ⟨ineligible, mark⟩ | ⟨eligible, held, mark⟩ | ⟨-, free, mark⟩
  · simp [mark, ineligible]
  · exact iff_of_true mark ⟨eligible, held⟩
  · cases marked : decision.noOp <;> simp [mark, free, marked]

theorem mark_of_free (eligible : decision.eligible = true) (free : holderEligible ≠ some false) :
    (ofDecision depth holderEligible decision).mark =
      if decision.noOp then .removed else .onGpu := by
  simp [ofDecision, eligible, free]

end ReportEntry

/-! Which nodes hold others back. Categories are fixed before tagging. -/

namespace Builtin

theorem operatorRules_hold_nothing : ∀ rule ∈ operatorRules,
    rule.spec.kind.holdsChildren = false := by
  decide +kernel

theorem exprRules_hold : ∀ rule ∈ exprRules, rule.spec.kind.holdsChildren = true := by
  decide +kernel

end Builtin

namespace ExprDecision

variable {config : Config} {kind : RuleKind} {parent : Option HostExpr} {owner : Option HostPlan}

theorem ofExprAt_holds (holding : kind.holdsChildren = true) (expr : HostExpr) :
    ∀ part ∈ (ofExprAt Builtin.registry kind parent owner expr).subtrees,
      part.decision.kind.holdsChildren = true := by
  induction expr generalizing kind parent with
  | node className type nullable name params children ih =>
      rw [ofExprAt_eq, forall_mem_subtrees_iff]
      constructor
      · cases found : Builtin.registry.exprs.find? className with
        | none => simpa [Decision.undecided, found] using holding
        | some rule =>
            simpa [Decision.undecided, found] using
              Builtin.exprRules_hold rule (Builtin.mem_of_find?_exprs found)
      · intro child member
        obtain ⟨inner, among, rfl⟩ := List.mem_map.mp member
        exact ih inner among rfl

theorem tag_holds {tree : ExprDecision} (holding : tree.decision.kind.holdsChildren = true) :
    (tree.tag Builtin.registry config).decision.holds =
      some (tree.tag Builtin.registry config).eligible := by
  rw [Decision.holds, tag_kind, holding]
  rfl

end ExprDecision

namespace PlanDecision

variable {config : Config} {plan : HostPlan} {part : PlanDecision}

theorem ofPlanBelow_holds_nothing (parent : Option HostPlan) (plan : HostPlan) :
    (ofPlanBelow Builtin.registry parent plan).decision.kind.holdsChildren = false := by
  rw [ofPlanBelow_eq]
  cases found : Builtin.registry.operators.find? plan.className with
  | none => rfl
  | some rule =>
      exact Builtin.operatorRules_hold_nothing rule (Builtin.mem_of_find?_operators found)

theorem settleExchange_kind (parentEligible : Bool) (decision : Decision HostPlan GpuOperator)
    (children : List PlanDecision) :
    (settleExchange parentEligible decision children).kind = decision.kind := by
  unfold settleExchange
  split <;> rfl

theorem holds_tagPlan (within : part ∈ (tagPlan Builtin.registry config plan).subtrees) :
    part.decision.holds = none := by
  obtain ⟨parent, tagged, same, kept⟩ := mem_subtrees_tagPlan within
  have before : tagged.decision.kind.holdsChildren = false := by
    rw [same, tag_kind, ofPlanBelow_holds_nothing]
  have after : part.decision.kind.holdsChildren = false := by
    rcases kept with rfl | ⟨parentEligible, rfl⟩
    · exact before
    · rwa [settleBelow_eq, settleExchange_kind]
  rw [Decision.holds, after]
  rfl

/-- Every part of an expression in a tagged plan is tagged on its own. -/
theorem mem_subtrees_exprs_tagPlan {root expr : ExprDecision}
    (within : part ∈ (tagPlan Builtin.registry config plan).subtrees) (member : root ∈ part.exprs)
    (inside : expr ∈ root.subtrees) :
    ∃ kind parent host, expr = (ExprDecision.ofExprAt Builtin.registry kind parent
        (some part.decision.node) host).tag Builtin.registry config ∧
      (ExprDecision.ofExprAt Builtin.registry kind parent (some part.decision.node)
        host).decision.kind.holdsChildren = true := by
  rw [(tagPlan_allReady config plan part within).exprs] at member
  obtain ⟨undecided, among, rfl⟩ := List.mem_map.mp member
  rw [ExprDecision.subtrees_tag] at inside
  obtain ⟨inner, deeper, rfl⟩ := List.mem_map.mp inside
  have holding : inner.decision.kind.holdsChildren = true := by
    rcases List.mem_append.mp among with evaluated | partitioning
    · obtain ⟨expr, -, rfl⟩ := List.mem_map.mp evaluated
      exact ExprDecision.ofExprAt_holds rfl expr inner deeper
    · obtain ⟨expr, -, rfl⟩ := List.mem_map.mp partitioning
      exact ExprDecision.ofExprAt_holds rfl expr inner deeper
  obtain ⟨kind, top, rfl⟩ := mem_ofExpressions among
  obtain ⟨kind, parent, host, rfl⟩ := ExprDecision.mem_subtrees_ofExprAt deeper
  exact ⟨kind, parent, host, rfl, holding⟩

end PlanDecision

end GpuPlacement
