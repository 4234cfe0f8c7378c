import Mathlib.Data.List.Induction
import GpuPlacement.Proofs.Broadcasts
import GpuPlacement.Proofs.Visibility
/-!
Tagging one tree over and over. Later passes see dependencies that earlier ones rejected, so they
may add reasons that a fresh tree would not get. They do so only to nodes that are ineligible
already: to a node that is still eligible a pass adds what it would add to a fresh one.
-/
namespace GpuPlacement

/-- What happens to one node under several passes, as a function of their configurations. -/
structure Decision.Composes {Node Op : Type} (after : List Config → Decision Node Op) : Prop where
  /-- Together the passes find the node eligible when each one would do so on its own. -/
  eligible_iff : ∀ configs, (after configs).eligible = true ↔
    ∀ config ∈ configs, (after [config]).eligible = true
  appends : ∀ configs config, (after configs).reasons <+: (after (configs ++ [config])).reasons
  repeats : ∀ count config, (after (List.replicate count config)).reasons =
    (List.replicate count (after [config]).reasons).flatten

/-- If each pass changes the parts of a tree one by one, so do several passes. -/
theorem foldl_map_parts {Tree Part : Type} {parts : Tree → List Part}
    {tag : Tree → Config → Tree} {tagPart : Part → Config → Part}
    (each : ∀ tree config, parts (tag tree config) = (parts tree).map (tagPart · config))
    (configs : List Config) (tree : Tree) :
    parts (configs.foldl tag tree) = (parts tree).map (configs.foldl tagPart) := by
  induction configs generalizing tree with
  | nil => exact (List.map_id _).symm
  | cons config rest ih =>
      rw [List.foldl_cons, ih, each, List.map_map]
      rfl

theorem foldl_keeps {Tree Part : Type} (part : Tree → Part) {tag : Tree → Config → Tree}
    (kept : ∀ tree config, part (tag tree config) = part tree) (configs : List Config)
    (tree : Tree) : part (configs.foldl tag tree) = part tree := by
  induction configs generalizing tree with
  | nil => rfl
  | cons config rest ih => rw [List.foldl_cons, ih, kept]

namespace Decision

variable {Node Op : Type} {after : List Config → Decision Node Op}

theorem eligible_iff_reasons {decision : Decision Node Op} :
    decision.eligible = true ↔ decision.reasons = [] :=
  List.isEmpty_iff

/-- Passes compose if they find the same as a first pass, at least as long as the node is eligible
and as long as the configuration does not change. -/
theorem composes_of_found (found : List Config → Config → List String)
    (fresh : (after []).reasons = [])
    (adds : ∀ configs config,
      (after (configs ++ [config])).reasons = (after configs).reasons ++ found configs config)
    (steady : ∀ configs config, (after configs).eligible = true →
      found configs config = found [] config)
    (again : ∀ count config, found (List.replicate count config) config = found [] config) :
    Composes after := by
  have first (config : Config) : (after [config]).reasons = found [] config := by
    have added := adds [] config
    rwa [fresh] at added
  constructor
  case eligible_iff =>
    intro configs
    induction configs using List.reverseRecOn with
    | nil => simp [eligible_iff_reasons, fresh]
    | append_singleton configs config ih =>
        rw [List.forall_mem_append, List.forall_mem_singleton, ← ih, eligible_iff_reasons, adds,
          List.append_eq_nil_iff, ← eligible_iff_reasons]
        refine and_congr_right fun eligible => ?_
        rw [steady configs config eligible, ← first, eligible_iff_reasons]
  case appends =>
    intro configs config
    rw [adds]
    exact List.prefix_append _ _
  case repeats =>
    intro count config
    induction count with
    | zero => exact fresh
    | succ count ih =>
        rw [List.replicate_succ', adds, ih, again, ← first, List.replicate_succ',
          List.flatten_concat]

/-- A pass over an eligible node leaves it eligible when a first pass would. -/
theorem Composes.eligible_next (h : Composes after) {configs : List Config} {config : Config}
    (eligible : (after configs).eligible = true) :
    (after (configs ++ [config])).eligible = (after [config]).eligible := by
  rw [Bool.eq_iff_iff, h.eligible_iff, List.forall_mem_append, ← h.eligible_iff,
    List.forall_mem_singleton]
  exact and_iff_right eligible

theorem Composes.eligible_again (h : Composes after) (count : Nat) (config : Config) :
    (after (List.replicate count config ++ [config])).eligible = (after [config]).eligible := by
  rw [Bool.eq_iff_iff, h.eligible_iff, ← List.replicate_succ']
  constructor
  · intro each
    exact each config (List.mem_replicate.mpr ⟨Nat.succ_ne_zero count, rfl⟩)
  · intro eligible other member
    exact List.eq_of_mem_replicate member ▸ eligible

end Decision

namespace ExprDecision

/-- Tags a tree with one configuration after the other. -/
def passes (registry : Registry) (configs : List Config) (tree : ExprDecision) : ExprDecision :=
  configs.foldl (fun tree config => tree.tag registry config) tree

section

variable (registry : Registry) (configs : List Config) (tree : ExprDecision)

theorem passes_concat (config : Config) :
    tree.passes registry (configs ++ [config]) =
      (tree.passes registry configs).tag registry config :=
  List.foldl_concat ..

theorem passes_children :
    (tree.passes registry configs).children = tree.children.map (passes registry configs) :=
  foldl_map_parts (fun tree config => tag_children registry config tree) configs tree

theorem subtrees_passes :
    (tree.passes registry configs).subtrees = tree.subtrees.map (passes registry configs) :=
  foldl_map_parts (fun tree config => subtrees_tag registry config tree) configs tree

theorem passes_node : (tree.passes registry configs).decision.node = tree.decision.node :=
  foldl_keeps (fun tree => tree.decision.node) (fun tree config => tag_node registry config tree)
    configs tree

theorem passes_kind : (tree.passes registry configs).decision.kind = tree.decision.kind :=
  foldl_keeps (fun tree => tree.decision.kind) (fun tree config => tag_kind registry config tree)
    configs tree

theorem passes_owner : (tree.passes registry configs).decision.owner = tree.decision.owner :=
  foldl_keeps (fun tree => tree.decision.owner) (fun tree config => tag_owner registry config tree)
    configs tree

end

theorem summary_passes {registry : Registry} {configs : List Config} {config : Config}
    {tree : ExprDecision} (same : (tree.passes registry (configs ++ [config])).eligible =
      (tree.tag registry config).eligible) :
    ((tree.passes registry configs).tag registry config).summary =
      (tree.tag registry config).summary := by
  rw [← passes_concat]
  refine Prod.ext ?_ same
  have node : (tree.passes registry (configs ++ [config])).decision.node =
      (tree.tag registry config).decision.node := by
    rw [passes_node, tag_node]
  exact congrArg (fun node => (HostNode.className node).short) node

/-- A pass finds what a first pass does if it leaves the same arguments eligible. -/
theorem found_passes {configs : List Config} {config : Config} {tree : ExprDecision}
    (same : ∀ child ∈ tree.children,
      (child.passes Builtin.registry (configs ++ [config])).eligible =
        (child.tag Builtin.registry config).eligible) :
    (tree.passes Builtin.registry configs).found Builtin.registry config =
      tree.found Builtin.registry config := by
  refine found_congr (passes_node ..) (passes_kind ..) (congrArg _ (passes_owner ..)) ?_
  rw [passes_children, List.map_map]
  exact List.map_congr_left fun child member => summary_passes (same child member)

/-- An expression is not eligible after several passes unless its arguments are. -/
theorem eligible_arguments {registry : Registry} {configs : List Config} {tree : ExprDecision}
    (fresh : ∀ child ∈ tree.children, child.decision.reasons = [])
    (eligible : (tree.passes registry configs).eligible = true) :
    ∀ child ∈ tree.children, (child.passes registry configs).eligible = true := by
  rcases List.eq_nil_or_concat' configs with rfl | ⟨earlier, last, rfl⟩
  · intro child member
    exact Decision.eligible_iff_reasons.mpr (fresh child member)
  · rw [passes_concat] at eligible
    have below := (supported_of_eligible_tag eligible).2
    rwa [← passes_concat, passes_children, List.forall_mem_map] at below

/-- Passes compose at an expression if they do so at its arguments. -/
theorem composes_of_arguments {tree : ExprDecision} (fresh : tree.decision.reasons = [])
    (freshBelow : ∀ child ∈ tree.children, child.decision.reasons = [])
    (below : ∀ child ∈ tree.children,
      Decision.Composes fun configs => (child.passes Builtin.registry configs).decision) :
    Decision.Composes fun configs => (tree.passes Builtin.registry configs).decision := by
  refine Decision.composes_of_found (fun configs config =>
    (tree.passes Builtin.registry configs).found Builtin.registry config) fresh ?adds ?steady ?again
  case adds =>
    intro configs config
    rw [passes_concat, reasons_tag]
  case steady =>
    intro configs config eligible
    refine found_passes fun child member => ?_
    exact (below child member).eligible_next (eligible_arguments freshBelow eligible child member)
  case again =>
    intro count config
    exact found_passes fun child member => (below child member).eligible_again count config

theorem composes (kind : RuleKind) (parent : Option HostExpr) (owner : Option HostPlan)
    (expr : HostExpr) :
    Decision.Composes fun configs =>
      ((ofExprAt Builtin.registry kind parent owner expr).passes Builtin.registry
        configs).decision := by
  induction expr generalizing kind parent with
  | node className type nullable name params children ih =>
      apply composes_of_arguments (ofExprAt_reasons ..)
      all_goals rw [ofExprAt_children, List.forall_mem_map]
      · exact fun child _ => ofExprAt_reasons ..
      · exact fun child member => ih child member _ _

end ExprDecision

namespace PlanDecision

/-- Tags a plan with one configuration after the other. -/
def passes (registry : Registry) (configs : List Config) (tree : PlanDecision) : PlanDecision :=
  configs.foldl (fun tree config => tree.tag registry config) tree

section

variable (registry : Registry) (configs : List Config) (tree : PlanDecision)

theorem passes_concat (config : Config) :
    tree.passes registry (configs ++ [config]) =
      (tree.passes registry configs).tag registry config :=
  List.foldl_concat ..

theorem passes_children :
    (tree.passes registry configs).children = tree.children.map (passes registry configs) :=
  foldl_map_parts (fun tree config => tag_children registry config tree) configs tree

theorem passes_exprs :
    (tree.passes registry configs).exprs =
      tree.exprs.map (ExprDecision.passes registry configs) :=
  foldl_map_parts (fun tree config => tag_exprs registry config tree) configs tree

theorem subtrees_passes :
    (tree.passes registry configs).subtrees = tree.subtrees.map (passes registry configs) :=
  foldl_map_parts (fun tree config => subtrees_tag registry config tree) configs tree

theorem passes_node : (tree.passes registry configs).decision.node = tree.decision.node :=
  foldl_keeps (fun tree => tree.decision.node) (fun tree config => tag_node registry config tree)
    configs tree

theorem passes_kind : (tree.passes registry configs).decision.kind = tree.decision.kind :=
  foldl_keeps (fun tree => tree.decision.kind) (fun tree config => tag_kind registry config tree)
    configs tree

end

theorem summary_passes {registry : Registry} {configs : List Config} {config : Config}
    {tree : PlanDecision} (same : (tree.passes registry (configs ++ [config])).eligible =
      (tree.tag registry config).eligible) :
    ((tree.passes registry configs).tag registry config).summary =
      (tree.tag registry config).summary := by
  rw [← passes_concat]
  refine Prod.ext ?_ same
  have node : (tree.passes registry (configs ++ [config])).decision.node =
      (tree.tag registry config).decision.node := by
    rw [passes_node, tag_node]
  exact congrArg (fun node => (HostNode.className node).short) node

/-- A pass finds what a first pass does if it leaves the same expressions eligible and, below a
broadcast join, the build side. -/
theorem found_passes {configs : List Config} {config : Config} {tree : PlanDecision}
    (exprs : ∀ expr ∈ tree.exprs,
      (expr.passes Builtin.registry (configs ++ [config])).eligible =
        (expr.tag Builtin.registry config).eligible)
    (built : tree.decision.node.className = .operator "BroadcastHashJoinExec" →
      ∀ build, tree.children[OperatorCheck.buildSide tree.decision.node]? = some build →
        (build.passes Builtin.registry (configs ++ [config])).eligible =
          (build.tag Builtin.registry config).eligible) :
    (tree.passes Builtin.registry configs).found Builtin.registry config =
      tree.found Builtin.registry config := by
  refine found_congr ?_ (passes_kind ..) ?_ ?_
  · rw [passes_node]
    exact .refl _
  · rw [passes_exprs, List.map_map]
    exact List.map_congr_left fun expr member => ExprDecision.summary_passes (exprs expr member)
  · intro joins
    rw [passes_node] at joins ⊢
    rw [OperatorCheck.buildSummary, OperatorCheck.buildSummary, passes_children, List.map_map,
      List.getElem?_map, List.getElem?_map, Option.map_map, Option.map_map]
    refine Option.map_congr fun build place => ?_
    exact summary_passes (built joins build place)

/-- An operator is not eligible after several passes unless its expressions are. -/
theorem eligible_exprs {registry : Registry} {configs : List Config} {tree : PlanDecision}
    (fresh : ∀ expr ∈ tree.exprs, expr.decision.reasons = [])
    (eligible : (tree.passes registry configs).eligible = true) :
    ∀ expr ∈ tree.exprs, (expr.passes registry configs).eligible = true := by
  rcases List.eq_nil_or_concat' configs with rfl | ⟨earlier, last, rfl⟩
  · intro expr member
    exact Decision.eligible_iff_reasons.mpr (fresh expr member)
  · rw [passes_concat] at eligible
    have below := (supported_of_eligible_tag eligible).2
    rwa [← passes_concat, passes_exprs, List.forall_mem_map] at below

/-- A broadcast join is not eligible after several passes unless its build side is. -/
theorem eligible_build {configs : List Config} {tree build : PlanDecision}
    (joins : tree.decision.node.className = .operator "BroadcastHashJoinExec")
    (place : tree.children[OperatorCheck.buildSide tree.decision.node]? = some build)
    (fresh : build.decision.reasons = [])
    (eligible : (tree.passes Builtin.registry configs).eligible = true) :
    (build.passes Builtin.registry configs).eligible = true := by
  rcases List.eq_nil_or_concat' configs with rfl | ⟨earlier, last, rfl⟩
  · exact Decision.eligible_iff_reasons.mpr fresh
  · rw [passes_concat] at eligible ⊢
    rw [← passes_node Builtin.registry earlier tree] at joins
    obtain ⟨input, found, -, onGpu⟩ := build_of_eligible_tag joins eligible
    rw [passes_node, passes_children, List.getElem?_map, place] at found
    cases found
    exact onGpu

/-- Passes compose at an operator if they do so at its expressions and at its inputs. -/
theorem composes_of_inputs {tree : PlanDecision} (fresh : tree.decision.reasons = [])
    (freshExprs : ∀ expr ∈ tree.exprs, expr.decision.reasons = [])
    (freshInputs : ∀ child ∈ tree.children, child.decision.reasons = [])
    (exprs : ∀ expr ∈ tree.exprs,
      Decision.Composes fun configs => (expr.passes Builtin.registry configs).decision)
    (inputs : ∀ child ∈ tree.children,
      Decision.Composes fun configs => (child.passes Builtin.registry configs).decision) :
    Decision.Composes fun configs => (tree.passes Builtin.registry configs).decision := by
  refine Decision.composes_of_found (fun configs config =>
    (tree.passes Builtin.registry configs).found Builtin.registry config) fresh ?adds ?steady ?again
  case adds =>
    intro configs config
    rw [passes_concat, reasons_tag]
  case steady =>
    intro configs config eligible
    refine found_passes (fun expr member => ?_) fun joins build place => ?_
    · exact (exprs expr member).eligible_next (eligible_exprs freshExprs eligible expr member)
    · have member := List.mem_of_getElem? place
      exact (inputs build member).eligible_next
        (eligible_build joins place (freshInputs build member) eligible)
  case again =>
    intro count config
    refine found_passes (fun expr member => ?_) fun joins build place => ?_
    · exact (exprs expr member).eligible_again count config
    · exact (inputs build (List.mem_of_getElem? place)).eligible_again count config

theorem composes (parent : Option HostPlan) (plan : HostPlan) :
    Decision.Composes fun configs =>
      ((ofPlanBelow Builtin.registry parent plan).passes Builtin.registry configs).decision := by
  induction plan generalizing parent with
  | node className output expressions partitioning params children ih =>
      apply composes_of_inputs (ofPlanBelow_reasons ..)
      case freshExprs =>
        intro expr member
        rw [ofPlanBelow_exprs] at member
        obtain ⟨kind, root, rfl⟩ := mem_ofExpressions member
        exact ExprDecision.ofExprAt_reasons ..
      case exprs =>
        intro expr member
        rw [ofPlanBelow_exprs] at member
        obtain ⟨kind, root, rfl⟩ := mem_ofExpressions member
        exact ExprDecision.composes ..
      all_goals rw [ofPlanBelow_children, List.forall_mem_map]
      · exact fun child _ => ofPlanBelow_reasons ..
      · exact fun child member => ih child member _

end PlanDecision

/-- Passes over an expression act on its nodes one by one, and at each node they compose. -/
structure ExprDecision.PassesCompose (tree : ExprDecision) : Prop where
  nodewise : ∀ configs, (tree.passes Builtin.registry configs).subtrees =
    tree.subtrees.map (passes Builtin.registry configs)
  nodes : ∀ node ∈ tree.subtrees,
    Decision.Composes fun configs => (node.passes Builtin.registry configs).decision

/-- Passes over a plan act on its operators and their expressions one by one, and they compose at
each of them. -/
structure PlanDecision.PassesCompose (tree : PlanDecision) : Prop where
  nodewise : ∀ configs, (tree.passes Builtin.registry configs).subtrees =
    tree.subtrees.map (passes Builtin.registry configs)
  exprwise : ∀ operator ∈ tree.subtrees, ∀ configs,
    (operator.passes Builtin.registry configs).exprs =
      operator.exprs.map (ExprDecision.passes Builtin.registry configs)
  operators : ∀ operator ∈ tree.subtrees,
    Decision.Composes fun configs => (operator.passes Builtin.registry configs).decision
  exprs : ∀ operator ∈ tree.subtrees, ∀ expr ∈ operator.exprs, expr.PassesCompose

theorem ExprDecision.passesCompose (kind : RuleKind) (parent : Option HostExpr)
    (owner : Option HostPlan) (expr : HostExpr) :
    (ofExprAt Builtin.registry kind parent owner expr).PassesCompose where
  nodewise configs := subtrees_passes ..
  nodes := by
    intro node within
    obtain ⟨kind, parent, inner, rfl⟩ := mem_subtrees_ofExprAt within
    exact composes kind parent owner inner

/-- Tagging with several configurations in turn leaves eligible what each of them alone leaves
eligible, in every plan and in every expression. Each pass appends to the reasons of every node,
and repeated passes with one configuration repeat the reasons of the first. -/
theorem passes_compose :
    (∀ expr, (ExprDecision.ofExpr Builtin.registry expr).PassesCompose) ∧
    ∀ plan, (PlanDecision.ofPlan Builtin.registry plan).PassesCompose := by
  constructor
  · intro expr
    exact ExprDecision.passesCompose .expression none none expr
  · intro plan
    constructor
    case nodewise => exact fun configs => PlanDecision.subtrees_passes ..
    case exprwise => exact fun operator _ configs => PlanDecision.passes_exprs ..
    case operators =>
      intro operator within
      obtain ⟨parent, inner, rfl⟩ := PlanDecision.mem_subtrees_ofPlanBelow within
      exact PlanDecision.composes parent inner
    case exprs =>
      intro operator within expr member
      obtain ⟨parent, inner, rfl⟩ := PlanDecision.mem_subtrees_ofPlanBelow within
      rw [PlanDecision.ofPlanBelow_exprs] at member
      obtain ⟨kind, root, rfl⟩ := PlanDecision.mem_ofExpressions member
      exact ExprDecision.passesCompose kind none (some inner) root

end GpuPlacement
