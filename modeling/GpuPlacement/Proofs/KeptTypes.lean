import GpuPlacement.Proofs.Converted
/-!
Conversion of tagged expressions succeeds and keeps types. An expression has the type that its host
node declares, however it comes about: as a copy, as the argument of a cast that is left out, or as
a folded literal.
-/
namespace GpuPlacement.ExprDecision

variable {config : Config}

/-- The tree has exactly the nodes of an expression, in their order. -/
structure Mirrors (tree : ExprDecision) (expr : HostExpr) : Prop where
  root : tree.decision.node = expr
  arguments : ∀ node ∈ tree.subtrees,
    node.children.map (·.decision.node) = node.decision.node.children

theorem tag_ofExprAt_mirrors (registry : Registry) (config : Config) (kind : RuleKind)
    (parent : Option HostExpr) (owner : Option HostPlan) (expr : HostExpr) :
    ((ofExprAt registry kind parent owner expr).tag registry config).Mirrors expr where
  root := by rw [tag_node, ofExprAt_node]
  arguments := by
    intro node within
    rw [subtrees_tag] at within
    obtain ⟨part, below, rfl⟩ := List.mem_map.mp within
    obtain ⟨kind, parent, inner, rfl⟩ := mem_subtrees_ofExprAt below
    simp [Function.comp_def]

theorem eligible_of_mem_subtrees_tag {registry : Registry} {tree node : ExprDecision}
    (eligible : (tree.tag registry config).eligible = true)
    (within : node ∈ (tree.tag registry config).subtrees) : node.eligible = true := by
  induction tree with
  | node decision children ih =>
      have below := (supported_of_eligible_tag eligible).2
      rw [tag_children] at below
      rw [tag_eq, mem_subtrees_iff] at within
      rcases within with rfl | ⟨argument, member, deeper⟩
      · rwa [tag_eq] at eligible
      · obtain ⟨child, among, rfl⟩ := List.mem_map.mp member
        exact ih child among (below _ member) deeper

/-- The ways in which a node comes out of conversion. Only a copy has arguments of its own to show,
and they have the types of the node's arguments. -/
inductive Outcome (config : Config) (node : ExprDecision) (gpu : GpuExpr) : Prop
  | elided (child : ExprDecision) (rest : List ExprDecision) : node.decision.noOp = true →
      node.children = child :: rest →
      (child.convert Builtin.registry config).1 = .ok gpu → Outcome config node gpu
  | folded (value : Scalar) : gpu = .literal value → Outcome config node gpu
  | copied : gpu.name = node.decision.node.className.gpuName →
      gpu.children.map (·.type) = node.decision.node.children.map (·.type) →
      Outcome config node gpu

theorem outcome_of_convert {kind : RuleKind} {parent : Option HostExpr} {owner : Option HostPlan}
    {expr : HostExpr} {gpu : GpuExpr}
    (done : (((ofExprAt Builtin.registry kind parent owner expr).tag Builtin.registry
      config).convert Builtin.registry config).1 = .ok gpu) :
    Outcome config ((ofExprAt Builtin.registry kind parent owner expr).tag Builtin.registry config)
      gpu := by
  obtain ⟨eligible, arguments, below, combined⟩ := ready_tag_ofExprAt.eligible_of_convert done
  unfold combine at combined
  split at combined
  next marked =>
    cases arguments with
    | nil => cases combined
    | cons first others =>
        cases combined
        obtain ⟨child, rest, given, converted, -⟩ := List.map_eq_cons_iff.mp below
        exact .elided child rest marked given converted
  next =>
    obtain ⟨rule, found, accepts⟩ := accepts_of_eligible eligible
    rw [tag_node, ofExprAt_node, convertNode, found] at combined
    obtain rfl : rule.convert expr config arguments = gpu := Except.ok.inj combined
    rcases Builtin.exprConvert_eq rule accepts.1 expr config arguments with same | ⟨_, value, same⟩
    · rw [tag_children, ofExprAt_children, List.map_map, List.map_map] at below
      have types : List.Forall₂ (HostExpr.Becomes config owner) expr.children arguments :=
        forall₂_of_map_eq below fun child _ _ converted => becomes_of_convert converted
      rw [same]
      refine .copied ?_ ?_
      · rw [tag_node, ofExprAt_node]
        rfl
      · rw [tag_node, ofExprAt_node]
        exact HostExpr.Becomes.types types
    · exact .folded value same

/-- An eligible expression converts, and so does every part of it, each to an expression of the type
that the part declares. -/
theorem convert_keepsTypes (config : Config) (kind : RuleKind) (parent : Option HostExpr)
    (owner : Option HostPlan) (expr : HostExpr) :
    let tree := (ofExprAt Builtin.registry kind parent owner expr).tag Builtin.registry config
    tree.eligible = true →
      tree.Mirrors expr ∧
      (∃ gpu, (tree.convert Builtin.registry config).1 = .ok gpu ∧ gpu.type = expr.type) ∧
      ∀ node ∈ tree.subtrees, ∃ gpu, (node.convert Builtin.registry config).1 = .ok gpu ∧
        gpu.type = node.decision.node.type ∧ node.Outcome config gpu := by
  intro tree eligible
  have mirrors := tag_ofExprAt_mirrors Builtin.registry config kind parent owner expr
  have parts : ∀ node ∈ tree.subtrees, ∃ gpu,
      (node.convert Builtin.registry config).1 = .ok gpu ∧
        gpu.type = node.decision.node.type ∧ node.Outcome config gpu := by
    intro node within
    have allowed := eligible_of_mem_subtrees_tag eligible within
    rw [subtrees_tag] at within
    obtain ⟨part, below, rfl⟩ := List.mem_map.mp within
    obtain ⟨kind, parent, inner, rfl⟩ := mem_subtrees_ofExprAt below
    obtain ⟨gpu, done⟩ := convert_tag_ok allowed
    refine ⟨gpu, done, ?_, outcome_of_convert done⟩
    rw [tag_node, ofExprAt_node]
    exact (becomes_of_convert done).type
  obtain ⟨gpu, done, type, -⟩ := parts tree tree.mem_subtrees_self
  exact ⟨mirrors, ⟨gpu, done, mirrors.root ▸ type⟩, parts⟩

/-- A literal that declares another type than its value has. -/
def declaredSeven : HostExpr :=
  { HostExpr.literal (.long 7) with type := .int }

def longSeven : HostExpr :=
  .cast declaredSeven .long

/-- The literal cast twice: the inner cast is folded, and the outer one is left out. -/
def twiceLongSeven : HostExpr :=
  .cast longSeven .long

theorem declaredSeven_stays :
    let tree := (ofExprAt Builtin.registry .expression (some longSeven) none declaredSeven).tag
      Builtin.registry .default
    tree.eligible = true ∧ tree.decision.noOp = false :=
  tag_of_rule (ofExprAt_reasons ..) rfl (List.forall_mem_nil _) (by decide +kernel)

theorem longSeven_stays :
    let tree := (ofExprAt Builtin.registry .expression (some twiceLongSeven) none longSeven).tag
      Builtin.registry .default
    tree.eligible = true ∧ tree.decision.noOp = false :=
  tag_of_rule (ofExprAt_reasons ..) rfl (List.forall_mem_singleton.mpr declaredSeven_stays.1)
    (by decide +kernel)

theorem twiceLongSeven_leftOut :
    let tree := (ofExpr Builtin.registry twiceLongSeven).tag Builtin.registry .default
    tree.eligible = true ∧ tree.decision.noOp = true :=
  tag_of_rule (ofExprAt_reasons ..) rfl (List.forall_mem_singleton.mpr longSeven_stays.1)
    (by decide +kernel)

theorem convert_keepsTypes_twiceLongSeven :
    let tree := (ofExpr Builtin.registry twiceLongSeven).tag Builtin.registry .default
    tree.eligible = true ∧
      ∃ gpu, (tree.convert Builtin.registry .default).1 = .ok gpu ∧ gpu.type = .long := by
  intro tree
  obtain ⟨-, converted, -⟩ := convert_keepsTypes .default .expression none none twiceLongSeven
    twiceLongSeven_leftOut.1
  exact ⟨twiceLongSeven_leftOut.1, converted⟩

end GpuPlacement.ExprDecision
