import GpuPlacement.Proofs.CastTypes
import GpuPlacement.Proofs.Ready
/-!
Converted expressions. Every part of a converted expression stands for a part of the host expression
with a rule that supports it, and types survive, also where a cast is left out or folded.
-/
namespace GpuPlacement

theorem ExprCheck.foldCast_type (host : HostExpr) (config : Config) (children : List GpuExpr) :
    (foldCast host config children).type = host.type := by
  unfold foldCast
  dsimp only
  split
  next => rfl
  next value _ =>
    split
    next folded done => exact Scalar.cast_type done
    next => rfl

theorem ExprCheck.foldCast_eq (host : HostExpr) (config : Config) (children : List GpuExpr) :
    foldCast host config children = .ofHost host children ∨
      ∃ value, foldCast host config children = .literal value := by
  unfold foldCast
  dsimp only
  split
  next => exact .inl rfl
  next value _ =>
    split
    next folded _ => exact .inr ⟨folded, rfl⟩
    next => exact .inl rfl

namespace Builtin

theorem convert_type : ∀ rule ∈ exprRules, ∀ expr config children,
    (rule.convert expr config children).type = expr.type := by
  apply forall_expr_convert fun convert =>
    ∀ expr config children, (convert expr config children).type = expr.type
  case ofHost => exact fun expr config children => rfl
  case foldCast => exact ExprCheck.foldCast_type

/-- Only casts ever become literals. -/
theorem exprConvert_eq : ∀ rule ∈ exprRules, ∀ expr config children,
    rule.convert expr config children = .ofHost expr children ∨
      (rule.spec.className = .expression "Cast" ∧
        ∃ value, rule.convert expr config children = .literal value) := by
  intro rule member expr config children
  rcases exprRule_convert rule member with copies | ⟨cast, folds⟩
  · exact .inl (copies ▸ rfl)
  · rw [folds]
    exact (ExprCheck.foldCast_eq expr config children).imp_right fun literal => ⟨cast, literal⟩

end Builtin

/-- A built-in rule for the class of an expression supports it where its operator uses it. -/
def Builtin.Accepts (owner : Option HostPlan) (rule : ExprRule) (expr : HostExpr) : Prop :=
  rule ∈ exprRules ∧ rule.spec.className = expr.className ∧
    ∃ context, context.node = expr ∧ context.owner = owner ∧ rule.Supports context

/-- What conversion makes of an expression: the first argument of a cast to its own type, and else
what the rule of its class makes of it. -/
inductive HostExpr.Becomes (config : Config) (owner : Option HostPlan) :
    HostExpr → GpuExpr → Prop
  | elided {expr child rest gpu} : expr.children = child :: rest → child.type = expr.type →
      Becomes config owner child gpu → Becomes config owner expr gpu
  | replaced {expr rule arguments} : Builtin.Accepts owner rule expr →
      List.Forall₂ (Becomes config owner) expr.children arguments →
      Becomes config owner expr (rule.convert expr config arguments)

namespace ExprDecision

variable {config : Config}

theorem Ready.eligible_of_convert {tree : ExprDecision} {gpu : GpuExpr} (ready : tree.Ready)
    (done : (tree.convert Builtin.registry config).1 = .ok gpu) :
    tree.eligible = true ∧ ∃ arguments,
      tree.children.map (fun child => (child.convert Builtin.registry config).1) =
        arguments.map .ok ∧
      combine Builtin.registry config tree.decision arguments = .ok gpu := by
  cases tree with
  | mk decision children =>
      cases allowed : decision.ensureEligible with
      | error error =>
          rw [convert, ready.converted, allowed] at done
          cases done
      | ok rule =>
          rw [convert_fst ready.converted allowed, bind_eq_ok_iff] at done
          obtain ⟨arguments, below, combined⟩ := done
          exact ⟨Decision.eligible_of_ensureEligible allowed, arguments,
            convertAll_ok_iff.mp below, combined⟩

/-- Only a cast to the own type of its argument is marked. -/
theorem sameType_of_marked {kind : RuleKind} {parent : Option HostExpr} {owner : Option HostPlan}
    {expr : HostExpr}
    (marked : ((ofExprAt Builtin.registry kind parent owner expr).tag Builtin.registry
      config).decision.noOp = true) :
    ∃ child rest, expr.children = child :: rest ∧ child.type = expr.type := by
  obtain ⟨rule, context, found, here, check⟩ := exists_check_of_marked (ofExprAt_noOp ..) marked
  have same := Builtin.sameType_of_noOp rule (Builtin.mem_of_find?_exprs found) context check
  rwa [here, ofExprAt_node] at same

theorem accepts_of_eligible {kind : RuleKind} {parent : Option HostExpr} {owner : Option HostPlan}
    {expr : HostExpr}
    (eligible : ((ofExprAt Builtin.registry kind parent owner expr).tag Builtin.registry
      config).eligible = true) :
    ∃ rule, Builtin.registry.exprs.find? expr.className = some rule ∧
      Builtin.Accepts owner rule expr := by
  have supported := (eligible_tag_iff untagged_ofExprAt).mp eligible _ (mem_subtrees_self _)
  obtain ⟨rule, found, supports⟩ := supported
  rw [tag_node, ofExprAt_node] at found
  refine ⟨rule, found, Builtin.mem_of_find?_exprs found, Builtin.className_of_find?_exprs found,
    _, ?_, ?_, supports⟩
  · rw [context, tag_node, ofExprAt_node]
  · rw [context, tag_owner, ofExprAt_owner]

theorem becomes_of_convert {kind : RuleKind} {parent : Option HostExpr} {owner : Option HostPlan}
    {expr : HostExpr} {gpu : GpuExpr}
    (done : (((ofExprAt Builtin.registry kind parent owner expr).tag Builtin.registry
      config).convert Builtin.registry config).1 = .ok gpu) :
    expr.Becomes config owner gpu := by
  induction expr generalizing kind parent gpu with
  | node className type nullable name params children ih =>
      obtain ⟨eligible, arguments, below, combined⟩ := ready_tag_ofExprAt.eligible_of_convert done
      rw [tag_children, ofExprAt_children, List.map_map, List.map_map] at below
      have converted : List.Forall₂ (HostExpr.Becomes config owner) children arguments :=
        forall₂_of_map_eq below fun child member _ same => ih child member same
      unfold combine at combined
      split at combined
      next marked =>
        obtain ⟨child, rest, given, same⟩ := sameType_of_marked marked
        obtain rfl : children = child :: rest := given
        -- Further arguments of the cast were converted, too, but only the first one is kept.
        cases converted with
        | cons first _ =>
            cases combined
            exact .elided rfl same first
      next =>
        obtain ⟨rule, found, accepts⟩ := accepts_of_eligible eligible
        rw [tag_node, ofExprAt_node, convertNode, found] at combined
        cases combined
        exact .replaced accepts converted

end ExprDecision

theorem HostExpr.Becomes.type {config : Config} {owner : Option HostPlan} {expr : HostExpr}
    {gpu : GpuExpr} (h : expr.Becomes config owner gpu) : gpu.type = expr.type := by
  induction h using HostExpr.Becomes.rec (motive_2 := fun _ _ _ => True) with
  | elided _ same _ below => exact below.trans same
  | replaced accepts => exact Builtin.convert_type _ accepts.1 ..
  | nil => trivial
  | cons => trivial

theorem HostExpr.Becomes.types {config : Config} {owner : Option HostPlan} {exprs : List HostExpr}
    {gpus : List GpuExpr} (h : List.Forall₂ (HostExpr.Becomes config owner) exprs gpus) :
    gpus.map (·.type) = exprs.map (·.type) := by
  induction h with
  | nil => rfl
  | cons first _ ih => rw [List.map_cons, List.map_cons, first.type, ih]

/-- A part of a converted expression that stands for a part of the host expression. Apart from
folded literals it keeps the name and the types of the arguments. -/
structure GpuExpr.StandsFor (owner : Option HostPlan) (part : GpuExpr) (source : HostExpr) :
    Prop where
  accepted : ∃ rule, Builtin.Accepts owner rule source
  type : part.type = source.type
  shape : (part.name = source.className.gpuName ∧
      part.children.map (·.type) = source.children.map (·.type)) ∨
    (source.className = .expression "Cast" ∧ ∃ value, part = .literal value)

theorem HostExpr.Becomes.parts {config : Config} {owner : Option HostPlan} {expr : HostExpr}
    {gpu : GpuExpr} (h : expr.Becomes config owner gpu) :
    ∀ part ∈ gpu.subtrees, ∃ source, part.StandsFor owner source := by
  induction h using HostExpr.Becomes.rec
    (motive_2 := fun _ arguments _ =>
      ∀ argument ∈ arguments, ∀ part ∈ argument.subtrees, ∃ source, part.StandsFor owner source)
    with
  | elided _ _ _ below => exact below
  | @replaced expr rule arguments accepts converted below =>
      have type := Builtin.convert_type rule accepts.1 expr config arguments
      intro part within
      rcases Builtin.exprConvert_eq rule accepts.1 expr config arguments with
        same | ⟨cast, value, same⟩
      · rw [same] at within type
        rcases GpuExpr.mem_subtrees_iff.mp within with rfl | ⟨argument, member, deeper⟩
        · exact ⟨expr, ⟨rule, accepts⟩, type, .inl ⟨rfl, HostExpr.Becomes.types converted⟩⟩
        · exact below argument member part deeper
      · -- A folded literal has no parts below it, whatever the arguments were.
        rw [same] at within type
        rcases GpuExpr.mem_subtrees_iff.mp within with rfl | ⟨argument, member, deeper⟩
        · exact ⟨expr, ⟨rule, accepts⟩, type, .inr ⟨accepts.2.1 ▸ cast, value, rfl⟩⟩
        · cases member
  | nil =>
      rename_i member _ _
      cases member
  | cons _ _ first later =>
      rename_i argument member part within
      rcases List.mem_cons.mp member with rfl | among
      · exact first part within
      · exact later argument among part within

end GpuPlacement
