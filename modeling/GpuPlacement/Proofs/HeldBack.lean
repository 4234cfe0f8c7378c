import GpuPlacement.Proofs.Reported
/-!
Expressions that are held back. A line looks no further than the nearest node above, so of the
eligible expressions in an ineligible one or in an ineligible operator only the outermost are
marked.
-/
namespace GpuPlacement

/-- Whether the nodes around an expression are eligible: the expressions that enclose it, the
nearest first, and the operator that owns it. -/
def ReportedNode.surroundings : ReportedNode → List Bool
  | .operator .. => []
  | .expr _ owner enclosing _ => enclosing.map (·.eligible) ++ [owner.eligible]

namespace PlanDecision

variable {config : Config} {plan : HostPlan} {consumers : List PlanDecision}
  {owner : PlanDecision} {enclosing : List ExprDecision} {expr outer : ExprDecision}

theorem holderEligible_expr
    (reached : (tagPlan Builtin.registry config plan).Reaches
      (.expr consumers owner enclosing expr)) :
    (ReportedNode.expr consumers owner enclosing expr).holderEligible =
      (ReportedNode.expr consumers owner enclosing expr).surroundings.head? := by
  cases reached with
  | expression => rfl
  | argument above =>
      obtain ⟨within, root, member, inside⟩ := above.holds
      obtain ⟨kind, parent, host, rfl, holding⟩ := mem_subtrees_exprs_tagPlan within member inside
      exact ExprDecision.tag_holds holding

/-- An eligible expression needs eligible arguments, an eligible operator eligible expressions. -/
theorem eligible_of_surroundings
    (reached : (tagPlan Builtin.registry config plan).Reaches
      (.expr consumers owner enclosing expr))
    (nearest : (ReportedNode.expr consumers owner enclosing expr).surroundings.head? = some true) :
    expr.eligible = true := by
  cases reached with
  | expression above among =>
      have eligible : owner.eligible = true := Option.some.inj nearest
      exact (tagPlan_allReady config plan owner above.holds).dependencies eligible expr among
  | argument above among =>
      obtain ⟨within, root, member, inside⟩ := above.holds
      obtain ⟨kind, parent, host, rfl, -⟩ := mem_subtrees_exprs_tagPlan within member inside
      exact ExprDecision.ready_tag_ofExprAt.arguments (Option.some.inj nearest) expr among

theorem reaches_enclosing
    (reached : (tagPlan Builtin.registry config plan).Reaches
      (.expr consumers owner (outer :: enclosing) expr)) :
    (tagPlan Builtin.registry config plan).Reaches (.expr consumers owner enclosing outer) := by
  cases reached with
  | argument above => exact above

theorem nearest_of_ineligible
    (reached : (tagPlan Builtin.registry config plan).Reaches
      (.expr consumers owner enclosing expr)) (ineligible : expr.eligible = false) {nearest : Bool}
    (above : (ReportedNode.expr consumers owner enclosing expr).surroundings.head? =
      some nearest) : nearest = false := by
  cases nearest with
  | false => rfl
  | true => exact (eligible_of_surroundings reached above).symm.trans ineligible

/-- Whatever stands around an ineligible expression is ineligible. -/
theorem surroundings_of_ineligible
    (reached : (tagPlan Builtin.registry config plan).Reaches
      (.expr consumers owner enclosing expr)) (ineligible : expr.eligible = false) :
    (∀ outer ∈ enclosing, outer.eligible = false) ∧ owner.eligible = false := by
  induction enclosing generalizing expr with
  | nil => exact ⟨List.forall_mem_nil _, nearest_of_ineligible reached ineligible rfl⟩
  | cons outer rest ih =>
      have above : outer.eligible = false := nearest_of_ineligible reached ineligible rfl
      obtain ⟨around, operator⟩ := ih (reaches_enclosing reached) above
      exact ⟨List.forall_mem_cons.mpr ⟨above, around⟩, operator⟩

theorem surroundings_of_eligible_owner
    (reached : (tagPlan Builtin.registry config plan).Reaches
      (.expr consumers owner enclosing expr)) (eligible : owner.eligible = true) :
    false ∉ (ReportedNode.expr consumers owner enclosing expr).surroundings := by
  induction enclosing generalizing expr with
  | nil => simp [ReportedNode.surroundings, eligible]
  | cons outer rest ih =>
      have above := reaches_enclosing reached
      have allowed : outer.eligible = true := by
        by_contra ineligible
        have operator := (surroundings_of_ineligible above (Bool.eq_false_iff.mpr ineligible)).2
        exact Bool.false_ne_true (operator.symm.trans eligible)
      intro held
      rcases List.mem_cons.mp held with same | later
      · exact Bool.false_ne_true (same.trans allowed)
      · exact ih above later

/-- The path from an eligible expression outwards, cut behind the outermost eligible one. -/
structure EligibleUpTo (expr : ExprDecision) (enclosing inner : List ExprDecision)
    (outer : ExprDecision) (beyond : List ExprDecision) : Prop where
  path : expr :: enclosing = inner ++ outer :: beyond
  inner : ∀ part ∈ inner, part.eligible = true
  outer : outer.eligible = true
  beyond : ∀ part ∈ beyond, part.eligible = false

theorem exists_eligibleUpTo
    (reached : (tagPlan Builtin.registry config plan).Reaches
      (.expr consumers owner enclosing expr)) (eligible : expr.eligible = true)
    (held : false ∈ (ReportedNode.expr consumers owner enclosing expr).surroundings) :
    ∃ inner outer beyond, EligibleUpTo expr enclosing inner outer beyond ∧
      (tagPlan Builtin.registry config plan).Reaches (.expr consumers owner beyond outer) ∧
      (ReportedNode.expr consumers owner beyond outer).surroundings.head? = some false ∧
      ((ReportedNode.expr consumers owner enclosing expr).surroundings.head? = some false ↔
        inner = []) := by
  induction enclosing generalizing expr with
  | nil =>
      have operator : owner.eligible = false := (List.mem_singleton.mp held).symm
      have nearest : (ReportedNode.expr consumers owner [] expr).surroundings.head? = some false :=
        congrArg some operator
      exact ⟨[], expr, [], ⟨rfl, List.forall_mem_nil _, eligible, List.forall_mem_nil _⟩, reached,
        nearest, iff_of_true nearest rfl⟩
  | cons outer rest ih =>
      have above := reaches_enclosing reached
      cases allowed : outer.eligible with
      | false =>
          have nearest : (ReportedNode.expr consumers owner (outer :: rest)
              expr).surroundings.head? = some false := congrArg some allowed
          obtain ⟨around, -⟩ := surroundings_of_ineligible above allowed
          have beyond : ∀ part ∈ outer :: rest, part.eligible = false :=
            List.forall_mem_cons.mpr ⟨allowed, around⟩
          exact ⟨[], expr, outer :: rest, ⟨rfl, List.forall_mem_nil _, eligible, beyond⟩, reached,
            nearest, iff_of_true nearest rfl⟩
      | true =>
          have further : false ∈ (ReportedNode.expr consumers owner rest outer).surroundings := by
            rcases List.mem_cons.mp held with same | later
            · exact absurd (same.trans allowed) Bool.false_ne_true
            · exact later
          -- The path is cut where the one from `outer` on is; only its first part grows.
          obtain ⟨inner, last, beyond, cut, reached, nearest, -⟩ := ih above allowed further
          refine ⟨expr :: inner, last, beyond, ⟨?_, ?_, cut.outer, cut.beyond⟩, reached,
            nearest, ?_⟩
          · rw [cut.path, List.cons_append]
          · exact List.forall_mem_cons.mpr ⟨eligible, cut.inner⟩
          · simp [ReportedNode.surroundings, allowed]

/-- What the report of a tree tells about an expression. One in an eligible operator goes where its
mark says. Where some node around an eligible expression is ineligible, the expression is held back
exactly if it is the outermost eligible one there. -/
structure Tells (tree : PlanDecision) (consumers : List PlanDecision) (owner : PlanDecision)
    (enclosing : List ExprDecision) (expr : ExprDecision) : Prop where
  onHost : (ReportedNode.expr consumers owner enclosing expr).mark = .onHost ↔
    expr.eligible = false
  heldBack : (ReportedNode.expr consumers owner enclosing expr).mark = .heldBack ↔
    expr.eligible = true ∧
      (ReportedNode.expr consumers owner enclosing expr).surroundings.head? = some false
  converted : owner.eligible = true →
    (ReportedNode.expr consumers owner enclosing expr).mark =
      if expr.decision.noOp then .removed else .onGpu
  outermost : expr.eligible = true →
    false ∈ (ReportedNode.expr consumers owner enclosing expr).surroundings →
    ∃ inner outer beyond, EligibleUpTo expr enclosing inner outer beyond ∧
      .expr consumers owner beyond outer ∈ tree.nodes ∧
      (ReportedNode.expr consumers owner beyond outer).mark = .heldBack ∧
      ((ReportedNode.expr consumers owner enclosing expr).mark = .heldBack ↔ inner = [])

theorem mark_eq_heldBack_iff
    (reached : (tagPlan Builtin.registry config plan).Reaches
      (.expr consumers owner enclosing expr)) :
    (ReportedNode.expr consumers owner enclosing expr).mark = .heldBack ↔
      expr.eligible = true ∧
        (ReportedNode.expr consumers owner enclosing expr).surroundings.head? = some false := by
  rw [← holderEligible_expr reached]
  exact ReportEntry.mark_eq_heldBack_iff

end PlanDecision

/-- With the built-in rules a report tells this of every expression. -/
theorem tagPlan_tells (config : Config) (plan : HostPlan) (consumers : List PlanDecision)
    (owner : PlanDecision) (enclosing : List ExprDecision) (expr : ExprDecision)
    (listed : .expr consumers owner enclosing expr ∈
      (tagPlan Builtin.registry config plan).nodes) :
    (tagPlan Builtin.registry config plan).Tells consumers owner enclosing expr := by
  have reached := PlanDecision.mem_nodes_iff.mp listed
  constructor
  case onHost => exact ReportEntry.mark_eq_onHost_iff
  case heldBack => exact PlanDecision.mark_eq_heldBack_iff reached
  case converted =>
    intro operator
    have around := PlanDecision.surroundings_of_eligible_owner reached operator
    have eligible : expr.eligible = true := by
      by_contra ineligible
      have owner :=
        (PlanDecision.surroundings_of_ineligible reached (Bool.eq_false_iff.mpr ineligible)).2
      exact Bool.false_ne_true (owner.symm.trans operator)
    refine ReportEntry.mark_of_free eligible fun held => around ?_
    rw [PlanDecision.holderEligible_expr reached] at held
    exact List.mem_of_mem_head? held
  case outermost =>
    intro eligible held
    obtain ⟨inner, outer, beyond, cut, above, nearest, alone⟩ :=
      PlanDecision.exists_eligibleUpTo reached eligible held
    have outermost := (PlanDecision.mark_eq_heldBack_iff above).mpr ⟨cut.outer, nearest⟩
    refine ⟨inner, outer, beyond, cut, PlanDecision.mem_nodes_iff.mpr above, outermost, ?_⟩
    rw [← alone, PlanDecision.mark_eq_heldBack_iff reached]
    exact and_iff_right eligible

/-- A renamed column in an operator without a rule. -/
def renamingScan : HostPlan :=
  { HostPlan.ofClass "RangeExec" with expressions := [(HostExpr.column "k" .int).named "x"] }

theorem renamingScan_misleads :
    ∃ consumers owner enclosing expr,
      .expr consumers owner enclosing expr ∈
        (tagPlan Builtin.registry .default renamingScan).nodes ∧
      (ReportedNode.expr consumers owner enclosing expr).mark = .onGpu ∧
      false ∈ (ReportedNode.expr consumers owner enclosing expr).surroundings := by
  have misled : ∃ node ∈ (tagPlan Builtin.registry .default renamingScan).nodes,
      node.mark = .onGpu ∧ false ∈ node.surroundings := by decide +kernel
  obtain ⟨node, listed, mark, held⟩ := misled
  cases node with
  | operator => cases held
  | expr consumers owner enclosing expr =>
      exact ⟨consumers, owner, enclosing, expr, listed, mark, held⟩

theorem tagPlan_tells_renamingScan :
    ∃ consumers owner enclosing expr,
      .expr consumers owner enclosing expr ∈
        (tagPlan Builtin.registry .default renamingScan).nodes ∧
      (ReportedNode.expr consumers owner enclosing expr).mark = .onGpu ∧
      (tagPlan Builtin.registry .default renamingScan).Tells consumers owner enclosing expr := by
  obtain ⟨consumers, owner, enclosing, expr, listed, mark, -⟩ := renamingScan_misleads
  refine ⟨consumers, owner, enclosing, expr, listed, mark, ?_⟩
  exact tagPlan_tells .default renamingScan consumers owner enclosing expr listed

/-- A mark does not answer for the whole surroundings: the column below a renaming that is held back
is marked as if it ran on the device. -/
theorem not_forall_tagPlan_surroundings :
    ¬ ∀ (config : Config) (plan : HostPlan), config.sqlEnabled = true →
      ∀ consumers owner enclosing expr,
        .expr consumers owner enclosing expr ∈ (tagPlan Builtin.registry config plan).nodes →
        let node := ReportedNode.expr consumers owner enclosing expr
        (node.mark = .onGpu → false ∉ node.surroundings) ∧
          (expr.eligible = true → false ∈ node.surroundings → node.mark = .heldBack) := by
  intro claimed
  obtain ⟨consumers, owner, enclosing, expr, listed, mark, held⟩ := renamingScan_misleads
  obtain ⟨safe, -⟩ := claimed .default renamingScan rfl consumers owner enclosing expr listed
  exact safe mark held

end GpuPlacement
