import GpuPlacement.Proofs.Tagging
/-!
What the exchange pass decides. It goes through a tree once, from the top down, and yet every
exchange ends up as the final decisions about its neighbours ask for, so nothing is left for another
pass.
-/
namespace GpuPlacement.PlanDecision

/-- A decision before and after the pass. An eligible exchange stays eligible exactly when it has a
neighbour on the device; otherwise it gets one reason more, and every other decision stays as it
is. -/
structure Resolves (decision settled : Decision HostPlan GpuOperator) (neighbour : Prop) :
    Prop where
  stays_iff : decision.isExchange = true → decision.eligible = true →
    (settled.eligible = true ↔ neighbour)
  demoted : decision.isExchange = true → decision.eligible = true → settled.eligible = false →
    settled = decision.reject exchangeReason
  kept : ¬ (decision.isExchange = true ∧ decision.eligible = true ∧ settled.eligible = false) →
    settled = decision

mutual

/-- Trees before and after the pass, compared node by node. The neighbours that count are those of
the tree after the pass: the consumer of an operator and its inputs. -/
inductive SettlesTo : Bool → PlanDecision → PlanDecision → Prop
  | node {parentEligible decision settled exprs children others} :
      Resolves decision settled
        (parentEligible = true ∨ ∃ other ∈ others, other.eligible = true) →
      AllSettleTo settled.eligible children others →
      SettlesTo parentEligible ⟨decision, exprs, children⟩ ⟨settled, exprs, others⟩

inductive AllSettleTo : Bool → List PlanDecision → List PlanDecision → Prop
  | nil {parentEligible} : AllSettleTo parentEligible [] []
  | cons {parentEligible tree settled rest others} : SettlesTo parentEligible tree settled →
      AllSettleTo parentEligible rest others →
      AllSettleTo parentEligible (tree :: rest) (settled :: others)

end

theorem allSettleTo_iff_forall₂ {parentEligible : Bool} {trees others : List PlanDecision} :
    AllSettleTo parentEligible trees others ↔
      List.Forall₂ (SettlesTo parentEligible) trees others := by
  constructor
  · intro h
    induction trees generalizing others with
    | nil => cases h; exact .nil
    | cons tree rest ih =>
        cases h with
        | cons first later => exact .cons first (ih later)
  · intro h
    induction h with
    | nil => exact .nil
    | cons first _ ih => exact .cons first ih

/-- Inputs are settled after their consumer. That does not take back what the consumer saw: below
an eligible consumer every input stays as eligible as it was. -/
theorem exists_eligible_settled_iff {parentEligible : Bool} {children : List PlanDecision}
    (kept : parentEligible = true) :
    (∃ other ∈ children.map (settleBelow parentEligible), other.eligible = true) ↔
      ∃ child ∈ children, child.eligible = true := by
  simp only [List.mem_map, exists_exists_and_eq_and]
  refine exists_congr fun child => and_congr_right fun _ => ?_
  rw [kept]
  exact ⟨eligible_of_settleBelow, eligible_settleBelow_of_parent⟩

theorem settleExchange_resolves (parentEligible : Bool) (decision : Decision HostPlan GpuOperator)
    (children : List PlanDecision) :
    let settled := settleExchange parentEligible decision children
    Resolves decision settled (parentEligible = true ∨
      ∃ other ∈ children.map (settleBelow settled.eligible), other.eligible = true) := by
  intro settled
  constructor
  case stays_iff =>
    intro exchange eligible
    constructor
    · intro kept
      rw [exists_eligible_settled_iff kept]
      exact (eligible_settleExchange_iff.mp kept).2 exchange
    · intro neighbour
      refine eligible_settleExchange_iff.mpr ⟨eligible, fun _ => neighbour.imp_right ?_⟩
      rintro ⟨other, member, below⟩
      obtain ⟨child, among, rfl⟩ := List.mem_map.mp member
      exact ⟨child, among, eligible_of_settleBelow below⟩
  case demoted =>
    intro exchange eligible rejected
    unfold settled settleExchange at rejected ⊢
    split at rejected
    next stranded => rw [if_pos stranded]
    next => rw [eligible] at rejected; cases rejected
  case kept =>
    intro free
    unfold settled settleExchange at free ⊢
    split
    next stranded =>
      rw [if_pos stranded] at free
      simp only [Bool.and_eq_true] at stranded
      obtain ⟨⟨⟨exchange, eligible⟩, _⟩, _⟩ := stranded
      exact absurd ⟨exchange, eligible, by simp [Decision.reject, Decision.eligible]⟩ free
    next => rfl

theorem settleBelow_settlesTo (parentEligible : Bool) (tree : PlanDecision) :
    SettlesTo parentEligible tree (tree.settleBelow parentEligible) := by
  induction tree generalizing parentEligible with
  | node decision exprs children ih =>
      rw [settleBelow_eq]
      refine .node (settleExchange_resolves ..) ?_
      rw [allSettleTo_iff_forall₂, List.forall₂_map_right_iff, List.forall₂_same]
      exact fun child member => ih child member _

/-- An exchange that is still eligible has a neighbour already. -/
theorem Resolves.settleExchange_eq {decision settled : Decision HostPlan GpuOperator}
    {parentEligible : Bool} {others : List PlanDecision}
    (h : Resolves decision settled
      (parentEligible = true ∨ ∃ other ∈ others, other.eligible = true)) :
    settleExchange parentEligible settled others = settled := by
  unfold settleExchange
  split
  next stranded =>
    simp only [Bool.and_eq_true, Bool.not_eq_true', List.all_eq_true] at stranded
    obtain ⟨⟨⟨exchange, eligible⟩, parent⟩, inputs⟩ := stranded
    obtain rfl : settled = decision := h.kept fun demoted => by simp [eligible] at demoted
    rcases (h.stays_iff exchange eligible).mp eligible with above | ⟨other, member, below⟩
    · simp [parent] at above
    · simp [inputs other member] at below
  next => rfl

theorem SettlesTo.settleBelow_eq {parentEligible : Bool} {tree settled : PlanDecision}
    (h : SettlesTo parentEligible tree settled) : settled.settleBelow parentEligible = settled := by
  induction settled generalizing parentEligible tree with
  | node settled exprs others ih =>
      cases h with
      | node resolves below =>
          -- The second pass meets the neighbours as the first one left them.
          rw [PlanDecision.settleBelow_eq, resolves.settleExchange_eq]
          have inputs : ∀ other ∈ others, other.settleBelow settled.eligible = other := by
            intro other member
            obtain ⟨child, _, resolved⟩ :=
              exists_of_forall₂ (allSettleTo_iff_forall₂.mp below) other member
            exact ih other member resolved
          rw [List.map_congr_left inputs, List.map_id']

/-- After the pass every exchange that was eligible is so exactly when its consumer or one of its
inputs is eligible in the end; a demoted one has the reason of the pass at the end of its reasons,
and everything else is as it was. Another pass changes nothing. -/
theorem settleExchanges_stable (tree : PlanDecision) :
    SettlesTo false tree tree.settleExchanges ∧
      tree.settleExchanges.settleExchanges = tree.settleExchanges := by
  have settles : SettlesTo false tree tree.settleExchanges := settleBelow_settlesTo false tree
  exact ⟨settles, settles.settleBelow_eq⟩

end GpuPlacement.PlanDecision
