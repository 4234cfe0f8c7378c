import GpuPlacement.Proofs.Signatures
import GpuPlacement.Proofs.Tree
/-!
Checked plans. A plan is accepted just when no operator and no expression at any depth has a blank
class, and it is refused for the first node that has one.
-/
namespace GpuPlacement

namespace HostPart

def className : HostPart → ClassName
  | .operator plan => plan.className
  | .expr source => source.className

/-- What messages call a node. -/
def noun : HostPart → String
  | .operator _ => "operator"
  | .expr _ => "expression"

/-- What is wrong with a plan in which the class of the node is blank. -/
def blankFault : HostPart → PlanFault
  | .operator _ => .blankOperatorClass
  | .expr _ => .blankExpressionClass

theorem message_blankFault (part : HostPart) :
    part.blankFault.message = part.noun ++ " class must not be empty" := by
  cases part <;> rfl

/-- The fault of the node alone, whatever is below it. -/
def fault? (part : HostPart) : Option PlanFault :=
  if part.className.isBlank then some part.blankFault else none

theorem fault?_eq_none_iff {part : HostPart} :
    part.fault? = none ↔ part.className.isBlank = false := by
  rw [fault?, ite_eq_right_iff, ← Bool.not_eq_true]
  exact forall_congr' fun _ => iff_of_false nofun id

theorem fault?_eq_some_iff {part : HostPart} {fault : PlanFault} :
    part.fault? = some fault ↔ part.className.isBlank = true ∧ fault = part.blankFault := by
  rw [fault?, Option.ite_none_right_eq_some, Option.some_inj, eq_comm (a := fault)]

end HostPart

theorem faultOfExprs?_eq_findSome? (exprs : List HostExpr) :
    faultOfExprs? exprs = exprs.findSome? HostExpr.fault? := by
  induction exprs with
  | nil => rfl
  | cons expr rest ih =>
      rw [faultOfExprs?, ih, List.findSome?_cons]
      cases expr.fault? <;> rfl

theorem faultOfPlans?_eq_findSome? (plans : List HostPlan) :
    faultOfPlans? plans = plans.findSome? HostPlan.fault? := by
  induction plans with
  | nil => rfl
  | cons plan rest ih =>
      rw [faultOfPlans?, ih, List.findSome?_cons]
      cases plan.fault? <;> rfl

/-- An expression is refused for its own class, or else for the first argument that is. -/
theorem HostExpr.fault?_eq (expr : HostExpr) :
    expr.fault? = (HostPart.fault? (.expr expr)).or (expr.children.findSome? HostExpr.fault?) := by
  cases expr with
  | mk className type nullable name params children =>
      rw [HostExpr.fault?, faultOfExprs?_eq_findSome?, HostPart.fault?, HostPart.className]
      cases className.isBlank <;> rfl

/-- A plan is refused for its own class, or else for its first expression or input that is. -/
theorem HostPlan.fault?_eq (plan : HostPlan) :
    plan.fault? = (HostPart.fault? (.operator plan)).or
      ((plan.allExpressions.findSome? HostExpr.fault?).or
        (plan.children.findSome? HostPlan.fault?)) := by
  cases plan with
  | mk className output expressions partitioning params children =>
      rw [HostPlan.fault?, faultOfExprs?_eq_findSome?, faultOfPlans?_eq_findSome?, HostPart.fault?,
        HostPart.className, allExpressions]
      cases className.isBlank
      · cases (expressions ++ partitioning.toList).findSome? HostExpr.fault? <;> rfl
      · rfl

theorem HostExpr.fault?_eq_findSome? (expr : HostExpr) :
    expr.fault? = expr.subtrees.findSome? fun node => HostPart.fault? (.expr node) := by
  induction expr with
  | node className type nullable name params children ih =>
      rw [fault?_eq, findSome?_flatMap ih, subtrees_eq, List.findSome?_cons]
      cases HostPart.fault? (.expr ⟨className, type, nullable, name, params, children⟩) <;> rfl

/-- The fault of a plan is the first one of a node. -/
theorem HostPlan.fault?_eq_findSome? (plan : HostPlan) :
    plan.fault? = plan.parts.findSome? HostPart.fault? := by
  induction plan with
  | node className output expressions partitioning params children ih =>
      have exprs := findSome?_flatMap fun (expr : HostExpr)
        (_ : expr ∈ expressions ++ partitioning.toList) => expr.fault?_eq_findSome?
      rw [fault?_eq, findSome?_flatMap ih, allExpressions, exprs, parts_eq, List.findSome?_append,
        List.findSome?_cons, List.findSome?_map, ← Option.or_assoc]
      cases HostPart.fault?
        (.operator ⟨className, output, expressions, partitioning, params, children⟩) <;> rfl

theorem HostPlan.validate_eq_ok_iff {plan : HostPlan} :
    plan.validate = .ok () ↔ plan.fault? = none := by
  rw [validate]
  cases plan.fault? <;> simp

theorem HostPlan.validate_eq_error_iff {plan : HostPlan} {error : PlacementError} :
    plan.validate = .error error ↔ ∃ fault, plan.fault? = some fault ∧ error = .invalidPlan fault
    := by
  rw [validate]
  cases plan.fault? <;> simp [eq_comm]

/-- A plan passes just when no operator in it, and no expression at any depth of an operator's
expressions or its partitioning, has a class that is blank. Any other plan is invalid, and the
message tells the kind of its first node with a blank class. -/
theorem validate_blank (plan : HostPlan) :
    (plan.validate = .ok () ↔ ∀ node ∈ plan.subtrees, node.className.isBlank = false ∧
      ∀ expr ∈ node.allExpressions, ∀ inner ∈ expr.subtrees, inner.className.isBlank = false) ∧
    ∀ error, plan.validate = .error error ↔ ∃ before part after,
      plan.parts = before ++ part :: after ∧
        (∀ earlier ∈ before, earlier.className.isBlank = false) ∧
        part.className.isBlank = true ∧ error = .invalidPlan part.blankFault ∧
        part.blankFault.message = part.noun ++ " class must not be empty" := by
  constructor
  · rw [HostPlan.validate_eq_ok_iff, HostPlan.fault?_eq_findSome?, List.findSome?_eq_none_iff]
    have named : (∀ part ∈ plan.parts, part.fault? = none) ↔
        ∀ part ∈ plan.parts, part.className.isBlank = false :=
      forall₂_congr fun part _ => HostPart.fault?_eq_none_iff
    exact named.trans HostPlan.forall_mem_parts_iff
  · intro error
    rw [HostPlan.validate_eq_error_iff]
    simp only [HostPlan.fault?_eq_findSome?, List.findSome?_eq_some_iff,
      HostPart.fault?_eq_some_iff, HostPart.fault?_eq_none_iff]
    constructor
    · rintro ⟨_, ⟨before, part, after, listed, ⟨blank, rfl⟩, named⟩, rfl⟩
      exact ⟨before, part, after, listed, named, blank, rfl, part.message_blankFault⟩
    · rintro ⟨before, part, after, listed, named, blank, rfl, -⟩
      exact ⟨_, ⟨before, part, after, listed, ⟨blank, rfl⟩, named⟩, rfl⟩

end GpuPlacement
