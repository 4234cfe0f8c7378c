import GpuPlacement.Registry.Table
/-!
Registries: the expression rules and the operator rules of one placement, and their
documentation.
-/
namespace GpuPlacement

structure Registry where
  /-- Rules for expressions and partitionings. -/
  exprs : RuleTable HostExpr ExprDecision GpuExpr
  /-- Rules for operators and scans. -/
  operators : RuleTable HostPlan PlanDecision GpuOperator

/-- What the documentation says about a rule. -/
structure RuleDoc where
  key : String
  description : String
  enabledByDefault : Bool
  /-- The rule's incompatibility or why it is off by default. -/
  notes : Option String
  deriving DecidableEq

namespace RuleDoc

def ofSpec (spec : RuleSpec) : RuleDoc where
  key := spec.key
  description := spec.description
  enabledByDefault := spec.enabledByDefault
  notes :=
    match spec.incompatibility with
    | some note => some s!"This is not 100% compatible with the host version: {note}"
    | none => spec.offByDefault.map fun note => s!"This is disabled by default because {note}"

/-- A row of the documentation's table. -/
def row (doc : RuleDoc) : String :=
  s!"<a name=\"{doc.key}\"></a>{doc.key}|{doc.description}|{renderBool doc.enabledByDefault}|"
    ++ doc.notes.getD "None" ++ "\n"

end RuleDoc

namespace Registry

def empty : Registry := ⟨.empty, .empty⟩

/-- Every rule, in the order of the rules' keys. -/
def docs (registry : Registry) : List RuleDoc :=
  ((registry.exprs.specs ++ registry.operators.specs).map RuleDoc.ofSpec).mergeSort
    fun a b => a.key ≤ b.key

/-- A table of all rules. -/
def documentation (registry : Registry) : String :=
  "Name | Description | Default Value | Notes\n-----|-------------|---------------|------\n"
    ++ String.join (registry.docs.map RuleDoc.row)

end Registry

end GpuPlacement
