import GpuPlacement.Registry.SlotOrder
import GpuPlacement.Rule
/-!
Tables of rules, one rule for each class.
-/
namespace GpuPlacement

structure RuleTable (Node Child Op : Type) where
  /-- The rules by the names of their classes. -/
  rules : Dict (Rule Node Child Op)
  /-- The names of the classes that were stored, first to last. -/
  stored : List String

namespace RuleTable

variable {Node Child Op : Type}

def empty : RuleTable Node Child Op := ⟨.empty, []⟩

/-- The rule of exactly this class. -/
def find? (table : RuleTable Node Child Op) (className : ClassName) :
    Option (Rule Node Child Op) :=
  table.rules.get? className.name

/-- The table with a rule, in place of an older one of its class. -/
def insert (table : RuleTable Node Child Op) (rule : Rule Node Child Op) :
    RuleTable Node Child Op :=
  let name := rule.spec.className.name
  ⟨table.rules.insert name rule, table.stored ++ [name]⟩

/-- Registers a rule and tells which one it replaces. -/
def register (table : RuleTable Node Child Op) (rule : Rule Node Child Op) :
    Option (Rule Node Child Op) × RuleTable Node Child Op :=
  (table.find? rule.spec.className, table.insert rule)

/-- Registers a rule unless its class has one already. -/
def tryRegister (table : RuleTable Node Child Op) (rule : Rule Node Child Op) :
    Except PlacementError (RuleTable Node Child Op) :=
  match table.find? rule.spec.className with
  | some _ => .error (.duplicateRule rule.spec.className.name)
  | none => .ok (table.insert rule)

def ofList (rules : List (Rule Node Child Op)) : RuleTable Node Child Op :=
  rules.foldl insert empty

def size (table : RuleTable Node Child Op) : Nat :=
  table.rules.size

def isEmpty (table : RuleTable Node Child Op) : Bool :=
  table.rules.isEmpty

/-- The declarations of all rules, in slot order of their classes. -/
def specs (table : RuleTable Node Child Op) : List RuleSpec :=
  let order := SlotOrder.ofStored table.stored
  let place := fun (entry : String × Rule Node Child Op) => order.idxOf entry.1
  (table.rules.entries.mergeSort fun a b => place a ≤ place b).map (·.2.spec)

end RuleTable

end GpuPlacement
