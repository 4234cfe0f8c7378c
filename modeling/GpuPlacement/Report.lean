import GpuPlacement.Tagging
/-!
The tagging report: one line for each node, with a mark that says where the node will run and why.
Nodes come before their expressions, and expressions before inputs.
-/
namespace GpuPlacement

/-- What a line says about a node. -/
inductive ReportMark where
  | onGpu
  | onHost
  /-- The node could run on the device, but what it belongs to cannot. -/
  | heldBack
  | removed
  deriving DecidableEq

namespace ReportMark

def symbol : ReportMark → String
  | .onGpu => "*"
  | .onHost => "!"
  | .heldBack => "@"
  | .removed => "#"

end ReportMark

/-- One line of a report. -/
structure ReportEntry where
  depth : Nat
  mark : ReportMark
  /-- The category of the node, or that its class has no rule. -/
  label : String
  short : String
  /-- The node's own text, which may be empty. -/
  text : String
  reasons : List String
  deriving DecidableEq

namespace ReportEntry

def conclusion (entry : ReportEntry) : String :=
  match entry.mark with
  | .onGpu => "will run on GPU"
  | .onHost => "cannot run on GPU because " ++ "; ".intercalate entry.reasons
  | .heldBack => "could run on GPU but is not because its parent cannot"
  | .removed => "will be removed as a no-op"

def line (entry : ReportEntry) : String :=
  let text := if entry.text.isEmpty then "" else entry.text ++ " "
  s!"{indentation entry.depth}{entry.mark.symbol}{entry.label} <{entry.short}> {text}"
    ++ s!"{entry.conclusion}\n"

/-- The entry of a node. A holder is what the node belongs to; where one exists, its eligibility
is given. -/
def ofDecision {Node Op : Type} [HostNode Node] (depth : Nat) (holderEligible : Option Bool)
    (decision : Decision Node Op) : ReportEntry where
  depth := depth
  mark :=
    if !decision.eligible then .onHost
    else if holderEligible = some false then .heldBack
    else if decision.noOp then .removed
    else .onGpu
  label := if decision.rule.isSome then decision.kind.label else "NOT_FOUND"
  short := decision.short
  text := HostNode.describe decision.node
  reasons := decision.reasons

end ReportEntry

/-- Whether a node of this kind holds its children back when it is ineligible. Operators do not,
as transitions stand between them. -/
def RuleKind.holdsChildren : RuleKind → Bool
  | .expression | .partitioning => true
  | .operator | .scan => false

/-- The eligibility that a node's children see as that of their holder. -/
def Decision.holds {Node Op : Type} (decision : Decision Node Op) : Option Bool :=
  if decision.kind.holdsChildren then some decision.eligible else none

mutual

def ExprDecision.entriesAt (depth : Nat) (holderEligible : Option Bool) :
    ExprDecision → List ReportEntry
  | ⟨decision, children⟩ =>
    .ofDecision depth holderEligible decision
      :: entriesOfExprs (depth + 1) decision.holds children

def entriesOfExprs (depth : Nat) (holderEligible : Option Bool) :
    List ExprDecision → List ReportEntry
  | [] => []
  | tree :: rest =>
    tree.entriesAt depth holderEligible ++ entriesOfExprs depth holderEligible rest

end

mutual

def PlanDecision.entriesAt (depth : Nat) (holderEligible : Option Bool) :
    PlanDecision → List ReportEntry
  | ⟨decision, exprs, children⟩ =>
    .ofDecision depth holderEligible decision
      :: (entriesOfExprs (depth + 1) (some decision.eligible) exprs
        ++ entriesOfPlans (depth + 1) decision.holds children)

def entriesOfPlans (depth : Nat) (holderEligible : Option Bool) :
    List PlanDecision → List ReportEntry
  | [] => []
  | tree :: rest =>
    tree.entriesAt depth holderEligible ++ entriesOfPlans depth holderEligible rest

end

/-- The entries of an expression that stands alone. -/
def ExprDecision.entries (tree : ExprDecision) : List ReportEntry :=
  tree.entriesAt 0 none

def PlanDecision.entries (tree : PlanDecision) : List ReportEntry :=
  tree.entriesAt 0 none

namespace ReportMode

/-- Whether a report of this mode has a line for an entry. -/
def shows (mode : ReportMode) (entry : ReportEntry) : Bool :=
  match mode with
  | .all => true
  | .none => false
  | .notOnGpu => entry.mark = .onHost

/-- The text of a report. -/
def render (mode : ReportMode) (entries : List ReportEntry) : String :=
  String.join ((entries.filter mode.shows).map ReportEntry.line)

end ReportMode

def ExprDecision.report (tree : ExprDecision) (mode : ReportMode) : String :=
  mode.render tree.entries

def PlanDecision.report (tree : PlanDecision) (mode : ReportMode) : String :=
  mode.render tree.entries

end GpuPlacement
