/-!
The categories of host nodes that rules replace.
-/
namespace GpuPlacement

inductive RuleKind where
  /-- Scalar and aggregate expressions. -/
  | expression
  /-- Physical operators. -/
  | operator
  /-- Scans of data sources. -/
  | scan
  /-- Output partitionings of exchanges. -/
  | partitioning
  deriving DecidableEq

namespace RuleKind

/-- The part of a rule's key that names its category. -/
def keyPart : RuleKind → String
  | .expression => "expression"
  | .operator => "exec"
  | .scan => "input"
  | .partitioning => "partitioning"

/-- The name of the category in reasons and reports. -/
def label : RuleKind → String
  | .expression => "Expression"
  | .operator => "Exec"
  | .scan => "Scan"
  | .partitioning => "Partitioning"

end RuleKind

end GpuPlacement
