import GpuPlacement.Text.Blank
/-!
How much of the tagging report is wanted.
-/
namespace GpuPlacement

inductive ReportMode where
  /-- Every node. -/
  | all
  /-- No report. -/
  | none
  /-- Only nodes that stay on the host. -/
  | notOnGpu
  deriving DecidableEq, Inhabited

namespace ReportMode

def name : ReportMode → String
  | .all => "ALL"
  | .none => "NONE"
  | .notOnGpu => "NOT_ON_GPU"

/-- Reads a mode's name without regard to case and to white space around it. -/
def ofText? (text : String) : Option ReportMode :=
  let name := upperAscii (trimBlank text)
  if name = "ALL" then some .all
  else if name = "NONE" then some .none
  else if name = "NOT_ON_GPU" then some .notOnGpu
  else Option.none

end ReportMode

end GpuPlacement
